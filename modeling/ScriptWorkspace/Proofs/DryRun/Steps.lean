import ScriptWorkspace.Gist.Sync
import ScriptWorkspace.Proofs.Gist.Push
import ScriptWorkspace.Proofs.Session.OnlyAsks
import ScriptWorkspace.Settings.Store
import ScriptWorkspace.Workspace.Creation

/-
  The steps of a dry run.

  Each operation that can be run dry reads what it needs, and
  logs what it would do in the place of doing it. So it only
  asks, and so does what it is a part of. There is one lemma
  for each operation, named for it, that follows its steps.
-/

namespace ScriptWorkspace

open ScriptWorkspace.Action

variable {ω : Type}
variable {outside : Outside ω}

------------------------------------------------------------
-- Files
------------------------------------------------------------

namespace Files

theorem onlyAsks_pathExists (path : Path) :
    OnlyAsks outside (pathExists path) := by
  unfold pathExists
  split
  · exact .pure false
  · refine .bind .tree fun tree =>
      .bind .directory fun directory => ?_
    split
    · exact .pure _
    · exact .throw _

theorem onlyAsks_read (path : Path) :
    OnlyAsks outside (read path) := by
  refine
    .bind (.requireUsable path) fun _ =>
      .bind .tree fun tree =>
        .bind .directory fun directory => ?_
  split
  · exact .throw _
  · split
    · exact .pure _
    · exact .throw _

theorem onlyAsks_write (path : Path) (content : Text) :
    OnlyAsks outside (write path content true) :=
  .logInfo _

theorem onlyAsks_writeIfText
    (path : Path)
    (content : Option Text) :
    OnlyAsks outside (writeIfText path content true) := by
  cases content with
  | none => exact onlyAsks_write path []
  | some text => exact onlyAsks_write path text

theorem onlyAsks_writeAll (files : List (Path × Text)) :
    OnlyAsks outside (writeAll files true) := by
  refine .bind_pure (.forIn fun entry _ => ?_)
  exact .bind_pure (.logInfo _)

theorem onlyAsks_copy (source target : Path) :
    OnlyAsks outside (copy source target true) :=
  .logInfo _

theorem onlyAsks_makeDirectories (path : Path) :
    OnlyAsks outside (makeDirectories path true) :=
  .pure ()

theorem onlyAsks_removeTree (path : Path) :
    OnlyAsks outside (removeTree path true) :=
  .logInfo _

end Files

------------------------------------------------------------
-- Manifests
------------------------------------------------------------

namespace Manifest

theorem onlyAsks_readDocument (path : Path) :
    OnlyAsks outside (readDocument path) :=
  .bind (Files.onlyAsks_read path) fun _ => .ofExcept _

theorem onlyAsks_renamePackage
    (document : Toml.Layout.Document)
    (name : OsText) :
    OnlyAsks outside (renamePackage document name) :=
  .bind (.ofExcept _) fun _ =>
    .bind_pure (.logInfo _)

end Manifest

namespace Membership

theorem onlyAsks_addTo
    (root : Path)
    (listing : Listing)
    (dryRun : Bool)
    (path : Path)
    (groups : List Toml.Layout.Group)
    (progress : Progress) :
    OnlyAsks outside
      (addTo root listing dryRun path groups progress) := by
  refine .bind (.ofExcept _) fun target => ?_
  split
  · exact .bind_pure (.logInfo _)
  · exact .bind_pure (.logInfo _)

theorem onlyAsks_removeFrom
    (root : Path)
    (listing : Listing)
    (dryRun : Bool)
    (path : Path)
    (groups : List Toml.Layout.Group)
    (progress : Progress) :
    OnlyAsks outside
      (removeFrom root listing dryRun path groups
        progress) := by
  refine .bind (.ofExcept _) fun target => ?_
  split
  · exact .bind_pure (.logDebug _)
  · exact .bind_pure (.logInfo _)

theorem onlyAsks_changeList
    (root : Path)
    (listing : Listing)
    (dryRun : Bool)
    (change : ListChange)
    (progress : Progress) :
    OnlyAsks outside
      (changeList root listing dryRun change progress) := by
  unfold changeList
  split
  · exact .pure progress
  · refine .bind (.ofExcept _) fun opened => ?_
    rcases opened with _ | ⟨groups, document⟩
    · exact .pure progress
    · cases change.add with
      | none =>
          refine .bind (.pure _) fun next => ?_
          cases change.remove with
          | none => exact .bind_pure (.pure _)
          | some path =>
              exact
                .bind_pure (onlyAsks_removeFrom _ _ _ _ _ _)
      | some path =>
          refine
            .bind (onlyAsks_addTo _ _ _ _ _ _) fun next => ?_
          cases change.remove with
          | none => exact .bind_pure (.pure _)
          | some path =>
              exact
                .bind_pure (onlyAsks_removeFrom _ _ _ _ _ _)

theorem onlyAsks_modify
    (root : Path)
    (change : Change) :
    OnlyAsks outside (modify root change true) := by
  refine .bind (Files.onlyAsks_read _) fun original =>
    .bind (.ofExcept _) fun document =>
      .bind (onlyAsks_changeList root .members true _ _)
        fun progress =>
          .bind (onlyAsks_changeList root .exclude true _ _)
            fun progress => ?_
  dsimp only
  split
  · exact .bind_pure (.logInfo _)
  · exact .bind_pure (Files.onlyAsks_write _ _)

end Membership

------------------------------------------------------------
-- Calls Of The Build Tool
------------------------------------------------------------

namespace Cargo

theorem onlyAsks_command (arguments : List OsText) :
    OnlyAsks outside (command arguments) :=
  .bind_pure (.bind_pure (.environment _))

theorem onlyAsks_run
    (arguments : List OsText)
    (directory : Option Path)
    (mustSucceed : Bool) :
    OnlyAsks outside
      (run arguments directory mustSucceed true) :=
  .bind (onlyAsks_command arguments) fun _ =>
    .bind_pure (.logInfo _)

end Cargo

------------------------------------------------------------
-- Packages
------------------------------------------------------------

namespace Workspace

theorem onlyAsks_create (directory : Path) :
    OnlyAsks outside (create directory true) :=
  .bind (Files.onlyAsks_makeDirectories directory) fun _ =>
    .bind (Files.onlyAsks_write _ _) fun _ => .logInfo _

theorem onlyAsks_defaultBinary (package : Cargo.Package) :
    OnlyAsks outside (defaultBinary package) :=
  .bind (Files.onlyAsks_read package.manifest) fun _ =>
    .bind (.ofExcept _) fun _ =>
      .bind_pure (.ofExcept _)

theorem onlyAsks_exported (package : Cargo.Package) :
    OnlyAsks outside (exported package) := by
  refine .bind (onlyAsks_defaultBinary package) fun found =>
    .bind (Files.onlyAsks_read _) fun source => ?_
  split
  · exact .pure _
  · exact .throw _

theorem onlyAsks_writeUnlessCurrent
    (path : Path)
    (content : Text) :
    OnlyAsks outside
      (writeUnlessCurrent path content true) := by
  refine
    .bind (Files.onlyAsks_pathExists path) fun found => ?_
  have hWrite (current : Bool) :
      OnlyAsks outside
        (if current then do
          logInfo [path.text, " is up to date"]
          return false
        else do
          Files.write path content true
          return true) := by
    cases current with
    | true => exact .bind_pure (.logInfo _)
    | false =>
        exact
          .bind_pure (Files.onlyAsks_write path content)
  cases found with
  | true =>
      exact
        .bind (Files.onlyAsks_read path) fun _ =>
          .bind (.pure _) hWrite
  | false => exact .bind (.pure false) hWrite

theorem onlyAsks_addPackage (root : Path) (name : Text) :
    OnlyAsks outside (addPackage root name true) := by
  refine .bind (Files.onlyAsks_pathExists _) fun found => ?_
  split
  · exact .throw _
  · exact .bind_pure (Membership.onlyAsks_modify root _)

/- The manifest and the source of a package. -/
theorem onlyAsks_writeSources
    (path : Path)
    (manifest script name : Text)
    (binary : Option OsText) :
    OnlyAsks outside (do
      let source := sourceBeside path binary
      Files.makeDirectories source.parent true
      let _ ← writeUnlessCurrent path manifest true
      let _ ← writeUnlessCurrent source script true
      return name) :=
  .bind (Files.onlyAsks_makeDirectories _) fun _ =>
    .bind (onlyAsks_writeUnlessCurrent path manifest) fun _ =>
      .bind_pure (onlyAsks_writeUnlessCurrent _ script)

theorem onlyAsks_registerScript
    (metadata : Cargo.Metadata)
    (manifest script : Text)
    (binary : Option OsText) :
    OnlyAsks outside
      (registerScript metadata manifest script binary
        true) := by
  refine .bind (.ofExcept _) fun name => ?_
  dsimp only
  split
  · exact
      .bind (.logInfo _) fun _ =>
        .bind (.pure _) fun path =>
          onlyAsks_writeSources path manifest script name _
  · exact
      .bind (onlyAsks_addPackage _ _) fun path =>
        onlyAsks_writeSources path manifest script name _

theorem onlyAsks_importScript
    (root : Path)
    (script : Text)
    (directoryFor : Text → Path) :
    OnlyAsks outside
      (importScript root script directoryFor true) := by
  unfold importScript
  cases Script.split script with
  | error fault => exact .throw_bind _ _
  | ok files =>
      exact
        .bind (.pure files) fun _ =>
          .bind (.ofExcept _) fun name =>
            .bind (Files.onlyAsks_makeDirectories _) fun _ =>
              .bind (Files.onlyAsks_writeAll _) fun _ =>
                .bind (Membership.onlyAsks_modify root _)
                  fun _ => .pure name

theorem onlyAsks_copyTemplate (base directory : Path) :
    OnlyAsks outside (copyTemplate base directory true) := by
  refine
    .bind ?_ fun sources =>
      .bind_pure (.forIn fun entry _ => ?_)
  · exact .bind .tree fun _ => .bind_pure .directory
  · exact
      .bind (Files.onlyAsks_makeDirectories _) fun _ =>
        .bind_pure (Files.onlyAsks_copy _ _)

theorem onlyAsks_writeTemplate
    (template : Toml.Table)
    (directory : Path) :
    OnlyAsks outside
      (writeTemplate template directory true) := by
  refine
    .bind (.ofExcept _) fun files =>
      .bind_pure (.forIn fun entry _ => ?_)
  rcases entry with ⟨path, content⟩
  dsimp only
  split
  · exact
      .bind (Files.onlyAsks_makeDirectories _) fun _ =>
        .bind_pure (Files.onlyAsks_write _ _)
  · exact .pure _

theorem onlyAsks_layOut
    (template : Toml.Table)
    (templatePackage : Option Path)
    (directory : Path) :
    OnlyAsks outside
      (layOut template templatePackage directory true) := by
  cases templatePackage with
  | none =>
      exact
        .bind (onlyAsks_writeTemplate template directory)
          fun _ => .ofExcept _
  | some base =>
      exact
        .bind (onlyAsks_copyTemplate base directory) fun _ =>
          Manifest.onlyAsks_readDocument _

theorem onlyAsks_newPackage
    (root directory : Path)
    (template : Toml.Table)
    (name : Option OsText)
    (templatePackage : Option Path) :
    OnlyAsks outside
      (newPackage root directory template name templatePackage
        true) :=
  .bind (.ofExcept _) fun name =>
    .bind (onlyAsks_layOut template templatePackage directory)
      fun document =>
        .bind (Manifest.onlyAsks_renamePackage document name)
          fun _ =>
            .bind (Files.onlyAsks_makeDirectories _) fun _ =>
              .bind (Files.onlyAsks_writeIfText _ _) fun _ =>
                .bind_pure (Membership.onlyAsks_modify root _)

theorem onlyAsks_initWorkspace (directory : Path) :
    OnlyAsks outside (initWorkspace directory true) :=
  .bind (Files.onlyAsks_makeDirectories directory) fun _ =>
    .bind (Files.onlyAsks_write _ _) fun _ =>
      .bind (Cargo.onlyAsks_run _ _ _) fun _ =>
        .bind (Files.onlyAsks_makeDirectories _) fun _ =>
          .bind_pure (Files.onlyAsks_write _ _)

end Workspace

------------------------------------------------------------
-- Settings
------------------------------------------------------------

namespace Settings

theorem onlyAsks_load (path : Path) :
    OnlyAsks outside (load path) := by
  refine
    .bind (.requireUsable path) fun _ =>
      .bind .tree fun tree =>
        .bind .directory fun directory => ?_
  dsimp only
  split
  · exact .throw _
  · split
    · exact .throw _
    · exact .ofExcept _

theorem onlyAsks_save
    (settings : Settings)
    (path : Path) :
    OnlyAsks outside (save settings path true) :=
  .bind (Files.onlyAsks_makeDirectories _) fun _ =>
    Files.onlyAsks_write _ _

theorem onlyAsks_loadOrCreate (path home : Path) :
    OnlyAsks outside (loadOrCreate path home true) := by
  refine
    .bind (Files.onlyAsks_pathExists path) fun found => ?_
  split
  · exact onlyAsks_load path
  · exact
      .bind (.ofExcept _) fun settings =>
        .bind (.logInfo _) fun _ =>
          .bind_pure (onlyAsks_save settings path)

end Settings

theorem TokenFile.onlyAsks_loadOrAsk
    (token : TokenFile)
    {ask : Text → Action ω Text}
    (hAsk : ∀ label, (ask label).OnlyAsks outside)
    (home : Path) :
    OnlyAsks outside (token.loadOrAsk ask home true) := by
  refine .bind (Files.onlyAsks_pathExists _) fun found => ?_
  split
  · exact .bind_pure (Files.onlyAsks_read _)
  · exact
      .bind (hAsk _) fun _ =>
        .bind (Files.onlyAsks_makeDirectories _) fun _ =>
          .bind_pure (Files.onlyAsks_write _ _)

------------------------------------------------------------
-- Gists
------------------------------------------------------------

namespace GistClient

theorem onlyAsks_retrieve
    (client : GistClient)
    (gistId : Text) :
    OnlyAsks outside (client.retrieve gistId) := by
  refine .of_performs fun session => ?_
  rcases client.performs_retrieve outside session gistId with
    ⟨exchanges, found, after, hRequests, hRun⟩
  exact
    ⟨exchanges, _, after,
      fun _ hMem => hRequests.method_of_mem hMem, hRun⟩

end GistClient

namespace Sync

theorem onlyAsks_logDiff (label : OsText) (old new : Text) :
    OnlyAsks outside (logDiff label old new) := by
  refine .of_performs fun session => ?_
  rcases performs_logDiff outside session label old new with
    ⟨after, hRun⟩
  exact ⟨[], _, after, List.forall_mem_nil _, hRun⟩

theorem onlyAsks_logChanges
    (remote : RemoteScript)
    (script : Text) :
    OnlyAsks outside (logChanges remote script) := by
  refine .of_performs fun session => ?_
  have hLog :=
    performs_logChanges outside session remote script
  rcases hLog with ⟨after, hRun⟩
  exact ⟨[], _, after, List.forall_mem_nil _, hRun⟩

theorem onlyAsks_changedFiles
    (files : List (Path × Text × Text)) :
    OnlyAsks outside (changedFiles files) := by
  induction files with
  | nil => exact .pure []
  | cons file files ih =>
      refine .bind (onlyAsks_logDiff _ _ _) fun changed =>
        .bind ih fun others => ?_
      split
      · exact .pure _
      · exact .pure _

theorem onlyAsks_createGist
    (client : GistClient)
    (gistIds : GistIds)
    (package script : Text)
    (options : PushOptions) :
    OnlyAsks outside
      (createGist client gistIds package script options
        true) := by
  unfold createGist
  cases options.setUpstream with
  | false => exact .throw_bind _ _
  | true => exact .bind_pure (.logInfo _)

theorem onlyAsks_push
    (client : GistClient)
    (gistIds : GistIds)
    (package script : Text)
    (options : PushOptions) :
    OnlyAsks outside
      (push client gistIds package script options true) := by
  refine .bind ?_ fun state => ?_
  · unfold determineState
    split
    · exact .pure _
    · exact .bind_pure (client.onlyAsks_retrieve _)
  · split
    · exact .bind_pure (.logInfo _)
    · exact
        .bind (.logInfo _) fun _ =>
          .bind_pure (onlyAsks_logChanges _ _)
    · exact .bind_pure (onlyAsks_createGist _ _ _ _ _)

theorem onlyAsks_pull
    (client : GistClient)
    (gistId : Text)
    (package : Cargo.Package) :
    OnlyAsks outside (pull client gistId package true) := by
  refine
    .bind (client.onlyAsks_retrieve gistId) fun remote => ?_
  cases Script.split remote.content with
  | error fault => exact .throw_bind _ _
  | ok files =>
      refine
        .bind (.pure files) fun _ =>
          .bind (Workspace.onlyAsks_defaultBinary package)
            fun _ =>
              .bind (Files.onlyAsks_read _) fun _ =>
                .bind (onlyAsks_changedFiles _)
                  fun changed => ?_
      dsimp only
      split
      · exact .pure _
      · exact .bind_pure (Files.onlyAsks_writeAll _)

theorem onlyAsks_clone
    (client : GistClient)
    (gistId : Text)
    (root : Path)
    (gistIds : GistIds)
    (directoryFor : Text → Path) :
    OnlyAsks outside
      (clone client gistId root gistIds directoryFor true) :=
  .bind (client.onlyAsks_retrieve gistId) fun _ =>
    .bind (Workspace.onlyAsks_importScript _ _ _) fun _ =>
      .bind_pure (.logInfo _)

end Sync

end ScriptWorkspace
