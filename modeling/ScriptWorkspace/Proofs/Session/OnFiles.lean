import ScriptWorkspace.CommandLine.Execution

/-
  Operations on files.

  Such an operation is made of steps that look at what is
  around it, read or set the tree of files, and log. It does
  not read the input and calls nothing. What holds of these
  steps, and of one operation after another, holds of all of
  them, so each operation is followed once: there is a lemma
  for it, named for it.

  Main declarations:
    * `Action.OnFiles`
    * `Membership.onFiles_modify`
    * `Workspace.onFiles_registerScript`
    * `Workspace.onFiles_importScript`
    * `Settings.onFiles_loadOrCreate`
    * `CommandLine.onFiles_scriptWorkspace`
-/

namespace ScriptWorkspace

variable {ω : Type}

------------------------------------------------------------
-- Steps
------------------------------------------------------------

namespace Action

/- The operation is made of steps that concern files. -/
inductive OnFiles : {α : Type} → Action ω α → Prop
  | pure
      {α : Type}
      (result : α) :
      OnFiles (Pure.pure result)
  | throw
      {α : Type}
      (failure : Failure) :
      OnFiles (MonadExcept.throw failure : Action ω α)
  | bind
      {α β : Type}
      {action : Action ω α}
      {next : α → Action ω β}
      (hAction : OnFiles action)
      (hNext : ∀ result, OnFiles (next result)) :
      OnFiles (action >>= next)
  | surroundings :
      OnFiles (read : Action ω (Outside ω))
  | log
      (level : Level)
      (parts : List OsText) :
      OnFiles (Action.log level parts)
  | tree : OnFiles Action.tree
  | setTree
      (tree : Storage.Tree) :
      OnFiles (Action.setTree tree)

namespace OnFiles

variable {α β : Type}

/- A result that is made of the one of an operation. -/
theorem bind_pure
    {action : Action ω α}
    {make : α → β}
    (hAction : action.OnFiles) :
    OnFiles (action >>= fun result => Pure.pure (make result)) :=
  .bind hAction fun result => .pure (make result)

/- Nothing follows a failure. -/
theorem throw_bind
    (failure : Failure)
    (next : α → Action ω β) :
    OnFiles (MonadExcept.throw failure >>= next) := by
  have hThrow :
      (MonadExcept.throw failure >>= next) =
        MonadExcept.throw failure :=
    rfl
  rw [hThrow]
  exact .throw failure

/- A step for each entry. -/
theorem forIn
    {entries : List α}
    {state : β}
    {step : α → β → Action ω (ForInStep β)}
    (hStep : ∀ entry state, (step entry state).OnFiles) :
    OnFiles (ForIn.forIn entries state step) := by
  induction entries generalizing state with
  | nil => exact .pure state
  | cons entry entries ih =>
      rw [List.forIn_cons]
      refine .bind (hStep entry state) fun next => ?_
      cases next with
      | done state => exact .pure state
      | yield state => exact ih

theorem ofExcept (result : Except Failure α) :
    OnFiles (Action.ofExcept result : Action ω α) := by
  cases result with
  | ok found => exact .pure found
  | error failure => exact .throw failure

theorem logInfo (parts : List OsText) :
    OnFiles (Action.logInfo parts : Action ω Unit) :=
  .log .info parts

theorem environment (name : Text) :
    OnFiles (Action.environment name : Action ω _) :=
  .bind_pure .surroundings

theorem directory :
    OnFiles (Action.directory : Action ω Storage.Location) :=
  .bind_pure .surroundings

theorem requireUsable (path : Path) :
    OnFiles (Action.requireUsable path : Action ω Unit) := by
  unfold Action.requireUsable
  split
  · exact .throw _
  · exact .pure ()

end OnFiles

end Action

open ScriptWorkspace.Action

------------------------------------------------------------
-- Files
------------------------------------------------------------

namespace Files

theorem onFiles_pathExists (path : Path) :
    OnFiles (pathExists path : Action ω Bool) := by
  unfold pathExists
  split
  · exact .pure false
  · refine .bind .tree fun tree =>
      .bind .directory fun directory => ?_
    split
    · exact .pure _
    · exact .throw _

theorem onFiles_read (path : Path) :
    OnFiles (read path : Action ω Text) := by
  refine
    .bind (.requireUsable path) fun _ =>
      .bind .tree fun tree =>
        .bind .directory fun directory => ?_
  split
  · exact .throw _
  · split
    · exact .pure _
    · exact .throw _

theorem onFiles_readToml (path : Path) :
    OnFiles (readToml path : Action ω Toml.Table) := by
  refine .bind (onFiles_read path) fun text => ?_
  split
  · exact .pure _
  · exact .throw _
  · exact .throw _

theorem onFiles_write
    (path : Path)
    (content : Text)
    (dryRun : Bool) :
    OnFiles (write path content dryRun : Action ω Unit) := by
  cases dryRun with
  | true => exact .logInfo _
  | false =>
      refine
        .bind (.requireUsable path) fun _ =>
          .bind .tree fun tree =>
            .bind .directory fun directory => ?_
      split
      · exact .bind (.setTree _) fun _ => .logInfo _
      · exact .throw_bind _ _

theorem onFiles_unstage (staged : List Staged) :
    OnFiles (unstage staged : Action ω Unit) :=
  .bind .directory fun _ => .bind .tree fun _ => .setTree _

theorem onFiles_stageAll
    (count : Nat)
    (staged : List Staged)
    (files : List (Path × Text)) :
    OnFiles
      (stageAll count staged files :
        Action ω (List Staged)) := by
  induction files generalizing staged with
  | nil => exact .pure _
  | cons file files ih =>
      rcases file with ⟨path, content⟩
      refine
        .bind (.requireUsable path) fun _ =>
          .bind .tree fun tree =>
            .bind .directory fun directory => ?_
      split
      · exact .bind (.setTree _) fun _ => ih _
      · exact
          .bind (onFiles_unstage staged) fun _ => .throw _

theorem onFiles_moveAll (files : List Staged) :
    OnFiles (moveAll files : Action ω Unit) := by
  induction files with
  | nil => exact .pure ()
  | cons file files ih =>
      refine
        .bind .tree fun tree =>
          .bind .directory fun directory => ?_
      split
      · exact
          .bind (.setTree _) fun _ =>
            .bind (.logInfo _) fun _ => ih
      · exact .bind (onFiles_unstage _) fun _ => .throw _

theorem onFiles_writeAll
    (files : List (Path × Text))
    (dryRun : Bool) :
    OnFiles (writeAll files dryRun : Action ω Unit) := by
  cases dryRun with
  | true =>
      refine .bind_pure (.forIn fun entry _ => ?_)
      exact .bind_pure (.logInfo _)
  | false =>
      exact
        .bind (onFiles_stageAll _ _ _) fun staged =>
          onFiles_moveAll staged

theorem onFiles_makeDirectories
    (path : Path)
    (dryRun : Bool) :
    OnFiles (makeDirectories path dryRun : Action ω Unit) := by
  cases dryRun with
  | true => exact .pure ()
  | false =>
      refine
        .bind (.requireUsable path) fun _ =>
          .bind .tree fun tree =>
            .bind .directory fun directory => ?_
      split
      refine .bind (.setTree _) fun _ => ?_
      split
      · exact .pure ()
      · exact .throw _

end Files

------------------------------------------------------------
-- Members
------------------------------------------------------------

namespace Membership

theorem onFiles_addTo
    (root : Path)
    (listing : Listing)
    (dryRun : Bool)
    (path : Path)
    (groups : List Toml.Layout.Group)
    (progress : Progress) :
    OnFiles
      (addTo root listing dryRun path groups progress :
        Action ω _) := by
  refine .bind (.ofExcept _) fun target => ?_
  split
  · exact .bind_pure (.logInfo _)
  · exact .bind_pure (.logInfo _)

theorem onFiles_removeFrom
    (root : Path)
    (listing : Listing)
    (dryRun : Bool)
    (path : Path)
    (groups : List Toml.Layout.Group)
    (progress : Progress) :
    OnFiles
      (removeFrom root listing dryRun path groups progress :
        Action ω _) := by
  refine .bind (.ofExcept _) fun target => ?_
  split
  · exact .bind_pure (.log _ _)
  · exact .bind_pure (.logInfo _)

theorem onFiles_changeList
    (root : Path)
    (listing : Listing)
    (dryRun : Bool)
    (change : ListChange)
    (progress : Progress) :
    OnFiles
      (changeList root listing dryRun change progress :
        Action ω Progress) := by
  unfold changeList
  split
  · exact .pure progress
  · refine .bind (.ofExcept _) fun opened => ?_
    rcases opened with _ | ⟨groups, document⟩
    · exact .pure progress
    · -- Either path of the change may be missing.
      rcases change with ⟨_ | added, _ | removed⟩
      · exact
          .bind (.pure _) fun _ =>
            .bind (.pure _) fun _ => .pure _
      · exact
          .bind (.pure _) fun _ =>
            .bind (onFiles_removeFrom _ _ _ _ _ _) fun _ =>
              .pure _
      · exact
          .bind (onFiles_addTo _ _ _ _ _ _) fun _ =>
            .bind (.pure _) fun _ => .pure _
      · exact
          .bind (onFiles_addTo _ _ _ _ _ _) fun _ =>
            .bind (onFiles_removeFrom _ _ _ _ _ _) fun _ =>
              .pure _

theorem onFiles_modify
    (root : Path)
    (change : Change)
    (dryRun : Bool) :
    OnFiles (modify root change dryRun : Action ω Report) := by
  refine
    .bind (Files.onFiles_read _) fun original =>
      .bind (.ofExcept _) fun document =>
        .bind (onFiles_changeList root .members _ _ _)
          fun progress =>
            .bind (onFiles_changeList root .exclude _ _ _)
              fun progress => ?_
  dsimp only
  split
  · exact .bind_pure (.logInfo _)
  · exact .bind_pure (Files.onFiles_write _ _ _)

end Membership

------------------------------------------------------------
-- Scripts As Packages
------------------------------------------------------------

/- The words of a call are looked up, but it is not made. -/
theorem Cargo.onFiles_command (arguments : List OsText) :
    OnFiles (command arguments : Action ω (List OsText)) :=
  .bind_pure (.bind_pure (.environment _))

namespace Workspace

theorem onFiles_create
    (directory : Path)
    (dryRun : Bool) :
    OnFiles (create directory dryRun : Action ω Unit) :=
  .bind (Files.onFiles_makeDirectories _ _) fun _ =>
    .bind (Files.onFiles_write _ _ _) fun _ => .logInfo _

theorem onFiles_requireVirtual (root : Path) :
    OnFiles (requireVirtual root : Action ω Unit) := by
  refine .bind (Files.onFiles_readToml _) fun _ => ?_
  split
  · exact .throw _
  · exact .pure ()

theorem onFiles_writeUnlessCurrent
    (path : Path)
    (content : Text)
    (dryRun : Bool) :
    OnFiles
      (writeUnlessCurrent path content dryRun :
        Action ω Bool) := by
  have hWrite (current : Bool) :
      OnFiles
        (if current then do
            Action.logInfo [path.text, " is up to date"]
            return false
          else do
            Files.write path content dryRun
            return true :
          Action ω Bool) := by
    cases current with
    | true => exact .bind_pure (.logInfo _)
    | false => exact .bind_pure (Files.onFiles_write _ _ _)
  refine .bind (Files.onFiles_pathExists path) fun found => ?_
  cases found with
  | true =>
      exact
        .bind (Files.onFiles_read path) fun _ =>
          .bind (.pure _) hWrite
  | false => exact .bind (.pure false) hWrite

theorem onFiles_addPackage
    (root : Path)
    (name : Text)
    (dryRun : Bool) :
    OnFiles (addPackage root name dryRun : Action ω Path) := by
  refine .bind (Files.onFiles_pathExists _) fun found => ?_
  split
  · exact .throw _
  · exact .bind_pure (Membership.onFiles_modify root _ _)

theorem onFiles_registerScript
    (metadata : Cargo.Metadata)
    (manifest script : Text)
    (binary : Option OsText)
    (dryRun : Bool) :
    OnFiles
      (registerScript metadata manifest script binary dryRun :
        Action ω Text) := by
  have hSources (path : Path) (name : Text) :
      OnFiles
        (do
          let source := sourceBeside path binary
          Files.makeDirectories source.parent dryRun
          let _ ← writeUnlessCurrent path manifest dryRun
          let _ ← writeUnlessCurrent source script dryRun
          return name :
          Action ω Text) :=
    .bind (Files.onFiles_makeDirectories _ _) fun _ =>
      .bind (onFiles_writeUnlessCurrent _ _ _) fun _ =>
        .bind_pure (onFiles_writeUnlessCurrent _ _ _)
  refine .bind (.ofExcept _) fun name => ?_
  dsimp only
  split
  · exact
      .bind (.logInfo _) fun _ =>
        .bind (.pure _) fun path => hSources path name
  · exact
      .bind (onFiles_addPackage _ _ _) fun path =>
        hSources path name

theorem onFiles_importScript
    (root : Path)
    (script : Text)
    (directoryFor : Text → Path)
    (dryRun : Bool) :
    OnFiles
      (importScript root script directoryFor dryRun :
        Action ω Text) := by
  unfold importScript
  cases Script.split script with
  | error fault => exact .throw_bind _ _
  | ok files =>
      exact
        .bind (.pure files) fun _ =>
          .bind (.ofExcept _) fun name =>
            .bind (Files.onFiles_makeDirectories _ _) fun _ =>
              .bind (Files.onFiles_writeAll _ _) fun _ =>
                .bind_pure (Membership.onFiles_modify root _ _)

end Workspace

------------------------------------------------------------
-- Settings
------------------------------------------------------------

namespace Settings

theorem onFiles_load (path : Path) :
    OnFiles (load path : Action ω Settings) := by
  refine
    .bind (.requireUsable path) fun _ =>
      .bind .tree fun tree =>
        .bind .directory fun directory => ?_
  dsimp only
  split
  · exact .throw _
  · split
    · exact .throw _
    · exact .ofExcept _

theorem onFiles_loadOrCreate
    (path home : Path)
    (dryRun : Bool) :
    OnFiles
      (loadOrCreate path home dryRun : Action ω Settings) := by
  refine .bind (Files.onFiles_pathExists path) fun found => ?_
  split
  · exact onFiles_load path
  · exact
      .bind (.ofExcept _) fun settings =>
        .bind (.logInfo _) fun _ =>
          .bind_pure
            (.bind (Files.onFiles_makeDirectories _ _)
              fun _ => Files.onFiles_write _ _ _)

end Settings

------------------------------------------------------------
-- Command Lines
------------------------------------------------------------

namespace CommandLine

theorem onFiles_placed (path : Path) :
    OnFiles (placed path : Action ω Path) :=
  .bind_pure .surroundings

theorem onFiles_homeDirectory :
    OnFiles (homeDirectory : Action ω Path) :=
  .bind_pure .surroundings

theorem onFiles_settingsPath (given : Option Path) :
    OnFiles (settingsPath given : Action ω Path) := by
  cases given with
  | some path => exact .pure path
  | none =>
      refine .bind (.environment _) fun base => ?_
      cases base with
      | some text => exact .bind_pure (.pure _)
      | none =>
          exact
            .bind .surroundings fun _ => .bind_pure (.pure _)

theorem onFiles_loadSettings
    (given : Option Path)
    (dryRun : Bool) :
    OnFiles (loadSettings given dryRun : Action ω Settings) :=
  .bind (onFiles_settingsPath given) fun _ =>
    .bind onFiles_homeDirectory fun _ =>
      Settings.onFiles_loadOrCreate _ _ _

theorem onFiles_packageDirectory
    (given : Option Path)
    (root : Path) :
    OnFiles (packageDirectory given root : Action ω _) := by
  cases given with
  | none => exact .pure _
  | some path => exact .bind_pure (onFiles_placed path)

theorem onFiles_scriptWorkspace
    (request : RunRequest)
    (settings : Settings) :
    OnFiles
      (scriptWorkspace request settings : Action ω Path) := by
  unfold scriptWorkspace
  split
  · refine .bind (onFiles_placed _) fun manifest => ?_
    split
    · exact .pure _
    · exact .throw _
  · exact .bind_pure onFiles_homeDirectory
  · exact .bind (onFiles_settingsPath _) fun _ => .throw _

end CommandLine

end ScriptWorkspace
