import ScriptWorkspace.Proofs.DryRun.Steps
import ScriptWorkspace.Proofs.Session.Staying
import ScriptWorkspace.Proofs.Workspace.Import

/-
  Where the files of a package are put.

  A region admits a path if a file can be written there and
  the directories above it can be made. The operations that
  write the files of a package change no more than a region
  that admits the paths of these files.

  Main declarations:
    * `Region.Admits`
    * `Workspace.staysWithin_writeSources`
    * `Workspace.staysFrom_putFiles`
    * `Workspace.templateTargets`
    * `Workspace.staysFrom_layOut`
-/

namespace ScriptWorkspace

open ScriptWorkspace.Action Storage Storage.Calls

variable {ω : Type}
variable {outside : Outside ω}
variable {region : Region}
variable {session : Session ω}

/-
  A file can be written where the path says, and directories
  can be made on the way to it.
-/
structure Storage.Region.Admits
    (region : Region)
    (place : Location)
    (path : Path) : Prop where
  file : region.files (spelledLocation place path)
  directories :
    ∀ n,
      region.directories
        (spelledLocation place (path.parent.upTo n))

namespace Workspace

------------------------------------------------------------
-- Files That Are Kept Current
------------------------------------------------------------

theorem staysWithin_writeUnlessCurrent
    {path : Path}
    (content : Text)
    (hPath :
      region.Admits outside.directory.names path) :
    StaysWithin outside region
      (writeUnlessCurrent path content false) := by
  have hWrite (current : Bool) :
      StaysWithin outside region
        (if current then do
          logInfo [path.text, " is up to date"]
          return false
        else do
          Files.write path content false
          return true) := by
    cases current with
    | true => exact .of_onlyAsks (.bind_pure (.logInfo _))
    | false =>
        exact
          .bind_pure
            (Files.staysWithin_write content hPath.file)
  refine
    .bind (.of_onlyAsks (Files.onlyAsks_pathExists path))
      fun found => ?_
  cases found with
  | true =>
      exact
        .bind (.of_onlyAsks (Files.onlyAsks_read path))
          fun _ => .bind (.of_onlyAsks (.pure _)) hWrite
  | false => exact .bind (.of_onlyAsks (.pure false)) hWrite

/- The manifest and the source of a package. -/
theorem staysWithin_writeSources
    {path : Path}
    {binary : Option OsText}
    (manifest script name : Text)
    (hManifest :
      region.Admits outside.directory.names path)
    (hSource :
      region.Admits outside.directory.names
        (sourceBeside path binary)) :
    StaysWithin outside region (do
      let source := sourceBeside path binary
      Files.makeDirectories source.parent false
      let _ ← writeUnlessCurrent path manifest false
      let _ ← writeUnlessCurrent source script false
      return name) :=
  .bind
    (Files.staysWithin_makeDirectories hSource.directories)
    fun _ =>
      .bind (staysWithin_writeUnlessCurrent manifest hManifest)
        fun _ =>
          .bind_pure
            (staysWithin_writeUnlessCurrent script hSource)

------------------------------------------------------------
-- Files Of A Script
------------------------------------------------------------

/- The paths of the files that a script has in a directory. -/
def packagePaths (directory : Path) : List Path :=
  [manifestIn directory,
    (directory.join "src").join "main.rs"]

theorem parent_child (path : Path) (name : OsText) :
    (path.child name).parent = path := by
  simp [Path.parent, Path.child]

theorem parent_manifestIn (directory : Path) :
    (manifestIn directory).parent = directory :=
  parent_child directory fileName

theorem isUsable_child
    {path : Path}
    {name : OsText}
    (hPath : Files.isUsable path = true)
    (hName : name.any (· == .char '\x00') = false) :
    Files.isUsable (path.child name) = true := by
  unfold Files.isUsable Path.child at *
  simp_all

theorem isUsable_of_child
    {path : Path}
    {name : OsText}
    (hChild : Files.isUsable (path.child name) = true) :
    Files.isUsable path = true := by
  unfold Files.isUsable Path.child at *
  simp_all

/- Directories are made for the files, and then these are put. -/
theorem staysFrom_putFiles
    {directory : Path}
    {manifest source : Text}
    (hPlace : Tree.parentName ∉ outside.directory.names)
    (hPaths :
      ∀ path ∈ packagePaths directory,
        region.Admits outside.directory.names path) :
    StaysFrom outside region session (do
      Files.makeDirectories (directory.join "src") false
      Files.writeAll (packageFiles directory manifest source)
        false : Action ω Unit) := by
  have hManifest := hPaths _ List.mem_cons_self
  have hSource :=
    hPaths _ (List.mem_cons_of_mem _ List.mem_cons_self)
  have hDirectories :
      StaysWithin outside region
        (Files.makeDirectories (directory.join "src")
          false) := by
    refine Files.staysWithin_makeDirectories ?_
    have hAll := hSource.directories
    rw [main_eq_child, parent_child] at hAll
    exact hAll
  refine (hDirectories session).bind fun _ between hRun => ?_
  have hSources := Files.isUsable_of_makeDirectories hRun
  have hUsable : Files.isUsable directory = true :=
    isUsable_of_child hSources
  refine
    Files.staysFrom_writeAll hPlace
      areNotTemporary_packageFiles ?_ ?_
  · intro file hMem
    rcases List.mem_pair.mp hMem with rfl | rfl
    · exact isUsable_child hUsable (by decide)
    · exact isUsable_child hSources (by decide)
  · intro file hMem
    rcases List.mem_pair.mp hMem with rfl | rfl
    · exact hManifest.file
    · exact hSource.file

------------------------------------------------------------
-- Files Of A Template
------------------------------------------------------------

/- The files of a template in a tree. -/
def templateParts
    (place : Location)
    (tree : Tree)
    (base : Path) : List (Path × List OsText) :=
  ((filesBelow tree place base).map fun file =>
      (file, file.names.drop base.names.length)).filter
    fun (_, names) => isTemplatePart names

/- Where the files of a template are put in a directory. -/
def templateTargets
    (place : Location)
    (tree : Tree)
    (template : Toml.Table)
    (templatePackage : Option Path)
    (directory : Path) : List Path :=
  match templatePackage with
  | some base =>
    (templateParts place tree base).map fun (_, names) =>
      { directory with names := directory.names ++ names }
  | none =>
    match Template.files directory template with
    | .ok files => files.map Prod.fst
    | .error _ => []

theorem perform_templateSources
    (outside : Outside ω)
    (session : Session ω)
    (base : Path) :
    (templateSources base).perform outside session =
      (.ok
        (templateParts outside.directory.names session.tree
          base),
        session) :=
  rfl

/- The files of a template are laid out. -/
theorem staysFrom_layOut
    {template : Toml.Table}
    {templatePackage : Option Path}
    {directory : Path}
    (hPaths :
      ∀ path ∈
          templateTargets outside.directory.names session.tree
            template templatePackage directory,
        region.Admits outside.directory.names path) :
    StaysFrom outside region session
      (layOut template templatePackage directory false) := by
  cases templatePackage with
  | some base =>
      have hCopied :
          StaysFrom outside region session
            (copyTemplate base directory false) := by
        have hSources :
            StaysFrom outside region session
              (templateSources base) := by
          unfold StaysFrom
          rw [perform_templateSources]
          exact .refl region session.tree
        refine hSources.bind fun sources between hRun => ?_
        rw [perform_templateSources] at hRun
        cases hRun
        refine
          StaysWithin.bind_pure
            (.forIn fun entry hMem _ => ?_) session
        have hTarget := hPaths _ (List.mem_map_of_mem hMem)
        exact
          .bind
            (Files.staysWithin_makeDirectories
              hTarget.directories)
            fun _ =>
              .bind_pure
                (Files.staysWithin_copy entry.1 hTarget.file)
      exact
        hCopied.bind fun _ _ _ =>
          .of_onlyAsks (Manifest.onlyAsks_readDocument _)
  | none =>
      have hWritten :
          StaysFrom outside region session
            (writeTemplate template directory false) := by
        refine .ofExcept_bind fun files hFiles => ?_
        rw [templateTargets, hFiles] at hPaths
        refine
          StaysWithin.bind_pure
            (.forIn fun entry hMem _ => ?_) session
        rcases entry with ⟨path, content⟩
        have hPath := hPaths path (List.mem_map_of_mem hMem)
        dsimp only
        split
        · exact
            .bind
              (Files.staysWithin_makeDirectories
                hPath.directories)
              fun _ =>
                .bind_pure
                  (Files.staysWithin_write content hPath.file)
        · exact .of_onlyAsks (.pure _)
      exact
        hWritten.bind fun _ _ _ => .of_onlyAsks (.ofExcept _)

end Workspace

end ScriptWorkspace
