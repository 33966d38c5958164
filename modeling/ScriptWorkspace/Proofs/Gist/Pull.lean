import ScriptWorkspace.Proofs.Gist.Push
import ScriptWorkspace.Proofs.Session.Reading
import ScriptWorkspace.Proofs.Settings.TemplateFiles

/-
  Pulling the script of a gist into its package.

  A pull reads which binary the package has, and the texts of
  its source and its manifest. The files whose text is another
  one in the script are replaced together; if there are none,
  nothing is written.

  Main declarations:
    * `Workspace.perform_defaultBinary`
    * `Sync.performs_changedFiles`
    * `Sync.perform_pull`
-/

namespace ScriptWorkspace

open Storage Storage.Calls

variable {ω : Type}

------------------------------------------------------------
-- Binaries
------------------------------------------------------------

namespace Workspace

/- The source of a package in a tree, and its manifest. -/
def binaryIn
    (place : Location)
    (tree : Tree)
    (package : Cargo.Package) : Except Failure (Path × Text) := do
  let manifest ← Files.textAt place tree package.manifest
  let members ←
    Manifest.read (.notTomlAt package.manifest) manifest
  let target ← chooseBinary package members
  return (target.source, manifest)

theorem perform_defaultBinary
    (outside : Outside ω)
    (session : Session ω)
    (package : Cargo.Package) :
    (defaultBinary package).perform outside session =
      (binaryIn outside.directory.names session.tree package,
        session) := by
  unfold defaultBinary binaryIn
  rw [Action.perform_bind, Files.perform_read]
  cases
    Files.textAt outside.directory.names session.tree
      package.manifest with
  | error failure => rfl
  | ok manifest =>
      dsimp only
      rw [Action.perform_bind, (Performs.ofExcept _).run]
      simp only [bind, Except.bind]
      cases Manifest.read (.notTomlAt package.manifest) manifest
        with
      | error failure => rfl
      | ok members =>
          dsimp only
          cases chooseBinary package members with
          | error failure => rfl
          | ok target => rfl

------------------------------------------------------------
-- Distinct Files
------------------------------------------------------------

/- No file is made up when others are replaced. -/
theorem mem_of_mem_distinctFiles
    {files : List (Path × Text)}
    {file : Path × Text}
    (hMem : file ∈ distinctFiles files) : file ∈ files := by
  rcases Template.mem_of_mem_foldl_putFile hMem with hNone | hIn
  · cases hNone
  · exact hIn

/- Files with different paths are kept as they are. -/
theorem distinctFiles_of_pairwise
    {files : List (Path × Text)}
    (hPaths :
      files.Pairwise fun file other => file.1 ≠ other.1) :
    distinctFiles files = files :=
  Template.foldl_putFile_of_pairwise hPaths

end Workspace

namespace Sync

------------------------------------------------------------
-- Changes
------------------------------------------------------------

/- What of files with an old and a new text is changed. -/
def changesOf
    (files : List (Path × Text × Text)) :
    List (Path × Text) :=
  (files.filter fun (_, old, new) => decide (old ≠ new)).map
    fun (path, _, new) => (path, new)

/- Logging how files differ tells which of them do. -/
theorem performs_changedFiles
    (outside : Outside ω)
    (session : Session ω)
    (files : List (Path × Text × Text)) :
    ∃ after,
      Performs (changedFiles files) outside session []
        (.ok (changesOf files)) after := by
  induction files generalizing session with
  | nil => exact ⟨session, .pure []⟩
  | cons file files ih =>
      rcases file with ⟨path, old, new⟩
      rcases performs_logDiff outside session path.text old
          new with
        ⟨between, hFirst⟩
      rcases ih between with ⟨after, hRest⟩
      refine ⟨after, ?_⟩
      rw [changedFiles]
      refine hFirst.bind_quiet (hRest.bind_quiet ?_)
      simp only [changesOf, List.filter_cons]
      cases decide (old ≠ new) with
      | true => exact .pure _
      | false => exact .pure _

------------------------------------------------------------
-- Pulls
------------------------------------------------------------

/- The files that a script has for a package. -/
def filesIn
    (script : Text) : Except Failure Script.PackageFiles :=
  match Script.split script with
  | .ok files => .ok files
  | .error fault =>
    .error (.ofScript manifestMissing fault)

/- The files of a package that a script says something of. -/
def pulledFiles
    (place : Location)
    (tree : Tree)
    (package : Cargo.Package)
    (script : Text) :
    Except Failure (List (Path × Text × Text)) := do
  let files ← filesIn script
  let (source, manifest) ←
    Workspace.binaryIn place tree package
  let old ← Files.textAt place tree source
  pure
    [(source, old, files.source),
      (package.manifest, manifest, files.manifest)]

/- What is left to do when the texts are known. -/
def replaceChanged
    (dryRun : Bool)
    (files : List (Path × Text × Text)) :
    Action ω (List Path) := do
  let changed := Workspace.distinctFiles (← changedFiles files)
  unless changed.isEmpty do
    Files.writeAll changed dryRun
  return changed.map Prod.fst

theorem perform_pull
    (outside : Outside ω)
    (session : Session ω)
    (client : GistClient)
    (gistId : Text)
    (package : Cargo.Package)
    (dryRun : Bool) :
    (pull client gistId package dryRun).perform outside
        session =
      match (client.retrieve gistId).perform outside session
        with
      | (.error failure, fetched) => (.error failure, fetched)
      | (.ok remote, fetched) =>
        match
          pulledFiles outside.directory.names fetched.tree
            package remote.content
        with
        | .error failure => (.error failure, fetched)
        | .ok files =>
          (replaceChanged dryRun files).perform outside
            fetched := by
  unfold pull pulledFiles filesIn
  rw [Action.perform_bind]
  rcases (client.retrieve gistId).perform outside session with
    ⟨result, fetched⟩
  cases result with
  | error failure => rfl
  | ok remote =>
      dsimp only
      cases Script.split remote.content with
      | error fault => rfl
      | ok files =>
          simp only [pure_bind]
          rw [Action.perform_bind,
            Workspace.perform_defaultBinary]
          cases
            Workspace.binaryIn outside.directory.names
              fetched.tree package with
          | error failure => rfl
          | ok found =>
              rcases found with ⟨source, manifest⟩
              dsimp only
              rw [Action.perform_bind, Files.perform_read]
              simp only [bind, Except.bind, pure, Except.pure]
              cases
                Files.textAt outside.directory.names
                  fetched.tree source with
              | error failure => rfl
              | ok old => rfl

end Sync

end ScriptWorkspace
