import ScriptWorkspace.Proofs.Session.Growing
import ScriptWorkspace.Proofs.Session.Writing

/-
  Scripts that are imported.

  A script is split into the files of a package, which are put
  beneath directories that are made for them. Then the package
  becomes a member of a workspace. If the workspace is there
  already, and elsewhere, its manifest is still the one from
  before the files were put.

  Main declarations:
    * `Workspace.packageIn`
    * `Workspace.putPackage`
    * `Workspace.perform_importScript`
    * `Workspace.taken_of_writeAll`
    * `Workspace.textAt_of_writeAll`
-/

namespace ScriptWorkspace

open Storage Storage.Calls

variable {ω : Type}
variable {outside : Outside ω}

namespace Workspace

------------------------------------------------------------
-- Steps
------------------------------------------------------------

/- The files and the name of the package that a script is. -/
def packageIn
    (script : Text) :
    Except Failure (Script.PackageFiles × Text) :=
  match Script.split script with
  | .ok files => do
    let name ← Manifest.packageName files.manifest
    return (files, name)
  | .error fault => .error (.ofScript manifestMissing fault)

/- The files of a package are put, and it becomes a member. -/
def putPackage
    (root directory : Path)
    (files : Script.PackageFiles)
    (name : Text)
    (dryRun : Bool) : Action ω Text := do
  let sources := directory.join "src"
  Files.makeDirectories sources dryRun
  Files.writeAll
    [(manifestIn directory, files.manifest),
      (sources.join "main.rs", files.source)]
    dryRun
  let _ ←
    Membership.modify root (.addMember directory) dryRun
  return name

/- A script is imported once it is known as a package. -/
theorem perform_importScript
    (outside : Outside ω)
    (session : Session ω)
    (root : Path)
    (script : Text)
    (directoryFor : Text → Path)
    (dryRun : Bool) :
    (importScript root script directoryFor dryRun).perform
        outside session =
      match packageIn script with
      | .error failure => (.error failure, session)
      | .ok (files, name) =>
        (putPackage root (directoryFor name) files name
          dryRun).perform outside session := by
  unfold importScript packageIn
  cases Script.split script with
  | error fault => rfl
  | ok files =>
      simp only [pure_bind]
      rw [Action.perform_bind]
      cases Manifest.packageName files.manifest with
      | error failure => rfl
      | ok name => rfl

------------------------------------------------------------
-- Places
------------------------------------------------------------

/- The name of a manifest as the name of a file. -/
def fileName : OsText := Manifest.fileName

theorem manifestIn_eq_child (directory : Path) :
    manifestIn directory = directory.child fileName :=
  rfl

theorem main_eq_child (directory : Path) :
    (directory.join "src").join "main.rs" =
      (directory.child "src").child "main.rs" :=
  rfl

------------------------------------------------------------
-- The Files Of A Package
------------------------------------------------------------

/- The files that a script has in a directory. -/
def packageFiles
    (directory : Path)
    (manifest source : Text) : List (Path × Text) :=
  [(manifestIn directory, manifest),
    ((directory.join "src").join "main.rs", source)]

section PackageFiles

variable {directory : Path}
variable {manifest source : Text}

/- None of them is named like a file that is staged. -/
theorem areNotTemporary_packageFiles :
    Files.AreNotTemporary
      ((packageFiles directory manifest source).map
        Prod.fst) := by
  refine Files.areNotTemporary_of_no_dot fun path hMem => ?_
  rcases List.mem_pair.mp hMem with rfl | rfl
  · rw [manifestIn_eq_child, Path.name_child]
    decide
  · rw [main_eq_child, Path.name_child]
    decide

/- None of them is the manifest in another directory. -/
theorem spelledLocation_ne_of_mem_packageFiles
    {place : Location}
    {root : Path}
    (hOther :
      spelledLocation place directory ≠
        spelledLocation place root)
    {file : Path × Content}
    (hMem :
      file ∈
        Files.contents
          (packageFiles directory manifest source)) :
    spelledLocation place file.1 ≠
      spelledLocation place root ++ [fileName] := by
  rcases List.mem_pair.mp hMem with rfl | rfl
  · dsimp only
    rw [manifestIn_eq_child, spelledLocation_child (by decide)]
    intro hSame
    exact hOther (List.append_inj' hSame rfl).1
  · dsimp only
    rw [main_eq_child, spelledLocation_child (by decide)]
    intro hSame
    exact absurd (List.append_inj' hSame rfl).2 (by decide)

/- They are put where they can be when they are written. -/
theorem taken_of_writeAll
    {session done : Session ω}
    (hPlace : Tree.parentName ∉ outside.directory.names)
    (hWrite :
      (Files.writeAll (packageFiles directory manifest source)
            false).perform outside session =
        (.ok (), done)) :
    (∀ file ∈
        Files.contents
          (packageFiles directory manifest source),
      ∃ goal,
        Takes session.tree outside.directory.names file.1
          goal) ∧
      done.tree =
        putFiles outside.directory.names
          (Files.contents
            (packageFiles directory manifest source))
          session.tree := by
  rcases Files.writeAll_ends outside session
      (packageFiles directory manifest source) hPlace
      fun _ _ =>
        Files.areApart_of_names
          areNotTemporary_packageFiles with
    ⟨result, after, log, hRun, hReplacement⟩
  cases hRun.symm.trans hWrite
  cases hReplacement with
  | moving hEnd =>
      cases hEnd with
      | moved hTaken => exact ⟨hTaken, rfl⟩

/- The manifest at the root is the one from before. -/
theorem textAt_of_writeAll
    {made done : Session ω}
    {tree : Tree}
    {root : Path}
    {text : Text}
    (hPlace : Tree.parentName ∉ outside.directory.names)
    (hRoot :
      isDirectory tree outside.directory.names root = true)
    (hOther :
      spelledLocation outside.directory.names directory ≠
        spelledLocation outside.directory.names root)
    (hMade : tree.GainsDirectories made.tree)
    (hWrite :
      (Files.writeAll (packageFiles directory manifest source)
            false).perform outside made =
        (.ok (), done))
    (hText :
      Files.textAt outside.directory.names done.tree
          (root.join Manifest.fileName) =
        .ok text) :
    Files.textAt outside.directory.names tree
        (root.join Manifest.fileName) =
      .ok text := by
  rcases taken_of_writeAll hPlace hWrite with
    ⟨hTaken, hDone⟩
  rcases Files.textAt_eq_ok_iff.mp hText with
    ⟨hUsable, location, hResolved, hFound⟩
  have hLocation :
      location =
        spelledLocation outside.directory.names root ++
          [fileName] := by
    rw [← spelledLocation_child (by decide)]
    exact spelledLocation_of_resolve hResolved
  have hApart :
      ∀ file ∈
          Files.contents
            (packageFiles directory manifest source),
        ∃ goal,
          Takes made.tree outside.directory.names file.1
              goal ∧
            goal ≠ location := by
    intro file hMem
    rcases hTaken file hMem with ⟨goal, hTakes⟩
    refine ⟨goal, hTakes, ?_⟩
    rw [spelledLocation_of_resolve hTakes.resolved, hLocation]
    exact spelledLocation_ne_of_mem_packageFiles hOther hMem
  rcases Files.isDirectory_eq_true_iff.mp hRoot with
    ⟨top, hTop, hDirectory⟩
  have hBefore :
      tree.resolve outside.directory.names
          (root.child fileName) =
        .ok location := by
    rw [hLocation, ← spelledLocation_of_resolve hTop]
    exact
      resolve_child (by decide) (by decide) hTop hDirectory
  rw [hDone, find?_putFiles_of_ne hApart] at hFound
  rcases hMade.gained _ _ hFound with hOld | hNot
  · exact
      Files.textAt_eq_ok_iff.mpr
        ⟨hUsable, _, hBefore, hOld⟩
  · cases hNot

end PackageFiles

end Workspace

end ScriptWorkspace
