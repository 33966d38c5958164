import ScriptWorkspace.Proofs.Session.Reading
import ScriptWorkspace.Proofs.Storage.Growth

/-
  Files that are written.

  A file that was written holds what was written. It stands
  in a directory, so there is nothing to be made before it is
  written again.

  Main declarations:
    * `Files.textAt_set`
    * `Files.textAt_of_write`
    * `Files.isDirectory_parent`
    * `Files.isDirectory_of_write`
    * `Files.perform_makeDirectories_of_directory`
-/

namespace ScriptWorkspace

namespace Files

open Storage Storage.Calls

variable {ω : Type}
variable {outside : Outside ω}
variable {place location : Location}
variable {tree : Tree}
variable {path : Path}
variable {content : Text}

------------------------------------------------------------
-- Contents
------------------------------------------------------------

/- What is put where a path leads to is found by the path. -/
theorem textAt_set
    (hUsable : isUsable path = true)
    (hResolved : tree.resolve place path = .ok location)
    (hFree : tree.find? location ≠ some .directory) :
    textAt place
        (tree.set location (.file (.text content))) path =
      .ok content := by
  have hNonroot : location ≠ [] := by
    rintro rfl
    exact hFree rfl
  refine
    textAt_eq_ok_iff.mpr
      ⟨hUsable, location, ?_, tree.find?_set_self _ hNonroot⟩
  exact
    (Tree.sameDirectories_set hFree).resolve_eq_ok_iff.mp
      hResolved

/- A file that was written holds what was written. -/
theorem textAt_of_write
    {session done : Session ω}
    (hRun :
      (write path content false).perform outside session =
        (.ok (), done)) :
    textAt outside.directory.names done.tree path =
      .ok content := by
  rcases exists_set_of_write hRun with
    ⟨hUsable, location, hResolved, hFree, hTree⟩
  rw [← hTree]
  exact textAt_set hUsable hResolved hFree

------------------------------------------------------------
-- Directories
------------------------------------------------------------

theorem isUsable_parent
    (hUsable : isUsable path = true) :
    isUsable path.parent = true := by
  simp only [isUsable, Bool.not_eq_true', List.any_eq_false]
    at hUsable ⊢
  exact fun name hMem =>
    hUsable name (List.dropLast_subset _ hMem)

/- There is a directory where the path leads to. -/
theorem isDirectory_eq_true_iff :
    Calls.isDirectory tree place path = true ↔
      ∃ location,
        tree.resolve place path = .ok location ∧
          tree.find? location = some .directory := by
  unfold Calls.isDirectory Storage.Tree.node
  cases tree.resolve place path with
  | error kind => simp [bind, Except.bind]
  | ok location =>
      simp only [bind, Except.bind]
      cases hFound : tree.find? location with
      | none =>
          simp [throw, throwThe, MonadExceptOf.throw, hFound]
      | some node =>
          cases node <;> simp [pure, Except.pure, hFound]

/- What a path leads to stands in a directory. -/
theorem isDirectory_parent
    (hNames : path.names ≠ [])
    (hResolved : tree.resolve place path = .ok location) :
    Calls.isDirectory tree place path.parent = true := by
  have hAll :
      path.names =
        path.parent.names ++ [path.names.getLast hNames] :=
    (List.dropLast_concat_getLast hNames).symm
  have hAbsolute :
      path.isAbsolute = path.parent.isAbsolute :=
    rfl
  unfold Tree.resolve at hResolved
  rw [hAll, hAbsolute, List.foldlM_append] at hResolved
  cases hParent : tree.resolve place path.parent with
  | error kind =>
      unfold Tree.resolve at hParent
      rw [hParent] at hResolved
      cases hResolved
  | ok parent =>
      refine
        isDirectory_eq_true_iff.mpr ⟨parent, hParent, ?_⟩
      unfold Tree.resolve at hParent
      rw [hParent] at hResolved
      rcases Tree.foldlM_step_cons.mp hResolved with
        ⟨_, hStep, _⟩
      exact (Tree.step_eq_ok_iff.mp hStep).1

/- A path that leads on does so from a directory. -/
theorem isDirectory_of_child
    {name : OsText}
    (hResolved :
      tree.resolve place (path.child name) = .ok location) :
    Calls.isDirectory tree place path = true := by
  have hParent : (path.child name).parent = path := by
    simp [Path.child, Path.parent]
  rw [← hParent]
  exact
    isDirectory_parent (by simp [Path.child]) hResolved

/- A directory stays one while the tree grows. -/
theorem isDirectory_of_growsInto
    {other : Tree}
    (hGrows : tree.GrowsInto other)
    (hDirectory : Calls.isDirectory tree place path = true) :
    Calls.isDirectory other place path = true := by
  rcases isDirectory_eq_true_iff.mp hDirectory with
    ⟨location, hResolved, hFound⟩
  exact
    isDirectory_eq_true_iff.mpr
      ⟨location, hGrows.resolve_eq_ok hResolved,
        hGrows.find?_directory hFound⟩

/- A directory stays one while a file is written. -/
theorem isDirectory_of_write
    {session done : Session ω}
    {other : Path}
    (hRun :
      (write other content false).perform outside session =
        (.ok (), done))
    (hDirectory :
      Calls.isDirectory session.tree outside.directory.names
          path =
        true) :
    Calls.isDirectory done.tree outside.directory.names
        path =
      true := by
  rcases exists_set_of_write hRun with
    ⟨_, written, _, hFree, hTree⟩
  have hSame : session.tree.SameDirectories done.tree := by
    rw [← hTree]
    exact Tree.sameDirectories_set hFree
  rcases isDirectory_eq_true_iff.mp hDirectory with
    ⟨location, hResolved, hFound⟩
  exact
    isDirectory_eq_true_iff.mpr
      ⟨location, hSame.resolve_eq_ok_iff.mp hResolved,
        (hSame location).mp hFound⟩

/- A directory that is there is not made again. -/
theorem makeDirectories_of_directory
    (hDirectory : Calls.isDirectory tree place path = true) :
    Calls.makeDirectories tree place path = (tree, []) := by
  rcases isDirectory_eq_true_iff.mp hDirectory with
    ⟨location, hResolved, hFound⟩
  have hMade :
      makeDirectory tree place path =
        .error (about path .alreadyExists) := by
    simp [makeDirectory, hResolved, hFound]
  rw [Calls.makeDirectories, makeDirectoriesFrom, hMade]
  simp [about, unlessDirectory, hDirectory]

theorem perform_makeDirectories_of_directory
    {session : Session ω}
    (hUsable : isUsable path = true)
    (hDirectory :
      Calls.isDirectory session.tree outside.directory.names
          path =
        true) :
    (Files.makeDirectories path false).perform outside
        session =
      (.ok (), session) := by
  have hMade := makeDirectories_of_directory hDirectory
  rw [Files.makeDirectories, if_neg Bool.false_ne_true,
    Action.perform_bind, perform_requireUsable, hUsable]
  change
    (do
      Action.setTree
        (Calls.makeDirectories session.tree
          outside.directory.names path).1
      unless
        (Calls.makeDirectories session.tree
          outside.directory.names path).2.isEmpty do
        throw _ : Action ω Unit).perform outside session =
      _
  rw [hMade]
  rfl

end Files

end ScriptWorkspace
