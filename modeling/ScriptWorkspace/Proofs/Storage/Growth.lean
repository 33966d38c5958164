import ScriptWorkspace.Proofs.Storage.Tree

/-
  Trees that grow.

  A tree has grown into another one if nothing of it is gone:
  each directory and each file is where it was, and at most
  there are other texts. A path that leads somewhere in a tree
  leads there in all that it grows into. A tree that gains
  directories is one that grows.

  Main declarations:
    * `Tree.GrowsInto`
    * `Tree.GrowsInto.resolve_eq_ok`
    * `Tree.GainsDirectories`
    * `Calls.spelledLocation_of_resolve`
    * `Calls.resolve_child`
-/

namespace ScriptWorkspace

/- The path of a name in the directory of a path. -/
def Path.child (path : Path) (name : OsText) : Path :=
  { path with names := path.names ++ [name] }

/- The path that more names lead to. -/
def Path.onward (path : Path) (names : List OsText) : Path :=
  { path with names := path.names ++ names }

theorem Path.name_child (path : Path) (name : OsText) :
    (path.child name).name = name := by
  simp [child, Path.name]

namespace Storage

namespace Tree

variable {tree other later : Tree}
variable {location place : Location}
variable {node : Node}

------------------------------------------------------------
-- Growth
------------------------------------------------------------

/- A node stays what it is, but a text can be rewritten. -/
inductive Becomes : Node → Node → Prop
  | same (node : Node) : Becomes node node
  | rewritten (old new : Text) :
      Becomes (.file (.text old)) (.file (.text new))

theorem Becomes.trans
    {first second third : Node}
    (hFront : Becomes first second)
    (hBack : Becomes second third) :
    Becomes first third := by
  cases hFront with
  | same => exact hBack
  | rewritten old new =>
      cases hBack with
      | same => exact .rewritten old new
      | rewritten _ last => exact .rewritten old last

/- Every node of the tree has a place in the other one. -/
def GrowsInto (tree other : Tree) : Prop :=
  ∀ location node,
    tree.find? location = some node →
      ∃ left,
        other.find? location = some left ∧ Becomes node left

/- What is put may stand for what was there. -/
theorem growsInto_set
    (hOld :
      ∀ old,
        tree.find? location = some old → Becomes old node) :
    tree.GrowsInto (tree.set location node) := by
  intro place found hFound
  by_cases hPlace : place = location
  · subst hPlace
    by_cases hRoot : place = []
    · subst hRoot
      cases hFound
      exact ⟨.directory, rfl, .same _⟩
    · exact
        ⟨node, find?_set_self tree node hRoot,
          hOld found hFound⟩
  · rw [find?_set_of_ne tree node hPlace]
    exact ⟨found, hFound, .same found⟩

namespace GrowsInto

theorem refl (tree : Tree) : tree.GrowsInto tree :=
  fun _ node hFound => ⟨node, hFound, .same node⟩

theorem trans
    (hFront : tree.GrowsInto other)
    (hBack : other.GrowsInto later) :
    tree.GrowsInto later := by
  intro location node hFound
  rcases hFront location node hFound with
    ⟨between, hBetween, hFirst⟩
  rcases hBack location between hBetween with
    ⟨left, hLeft, hSecond⟩
  exact ⟨left, hLeft, hFirst.trans hSecond⟩

theorem find?_directory
    (hGrows : tree.GrowsInto other)
    (hFound : tree.find? location = some .directory) :
    other.find? location = some .directory := by
  rcases hGrows location .directory hFound with
    ⟨left, hLeft, hBecomes⟩
  cases hBecomes
  exact hLeft

theorem foldlM_step_eq_ok
    {names : List OsText}
    (hGrows : tree.GrowsInto other)
    (hFound : names.foldlM tree.step place = .ok location) :
    names.foldlM other.step place = .ok location := by
  induction names generalizing place with
  | nil => exact hFound
  | cons name names ih =>
      rcases foldlM_step_cons.mp hFound with
        ⟨next, hStep, hRest⟩
      rcases step_eq_ok_iff.mp hStep with
        ⟨hDirectory, hWidth, hNext⟩
      have hOther : other.step place name = .ok next :=
        step_eq_ok_iff.mpr
          ⟨hGrows.find?_directory hDirectory, hWidth, hNext⟩
      exact foldlM_step_cons.mpr ⟨next, hOther, ih hRest⟩

/- A path leads to the same location in a tree that grew. -/
theorem resolve_eq_ok
    {path : Path}
    (hGrows : tree.GrowsInto other)
    (hFound : tree.resolve place path = .ok location) :
    other.resolve place path = .ok location :=
  hGrows.foldlM_step_eq_ok hFound

/- What stops a step at a directory stops it for good. -/
theorem step_eq_error
    {name : OsText}
    {kind : FaultKind}
    (hGrows : tree.GrowsInto other)
    (hMissing : kind ≠ .notFound)
    (hNotDirectory : kind ≠ .notDirectory)
    (hFault : tree.step place name = .error kind) :
    other.step place name = .error kind := by
  unfold step at hFault ⊢
  cases hNode : tree.find? place with
  | none =>
      rw [hNode] at hFault
      cases hFault
      exact absurd rfl hMissing
  | some node =>
      rw [hNode] at hFault
      cases node with
      | file content =>
          cases hFault
          exact absurd rfl hNotDirectory
      | directory =>
          rw [hGrows.find?_directory hNode]
          exact hFault

theorem foldlM_step_eq_error
    {names : List OsText}
    {kind : FaultKind}
    (hGrows : tree.GrowsInto other)
    (hMissing : kind ≠ .notFound)
    (hNotDirectory : kind ≠ .notDirectory)
    (hFault : names.foldlM tree.step place = .error kind) :
    names.foldlM other.step place = .error kind := by
  induction names generalizing place with
  | nil => cases hFault
  | cons name names ih =>
      rw [List.foldlM_cons] at hFault ⊢
      cases hStep : tree.step place name with
      | error fault =>
          rw [hStep] at hFault
          cases hFault
          rw [hGrows.step_eq_error hMissing hNotDirectory
            hStep]
          rfl
      | ok next =>
          rw [hStep] at hFault
          rcases step_eq_ok_iff.mp hStep with
            ⟨hDirectory, hWidth, hNext⟩
          have hOther : other.step place name = .ok next :=
            step_eq_ok_iff.mpr
              ⟨hGrows.find?_directory hDirectory, hWidth,
                hNext⟩
          rw [hOther]
          exact ih hFault

/- A path that leads nowhere else does not either later. -/
theorem resolve_eq_error
    {path : Path}
    {kind : FaultKind}
    (hGrows : tree.GrowsInto other)
    (hMissing : kind ≠ .notFound)
    (hNotDirectory : kind ≠ .notDirectory)
    (hFault : tree.resolve place path = .error kind) :
    other.resolve place path = .error kind :=
  hGrows.foldlM_step_eq_error hMissing hNotDirectory hFault

end GrowsInto

------------------------------------------------------------
-- More Directories
------------------------------------------------------------

/- The other tree has all of the tree and more directories. -/
structure GainsDirectories (tree other : Tree) : Prop where
  kept :
    ∀ location node,
      tree.find? location = some node →
        other.find? location = some node
  gained :
    ∀ location node,
      other.find? location = some node →
        tree.find? location = some node ∨ node = .directory

namespace GainsDirectories

theorem growsInto
    (hGains : tree.GainsDirectories other) :
    tree.GrowsInto other :=
  fun location node hFound =>
    ⟨node, hGains.kept location node hFound, .same node⟩

/- The files of both are the same. -/
theorem find?_file_iff
    {content : Content}
    (hGains : tree.GainsDirectories other) :
    other.find? location = some (.file content) ↔
      tree.find? location = some (.file content) := by
  constructor
  · intro hFound
    rcases hGains.gained location _ hFound with
      hSame | hDirectory
    · exact hSame
    · cases hDirectory
  · exact hGains.kept location _

end GainsDirectories

end Tree

namespace Calls

variable {tree : Tree}
variable {place location : Location}

------------------------------------------------------------
-- Spelled Locations
------------------------------------------------------------

theorem plainNames_of_foldlM_step
    {names : List OsText}
    (hFound : names.foldlM tree.step place = .ok location) :
    location = plainNames place names := by
  induction names generalizing place with
  | nil =>
      cases hFound
      rfl
  | cons name names ih =>
      rcases Tree.foldlM_step_cons.mp hFound with
        ⟨next, hStep, hRest⟩
      rcases Tree.step_eq_ok_iff.mp hStep with
        ⟨_, _, hNext⟩
      rw [ih hRest, ← hNext, plainNames]
      split
      · rfl
      · rfl

/- A path leads to where it says, if it leads somewhere. -/
theorem spelledLocation_of_resolve
    {path : Path}
    (hFound : tree.resolve place path = .ok location) :
    location = spelledLocation place path :=
  plainNames_of_foldlM_step hFound

theorem plainNames_concat
    {name : OsText}
    (hName : name ≠ Tree.parentName)
    (done names : List OsText) :
    plainNames done (names ++ [name]) =
      plainNames done names ++ [name] := by
  induction names generalizing done with
  | nil => simp [plainNames, hName]
  | cons first names ih =>
      rw [List.cons_append, plainNames, plainNames]
      split
      · exact ih _
      · exact ih _

/- Names that do not lead back are names of the location. -/
theorem plainNames_append
    {names : List OsText}
    (hNames : Tree.parentName ∉ names)
    (done front : List OsText) :
    plainNames done (front ++ names) =
      plainNames done front ++ names := by
  induction names generalizing front with
  | nil => simp
  | cons name names ih =>
      rw [List.mem_cons, not_or] at hNames
      have hSplit :
          front ++ name :: names = front ++ [name] ++ names :=
        by simp
      rw [hSplit, ih hNames.2,
        plainNames_concat (Ne.symm hNames.1)]
      simp

/- A name more in the path is a name more in the location. -/
theorem spelledLocation_child
    {name : OsText}
    (hName : name ≠ Tree.parentName)
    (place : Location)
    (path : Path) :
    spelledLocation place (path.child name) =
      spelledLocation place path ++ [name] :=
  plainNames_concat hName _ path.names

/- So it is for names that do not lead back. -/
theorem spelledLocation_onward
    {names : List OsText}
    (hNames : Tree.parentName ∉ names)
    (place : Location)
    (path : Path) :
    spelledLocation place (path.onward names) =
      spelledLocation place path ++ names :=
  plainNames_append hNames _ path.names

/- A path leads on from a directory that it leads to. -/
theorem resolve_child
    {path : Path}
    {name : OsText}
    (hName : name ≠ Tree.parentName)
    (hWidth : name.width ≤ Tree.maxNameWidth)
    (hFound : tree.resolve place path = .ok location)
    (hNode : tree.find? location = some .directory) :
    tree.resolve place (path.child name) =
      .ok (location ++ [name]) := by
  have hStep :
      tree.step location name = .ok (location ++ [name]) :=
    Tree.step_eq_ok_iff.mpr ⟨hNode, hWidth, if_neg hName⟩
  have hAbsolute :
      (path.child name).isAbsolute = path.isAbsolute :=
    rfl
  have hNames :
      (path.child name).names = path.names ++ [name] :=
    rfl
  unfold Tree.resolve at hFound ⊢
  rw [hAbsolute, hNames, List.foldlM_append, hFound]
  exact Tree.foldlM_step_cons.mpr ⟨_, hStep, rfl⟩

end Calls

end Storage

end ScriptWorkspace
