import Mathlib.Data.List.Induction
import ScriptWorkspace.Proofs.Storage.Regions

/-
  What is listed below a directory.

  A tree is sound if every node that it lists is found and is
  in a directory. In such a tree there is nothing below a node
  that is missing, and all that is below a directory is listed
  with the names that lead on to it.

  Main declarations:
    * `Tree.IsSound`
    * `Tree.IsSound.find?_append_eq_none`
    * `Calls.listedBelow`
    * `Calls.mem_filesBelow_iff`
-/

namespace ScriptWorkspace

namespace Storage

variable {tree : Tree}
variable {location place : Location}
variable {node : Node}

------------------------------------------------------------
-- Sound Trees
------------------------------------------------------------

namespace Tree

/-
  Every node that is listed is found, it is in a directory,
  and no part of the way to it leads back.
-/
structure IsSound (tree : Tree) : Prop where
  found :
    ∀ entry ∈ tree.nodes, tree.find? entry.1 = some entry.2
  inside :
    ∀ entry ∈ tree.nodes,
      tree.find? entry.1.dropLast = some .directory
  onward : ∀ entry ∈ tree.nodes, parentName ∉ entry.1

instance (tree : Tree) : Decidable tree.IsSound :=
  decidable_of_iff
    ((∀ entry ∈ tree.nodes,
          tree.find? entry.1 = some entry.2) ∧
        (∀ entry ∈ tree.nodes,
            tree.find? entry.1.dropLast = some .directory) ∧
          ∀ entry ∈ tree.nodes, parentName ∉ entry.1)
    ⟨fun ⟨hFound, hInside, hOnward⟩ =>
        ⟨hFound, hInside, hOnward⟩,
      fun hSound =>
        ⟨hSound.found, hSound.inside, hSound.onward⟩⟩

/- A node that is found is listed, unless it is the root. -/
theorem mem_nodes_of_find?
    (hNonroot : location ≠ [])
    (hFound : tree.find? location = some node) :
    (location, node) ∈ tree.nodes := by
  rw [find?, if_neg (by simpa using hNonroot)] at hFound
  rcases List.lookup_eq_some_iff.mp hFound with
    ⟨before, after, hNodes, _⟩
  rw [hNodes]
  simp

namespace IsSound

theorem parentName_not_mem
    (hSound : tree.IsSound)
    (hFound : tree.find? location = some node) :
    parentName ∉ location := by
  by_cases hRoot : location = []
  · rw [hRoot]
    exact List.not_mem_nil
  · exact hSound.onward _ (mem_nodes_of_find? hRoot hFound)

/- What is above a node is a directory. -/
theorem find?_of_append
    {names : List OsText}
    (hSound : tree.IsSound)
    (hSome : names ≠ [])
    (hFound : tree.find? (location ++ names) = some node) :
    tree.find? location = some .directory := by
  induction names using List.reverseRecOn generalizing node with
  | nil => exact absurd rfl hSome
  | append_singleton names name ih =>
      have hNonroot : location ++ (names ++ [name]) ≠ [] := by
        simp
      have hAbove :=
        hSound.inside _ (mem_nodes_of_find? hNonroot hFound)
      rw [← List.append_assoc, List.dropLast_concat] at hAbove
      by_cases hNames : names = []
      · rwa [hNames, List.append_nil] at hAbove
      · exact ih hNames hAbove

/- There is nothing below a node that is missing. -/
theorem find?_append_eq_none
    (hSound : tree.IsSound)
    (hMissing : tree.find? location = none)
    (names : List OsText) :
    tree.find? (location ++ names) = none := by
  by_cases hNames : names = []
  · rw [hNames, List.append_nil]
    exact hMissing
  · by_contra hSome
    rcases Option.ne_none_iff_exists'.mp hSome with
      ⟨node, hFound⟩
    rw [hSound.find?_of_append hNames hFound] at hMissing
    cases hMissing

end IsSound

theorem isBelow_iff
    {directory : Location} :
    isBelow directory location = true ↔
      ∃ names, names ≠ [] ∧ location = directory ++ names := by
  rw [isBelow, Bool.and_eq_true, List.isPrefixOf_iff_prefix,
    bne_iff_ne]
  constructor
  · rintro ⟨⟨names, rfl⟩, hOther⟩
    refine ⟨names, ?_, rfl⟩
    rintro rfl
    exact hOther (List.append_nil _).symm
  · rintro ⟨names, hSome, rfl⟩
    refine ⟨List.prefix_append _ _, fun hSame => hSome ?_⟩
    exact List.append_right_eq_self.mp hSame.symm

end Tree

------------------------------------------------------------
-- Listing
------------------------------------------------------------

namespace Calls

/- The files below a location, as the tree has them. -/
def listedBelow
    (tree : Tree)
    (location : Location)
    (path : Path) : List Path :=
  (tree.below location).filterMap fun (place, node) =>
    match node with
    | .directory => none
    | .file _ =>
      some
        { path with
          names := path.names ++ place.drop location.length }

section Resolved

variable {path file : Path}
variable (hResolved : tree.resolve place path = .ok location)

include hResolved

theorem filesBelow_eq :
    filesBelow tree place path =
      (listedBelow tree location path).mergeSort
        Path.precedes := by
  rw [filesBelow, hResolved]
  rfl

/- Files that are in their order stay in it. -/
theorem filesBelow_of_pairwise
    (hOrder :
      (listedBelow tree location path).Pairwise
        (Path.precedes · ·)) :
    filesBelow tree place path =
      listedBelow tree location path := by
  rw [filesBelow_eq hResolved]
  exact List.mergeSort_of_pairwise hOrder

/-
  The files below a directory are listed, with the names that
  lead on to them.
-/
theorem mem_filesBelow_iff
    (hSound : tree.IsSound) :
    file ∈ filesBelow tree place path ↔
      ∃ names content,
        file = path.onward names ∧
          names ≠ [] ∧
            tree.find? (location ++ names) =
              some (.file content) := by
  rw [filesBelow_eq hResolved, List.mem_mergeSort,
    listedBelow, List.mem_filterMap]
  constructor
  · rintro ⟨⟨goal, node⟩, hMem, hFile⟩
    rcases List.mem_filter.mp hMem with ⟨hNode, hBelow⟩
    rcases Tree.isBelow_iff.mp hBelow with ⟨names, hSome, hGoal⟩
    have hFound := hSound.found _ hNode
    dsimp only at hGoal hFound hFile
    subst hGoal
    cases node with
    | directory => cases hFile
    | file content =>
        cases hFile
        refine ⟨names, content, ?_, hSome, hFound⟩
        rw [List.drop_left]
        rfl
  · rintro ⟨names, content, rfl, hSome, hFound⟩
    have hNonroot : location ++ names ≠ [] := by
      simp [hSome]
    refine
      ⟨(location ++ names, .file content),
        List.mem_filter.mpr
          ⟨Tree.mem_nodes_of_find? hNonroot hFound,
            Tree.isBelow_iff.mpr ⟨names, hSome, rfl⟩⟩,
        ?_⟩
    dsimp only
    rw [List.drop_left]
    rfl

end Resolved

end Calls

end Storage

end ScriptWorkspace
