import Mathlib.Data.List.Nodup
import ScriptWorkspace.Proofs.Storage.Tree

/-
  Writing files beside their places.

  A temporary file gets a number that is free, so it is new
  to its tree. Staged files can be removed again in any order
  and leave the tree as it was; that holds of all of them
  together, and is kept when one is added or taken away.

  Main declarations:
    * `Calls.temporaryName_injective`
    * `Calls.find?_freeNumber`
    * `Calls.exists_location_of_stage`
    * `Calls.IsStaging`
    * `Calls.IsStaging.cons`
    * `Calls.IsStaging.foldl_removeFile`
-/

namespace ScriptWorkspace

namespace Storage

namespace Calls

variable {tree : Tree}

------------------------------------------------------------
-- Temporary Names
------------------------------------------------------------

/- Zeros in front do not change a number. -/
theorem ofDigitChars_padZero (width n : Nat) :
    Nat.ofDigitChars 10 (Text.padZero width (Text.ofNat n)) 0 =
      n := by
  have hZeros (count : Nat) :
      Nat.ofDigitChars 10 (List.replicate count '0') 0 = 0 := by
    induction count with
    | zero => rfl
    | succ count ih =>
        rw [List.replicate_succ, Nat.ofDigitChars_cons]
        exact ih
  rw [Text.padZero, Nat.ofDigitChars_append, hZeros]
  exact Nat.ofDigitChars_toDigits (by decide) (by decide)

/- The number of a temporary file can be told by its name. -/
theorem temporaryName_injective
    {name : OsText}
    {m n : Nat}
    (hSame : temporaryName name m = temporaryName name n) :
    m = n := by
  have hNumbers := List.append_cancel_right hSame
  have hDotted := List.append_cancel_left hNumbers
  have hTexts := (List.cons.inj hDotted).2
  have hChars :
      Text.padZero 8 (Text.ofNat m) =
        Text.padZero 8 (Text.ofNat n) :=
    List.map_injective_iff.mpr
      (fun _ _ hChar => OsChar.char.inj hChar) hTexts
  rw [← ofDigitChars_padZero 8 m, hChars,
    ofDigitChars_padZero]

/- If no free number is found, all that were tried are used. -/
theorem freeNumber_cases
    (tree : Tree)
    (parent : Location)
    (name : OsText)
    (fuel start : Nat) :
    tree.find?
          (parent ++
            [temporaryName name
              (freeNumber tree parent name fuel start)]) =
        none ∨
      ∀ k < fuel,
        (tree.find?
            (parent ++
              [temporaryName name (start + k)])).isSome := by
  induction fuel generalizing start with
  | zero => exact .inr fun k hk => absurd hk (Nat.not_lt_zero k)
  | succ fuel ih =>
      unfold freeNumber
      split
      · next hUsed =>
          rcases ih (start + 1) with hFree | hAll
          · exact .inl hFree
          · refine .inr fun k hk => ?_
            cases k with
            | zero => exact hUsed
            | succ k =>
                have hNext := hAll k (Nat.lt_of_succ_lt_succ hk)
                rwa [Nat.add_assoc, Nat.add_comm 1 k] at hNext
      · next hFree =>
          exact .inl (Option.not_isSome_iff_eq_none.mp hFree)

/- What is found below the root of a tree is a node of it. -/
theorem mem_locations_of_find?
    {location : Location}
    (hNonroot : location ≠ [])
    (hFound : (tree.find? location).isSome) :
    location ∈ tree.nodes.map Prod.fst := by
  by_contra hNot
  have hNone : tree.nodes.lookup location = none := by
    refine List.lookup_eq_none_iff.mpr fun entry hMem => ?_
    have hOther : location ≠ entry.1 := by
      rintro rfl
      exact hNot (List.mem_map_of_mem hMem)
    simpa using hOther
  simp [Tree.find?, hNonroot, hNone] at hFound

/- There are more numbers than nodes, so a free one is found. -/
theorem find?_freeNumber
    (tree : Tree)
    (parent : Location)
    (name : OsText) :
    tree.find?
        (parent ++
          [temporaryName name
            (freeNumber tree parent name
              (tree.nodes.length + 1) 0)]) =
      none := by
  rcases freeNumber_cases tree parent name
      (tree.nodes.length + 1) 0 with hFree | hAll
  · exact hFree
  -- Else more names than there are nodes would be in use.
  · let tried : List Location :=
      (List.range (tree.nodes.length + 1)).map fun k =>
        parent ++ [temporaryName name k]
    have hNodup : tried.Nodup := by
      refine List.Nodup.map ?_ List.nodup_range
      intro m n hSame
      have hNames := List.append_cancel_left hSame
      exact temporaryName_injective (List.cons.inj hNames).1
    have hSubset : tried ⊆ tree.nodes.map Prod.fst := by
      intro location hMem
      rcases List.mem_map.mp hMem with ⟨k, hk, rfl⟩
      have hUsed := hAll k (List.mem_range.mp hk)
      rw [Nat.zero_add] at hUsed
      exact mem_locations_of_find? (by simp) hUsed
    have hLength := hNodup.length_le_of_subset hSubset
    simp only [tried, List.length_map, List.length_range]
      at hLength
    exact absurd hLength (Nat.not_succ_le_self _)

------------------------------------------------------------
-- One File
------------------------------------------------------------

/- A spelled location has no name that leads back. -/
theorem parentName_not_mem_plainNames
    {done : List OsText}
    (hDone : Tree.parentName ∉ done)
    (names : List OsText) :
    Tree.parentName ∉ plainNames done names := by
  induction names generalizing done with
  | nil => exact hDone
  | cons name names ih =>
      unfold plainNames
      split
      · exact ih fun hMem => hDone (List.dropLast_subset _ hMem)
      · next hName =>
          refine ih fun hMem => ?_
          rcases List.mem_append.mp hMem with hMem | hMem
          · exact hDone hMem
          · exact hName (List.mem_singleton.mp hMem).symm

theorem parentName_not_mem_spelledLocation
    {place : Location}
    (hPlace : Tree.parentName ∉ place)
    (path : Path) :
    Tree.parentName ∉ spelledLocation place path := by
  unfold spelledLocation
  split
  · exact
      parentName_not_mem_plainNames List.not_mem_nil path.names
  · exact parentName_not_mem_plainNames hPlace path.names

theorem temporaryName_ne_parentName (name : OsText) (n : Nat) :
    temporaryName name n ≠ Tree.parentName := by
  intro hSame
  have hLength := congrArg List.length hSame
  simp [temporaryName, Tree.parentName] at hLength
  omega

/- A location that is named for a temporary file of a name. -/
def IsTemporaryFor
    (name : OsText)
    (location : Location) : Prop :=
  ∃ parent n, location = parent ++ [temporaryName name n]

/- A file is staged by writing one under the free name. -/
theorem writeFile_of_stage
    {place : Location}
    {path temporary : Path}
    {content : Content}
    {written : Tree}
    (hStage :
      stage tree place path content =
        .ok (written, temporary)) :
    temporary =
        { anchor := .root
          names :=
            spelledLocation place path.parent ++
              [temporaryName path.name
                (freeNumber tree
                  (spelledLocation place path.parent)
                  path.name (tree.nodes.length + 1) 0)] } ∧
      writeFile tree place temporary content =
        .ok written := by
  simp only [stage] at hStage
  split at hStage
  · next hWrite =>
      cases hStage
      exact ⟨rfl, hWrite⟩
  · cases hStage

/- A file is staged at a new location, named for its path. -/
theorem exists_location_of_stage
    {place : Location}
    {path temporary : Path}
    {content : Content}
    {written : Tree}
    (hPlace : Tree.parentName ∉ place)
    (hStage :
      stage tree place path content =
        .ok (written, temporary)) :
    ∃ location,
      tree.resolve place temporary = .ok location ∧
        tree.find? location = none ∧
        IsTemporaryFor path.name location ∧
        written = tree.set location (.file content) := by
  let parent := spelledLocation place path.parent
  let number :=
    freeNumber tree parent path.name (tree.nodes.length + 1) 0
  let names := parent ++ [temporaryName path.name number]
  have hNames : Tree.parentName ∉ names := by
    intro hMem
    rcases List.mem_append.mp hMem with hMem | hMem
    · exact
        parentName_not_mem_spelledLocation hPlace path.parent
          hMem
    · exact
        temporaryName_ne_parentName _ _
          (List.mem_singleton.mp hMem).symm
  have hFree : tree.find? names = none :=
    find?_freeNumber tree parent path.name
  rcases writeFile_of_stage hStage with ⟨rfl, hWrite⟩
  change
    writeFile tree place { anchor := .root, names } content =
      .ok written at hWrite
  unfold writeFile at hWrite
  cases hResolve :
      tree.resolve place { anchor := .root, names } with
  | error kind =>
      rw [hResolve] at hWrite
      cases hWrite
  | ok location =>
      -- No name leads back, so the path is followed as spelled.
      have hFollow :
          names.foldlM tree.step [] = .ok location :=
        hResolve
      have hLocation : location = [] ++ names :=
        Tree.eq_append_of_foldlM_step hNames hFollow
      rw [List.nil_append] at hLocation
      subst hLocation
      simp only [hResolve, hFree] at hWrite
      cases hWrite
      exact ⟨names, rfl, hFree, ⟨parent, number, rfl⟩, rfl⟩

------------------------------------------------------------
-- Several Files
------------------------------------------------------------

/- A file that is staged for a path. -/
structure StagedFile where
  path : Path
  content : Content
  temporary : Path
  location : Location

/-
  Files are staged on top of a tree: each is found under its
  temporary path, and without them the tree is as it was.
-/
structure IsStaging
    (place : Location)
    (base : Tree)
    (files : List StagedFile)
    (tree : Tree) : Prop where
  base_eq : tree.without (files.map (·.location)) = base
  distinct : (files.map (·.location)).Nodup
  found :
    ∀ file ∈ files,
      tree.find? file.location = some (.file file.content)
  resolved :
    ∀ file ∈ files,
      tree.resolve place file.temporary = .ok file.location
  named :
    ∀ file ∈ files,
      IsTemporaryFor file.path.name file.location

namespace IsStaging

variable {place : Location}
variable {base : Tree}
variable {files : List StagedFile}

theorem nil (place : Location) (tree : Tree) :
    IsStaging place tree [] tree where
  base_eq := tree.without_nil
  distinct := List.nodup_nil
  found := List.forall_mem_nil _
  resolved := List.forall_mem_nil _
  named := List.forall_mem_nil _

/- Staging adds no directory. -/
theorem sameDirectories
    (hStaging : IsStaging place base files tree) :
    tree.SameDirectories base := by
  rw [← hStaging.base_eq]
  refine Tree.sameDirectories_without fun location hMem => ?_
  rcases List.mem_map.mp hMem with ⟨file, hFile, rfl⟩
  rw [hStaging.found file hFile]
  exact fun hSame => by cases hSame

theorem reverse
    (hStaging : IsStaging place base files tree) :
    IsStaging place base files.reverse tree where
  base_eq := by
    rw [← hStaging.base_eq]
    refine Tree.without_eq_of_mem_iff (fun location => ?_) tree
    rw [List.map_reverse, List.mem_reverse]
  distinct := by
    rw [List.map_reverse]
    exact List.nodup_reverse.mpr hStaging.distinct
  found := fun file hMem =>
    hStaging.found file (List.mem_reverse.mp hMem)
  resolved := fun file hMem =>
    hStaging.resolved file (List.mem_reverse.mp hMem)
  named := fun file hMem =>
    hStaging.named file (List.mem_reverse.mp hMem)

/- One more file is staged. -/
theorem cons
    {path temporary : Path}
    {content : Content}
    {written : Tree}
    (hStaging : IsStaging place base files tree)
    (hPlace : Tree.parentName ∉ place)
    (hStage :
      stage tree place path content =
        .ok (written, temporary)) :
    ∃ location,
      IsStaging place base
        ({ path, content, temporary, location } :: files)
        written := by
  rcases exists_location_of_stage hPlace hStage with
    ⟨location, hResolve, hFree, hNamed, rfl⟩
  have hNew : location ∉ files.map (·.location) := by
    intro hMem
    rcases List.mem_map.mp hMem with ⟨file, hFile, rfl⟩
    rw [hStaging.found file hFile] at hFree
    cases hFree
  have hNonroot : location ≠ [] := by
    rintro rfl
    cases hFree
  have hSame :
      tree.SameDirectories
        (tree.set location (.file content)) :=
    Tree.sameDirectories_set (by simp [hFree])
  refine ⟨location, ?_⟩
  constructor
  case base_eq =>
    rw [List.map_cons, ← Tree.erase_without,
      Tree.erase_set_self hFree, hStaging.base_eq]
  case distinct =>
    exact List.nodup_cons.mpr ⟨hNew, hStaging.distinct⟩
  case found =>
    intro file hMem
    rcases List.mem_cons.mp hMem with rfl | hIn
    · exact Tree.find?_set_self tree _ hNonroot
    · have hOther : file.location ≠ location := by
        rintro rfl
        exact hNew (List.mem_map_of_mem hIn)
      rw [Tree.find?_set_of_ne tree _ hOther]
      exact hStaging.found file hIn
  case resolved =>
    intro file hMem
    rcases List.mem_cons.mp hMem with rfl | hMem
    · exact hSame.resolve_eq_ok_iff.mp hResolve
    · exact
        hSame.resolve_eq_ok_iff.mp
          (hStaging.resolved file hMem)
  case named =>
    intro file hMem
    rcases List.mem_cons.mp hMem with rfl | hMem
    · exact hNamed
    · exact hStaging.named file hMem

/- A staged file that is removed. -/
theorem tail
    {file : StagedFile}
    (hStaging : IsStaging place base (file :: files) tree) :
    IsStaging place base files (tree.erase file.location) := by
  have hDistinct := List.nodup_cons.mp hStaging.distinct
  have hOther :
      ∀ other ∈ files, other.location ≠ file.location := by
    intro other hMem hSame
    exact hDistinct.1 (List.mem_map.mpr ⟨other, hMem, hSame⟩)
  have hFile := hStaging.found file List.mem_cons_self
  have hSame :
      tree.SameDirectories (tree.erase file.location) := by
    rw [Tree.erase_eq_without]
    refine Tree.sameDirectories_without fun location hMem => ?_
    rw [List.mem_singleton.mp hMem, hFile]
    exact fun hSame => by cases hSame
  constructor
  case base_eq =>
    rw [Tree.erase_without]
    exact hStaging.base_eq
  case distinct => exact hDistinct.2
  case found =>
    intro other hMem
    rw [Tree.erase_eq_without,
      Tree.find?_without tree
        (by simpa using hOther other hMem)]
    exact hStaging.found other (List.mem_cons_of_mem _ hMem)
  case resolved =>
    intro other hMem
    exact
      hSame.resolve_eq_ok_iff.mp
        (hStaging.resolved other (List.mem_cons_of_mem _ hMem))
  case named =>
    intro other hMem
    exact hStaging.named other (List.mem_cons_of_mem _ hMem)

/- Without the staged files the tree is what it was. -/
theorem foldl_removeFile
    (hStaging : IsStaging place base files tree) :
    files.foldl
        (fun tree file => removeFile tree place file.temporary)
        tree =
      base := by
  induction files generalizing tree with
  | nil =>
      rw [← hStaging.base_eq]
      exact (tree.without_nil).symm
  | cons file files ih =>
      have hRemove :
          removeFile tree place file.temporary =
            tree.erase file.location := by
        rw [removeFile,
          hStaging.resolved file List.mem_cons_self]
      rw [List.foldl_cons, hRemove]
      exact ih hStaging.tail

/- A file that is put elsewhere leaves what is staged. -/
theorem set
    {goal : Location}
    (hStaging : IsStaging place base files tree)
    (hFile : tree.find? goal ≠ some .directory)
    (hOther : goal ∉ files.map (·.location))
    (content : Content) :
    IsStaging place (base.set goal (.file content)) files
      (tree.set goal (.file content)) where
  base_eq := by
    rw [Tree.without_set hOther, hStaging.base_eq]
  distinct := hStaging.distinct
  found := by
    intro file hMem
    have hPlace : file.location ≠ goal := by
      rintro rfl
      exact hOther (List.mem_map_of_mem hMem)
    rw [Tree.find?_set_of_ne tree _ hPlace]
    exact hStaging.found file hMem
  resolved := by
    intro file hMem
    exact
      (Tree.sameDirectories_set hFile).resolve_eq_ok_iff.mp
        (hStaging.resolved file hMem)
  named := hStaging.named

end IsStaging

end Calls

end Storage

end ScriptWorkspace
