import ScriptWorkspace.Proofs.Storage.Growth
import ScriptWorkspace.Proofs.Storage.Moving

/-
  Changes of a tree that stay within a region.

  A region says where files may be changed and where new
  directories may be made. Elsewhere all is as it was. Files
  are put where their paths say, and directories are made only
  along a path. What is removed brings no file with it.

  Main declarations:
    * `Storage.Region`
    * `Tree.ChangesWithin`
    * `Calls.changesWithin_makeDirectories`
    * `Calls.changesWithin_putFiles`
    * `Tree.KeepsFile`
    * `Calls.keepsFile_removeTree`
-/

namespace ScriptWorkspace

/- The path of the first names of a path. -/
def Path.upTo (path : Path) (n : Nat) : Path :=
  { path with names := path.names.take n }

theorem Path.upTo_length (path : Path) :
    path.upTo path.names.length = path := by
  simp [upTo]

theorem Path.upTo_parent (path : Path) (n : Nat) :
    path.parent.upTo n =
      path.upTo (min n (path.names.length - 1)) := by
  simp [upTo, parent, List.dropLast_eq_take, List.take_take]

namespace Storage

/- Where files may change, and where directories may be made. -/
structure Region where
  files : Location → Prop
  directories : Location → Prop

variable {tree other later : Tree}
variable {region : Region}
variable {location place : Location}

------------------------------------------------------------
-- Regions
------------------------------------------------------------

namespace Tree

/- Outside of the region there are new directories at most. -/
def ChangesWithin
    (region : Region)
    (tree other : Tree) : Prop :=
  ∀ location,
    ¬ region.files location →
      other.find? location = tree.find? location ∨
        region.directories location ∧
          tree.find? location = none ∧
            other.find? location = some .directory

namespace ChangesWithin

theorem refl (region : Region) (tree : Tree) :
    tree.ChangesWithin region tree :=
  fun _ _ => .inl rfl

theorem trans
    (hFront : tree.ChangesWithin region other)
    (hBack : other.ChangesWithin region later) :
    tree.ChangesWithin region later := by
  intro location hOutside
  rcases hFront location hOutside with
    hSame | ⟨hMade, hNone, hDirectory⟩
  · rw [← hSame]
    exact hBack location hOutside
  · right
    refine ⟨hMade, hNone, ?_⟩
    rcases hBack location hOutside with
      hKept | ⟨_, hMissing, _⟩
    · rw [hKept, hDirectory]
    · rw [hDirectory] at hMissing
      cases hMissing

theorem of_eq
    (hSame : other = tree) :
    tree.ChangesWithin region other := by
  rw [hSame]
  exact refl region tree

/- A region with more files to be changed. -/
theorem mono
    {files : Location → Prop}
    (hFiles :
      ∀ location, region.files location → files location)
    (hChanges : tree.ChangesWithin region other) :
    tree.ChangesWithin { region with files } other :=
  fun location hOutside =>
    hChanges location fun hInside =>
      hOutside (hFiles location hInside)

/- A region that reaches further in every way. -/
theorem widen
    {wide : Region}
    (hFiles :
      ∀ location, region.files location → wide.files location)
    (hDirectories :
      ∀ location,
        region.directories location →
          wide.directories location)
    (hChanges : tree.ChangesWithin region other) :
    tree.ChangesWithin wide other := by
  intro location hOutside
  rcases hChanges location fun hInside =>
      hOutside (hFiles location hInside) with
    hSame | ⟨hMade, hRest⟩
  · exact .inl hSame
  · exact .inr ⟨hDirectories location hMade, hRest⟩

/- A file that is there outside of the region is kept. -/
theorem find?_of_file
    {content : Content}
    (hOutside : ¬ region.files location)
    (hFound : tree.find? location = some (.file content))
    (hChanges : tree.ChangesWithin region other) :
    other.find? location = some (.file content) := by
  rcases hChanges location hOutside with
    hSame | ⟨_, hNone, _⟩
  · rw [hSame, hFound]
  · rw [hFound] at hNone
    cases hNone

/- If no file may be changed, then directories are made. -/
theorem gainsDirectories
    (hFiles : ∀ location, ¬ region.files location)
    (hChanges : tree.ChangesWithin region other) :
    tree.GainsDirectories other := by
  constructor
  case kept =>
    intro location node hFound
    rcases hChanges location (hFiles location) with
      hSame | ⟨_, hNone, _⟩
    · rw [hSame]
      exact hFound
    · rw [hNone] at hFound
      cases hFound
  case gained =>
    intro location node hFound
    rcases hChanges location (hFiles location) with
      hSame | ⟨_, _, hDirectory⟩
    · left
      rw [← hSame]
      exact hFound
    · right
      rw [hDirectory] at hFound
      cases hFound
      rfl

end ChangesWithin

theorem changesWithin_set
    (node : Node)
    (hInside : region.files location) :
    tree.ChangesWithin region (tree.set location node) := by
  intro place hOutside
  have hOther : place ≠ location := by
    rintro rfl
    exact hOutside hInside
  exact .inl (find?_set_of_ne tree node hOther)

theorem changesWithin_set_directory
    (hMade : region.directories location)
    (hNew : tree.find? location = none) :
    tree.ChangesWithin region
      (tree.set location .directory) := by
  have hNonroot : location ≠ [] := by
    rintro rfl
    cases hNew
  intro place hOutside
  by_cases hPlace : place = location
  · subst hPlace
    exact .inr ⟨hMade, hNew, find?_set_self tree _ hNonroot⟩
  · exact .inl (find?_set_of_ne tree _ hPlace)

end Tree

------------------------------------------------------------
-- Directories Along A Path
------------------------------------------------------------

namespace Calls

theorem changesWithin_makeDirectory
    {path : Path}
    {made : Tree}
    (hPath : region.directories (spelledLocation place path))
    (hMade : makeDirectory tree place path = .ok made) :
    tree.ChangesWithin region made := by
  unfold makeDirectory at hMade
  split at hMade
  case h_1 => cases hMade
  case h_2 location hResolved =>
    split at hMade
    case isTrue => cases hMade
    case isFalse hFree =>
      rw [Bool.or_eq_true, not_or] at hFree
      cases hMade
      rw [← spelledLocation_of_resolve hResolved] at hPath
      exact
        Tree.changesWithin_set_directory hPath
          (Option.not_isSome_iff_eq_none.mp hFree.2)

/- Every directory that is made is on the way to the path. -/
theorem changesWithin_makeDirectoriesFrom
    (fuel : Nat)
    (tree : Tree)
    (path : Path)
    (earlier : List StorageFault)
    (hPath :
      ∀ n,
        region.directories
          (spelledLocation place (path.upTo n))) :
    tree.ChangesWithin region
      (makeDirectoriesFrom place fuel tree path earlier).1 := by
  have hUnless
      (tree : Tree)
      (path : Path)
      (faults : List StorageFault) :
      (unlessDirectory tree place path faults).1 = tree := by
    unfold unlessDirectory
    split
    · rfl
    · rfl
  induction fuel generalizing tree path earlier with
  | zero => exact .refl region tree
  | succ fuel ih =>
      have hWhole := hPath path.names.length
      rw [path.upTo_length] at hWhole
      unfold makeDirectoriesFrom
      split
      case h_1 made hMade =>
        exact changesWithin_makeDirectory hWhole hMade
      case h_2 fault hFault =>
        split
        case isFalse =>
          rw [hUnless]
          exact .refl region tree
        case isTrue =>
          split
          case isTrue => exact .refl region tree
          case isFalse =>
            -- The directories above are made first.
            have hAbove :=
              ih tree path.parent (fault :: earlier)
                fun n => by
                  rw [path.upTo_parent]
                  exact hPath _
            split
            case h_1 between hBetween =>
              rw [hBetween] at hAbove
              split
              case h_1 made hMade =>
                exact
                  hAbove.trans
                    (changesWithin_makeDirectory hWhole hMade)
              case h_2 =>
                dsimp only
                split
                case isTrue => exact hAbove
                case isFalse =>
                  rw [hUnless]
                  exact hAbove
            case h_2 => exact hAbove

theorem changesWithin_makeDirectories
    {path : Path}
    (tree : Tree)
    (hPath :
      ∀ n,
        region.directories
          (spelledLocation place (path.upTo n))) :
    tree.ChangesWithin region
      (makeDirectories tree place path).1 :=
  changesWithin_makeDirectoriesFrom _ tree path [] hPath

/- The directories on the way to a directory are there. -/
theorem find?_upTo_of_resolve
    {path : Path}
    (hResolved : tree.resolve place path = .ok location)
    (hNode : tree.find? location = some .directory)
    (n : Nat) :
    tree.find? (spelledLocation place (path.upTo n)) =
      some .directory := by
  have hNames :
      path.names = (path.upTo n).names ++ path.names.drop n :=
    (List.take_append_drop n path.names).symm
  have hAbsolute :
      (path.upTo n).isAbsolute = path.isAbsolute :=
    rfl
  unfold Tree.resolve at hResolved
  rw [hNames, List.foldlM_append] at hResolved
  cases hFirst : tree.resolve place (path.upTo n) with
  | error kind =>
      unfold Tree.resolve at hFirst
      rw [hAbsolute] at hFirst
      rw [hFirst] at hResolved
      cases hResolved
  | ok next =>
      rw [← spelledLocation_of_resolve hFirst]
      unfold Tree.resolve at hFirst
      rw [hAbsolute] at hFirst
      rw [hFirst] at hResolved
      have hRest :
          (path.names.drop n).foldlM tree.step next =
            .ok location :=
        hResolved
      cases hDrop : path.names.drop n with
      | nil =>
          rw [hDrop] at hRest
          cases hRest
          exact hNode
      | cons name names =>
          rw [hDrop] at hRest
          rcases Tree.foldlM_step_cons.mp hRest with
            ⟨_, hStep, _⟩
          exact (Tree.step_eq_ok_iff.mp hStep).1

------------------------------------------------------------
-- Files
------------------------------------------------------------

/- Files are put where their paths say. -/
theorem changesWithin_putFiles
    {files : List (Path × Content)}
    (hTaken :
      ∀ file ∈ files,
        ∃ goal, Takes tree place file.1 goal)
    (hFiles :
      ∀ file ∈ files,
        region.files (spelledLocation place file.1)) :
    tree.ChangesWithin region (putFiles place files tree) := by
  intro location hOutside
  refine .inl (find?_putFiles_of_ne fun file hMem => ?_)
  rcases hTaken file hMem with ⟨goal, hTakes⟩
  refine ⟨goal, hTakes, ?_⟩
  rintro rfl
  rw [spelledLocation_of_resolve hTakes.resolved] at hOutside
  exact hOutside (hFiles file hMem)

end Calls

------------------------------------------------------------
-- A File That Is Kept
------------------------------------------------------------

namespace Tree

/- A file at the location is the one that was there before. -/
def KeepsFile
    (location : Location)
    (tree other : Tree) : Prop :=
  ∀ content,
    other.find? location = some (.file content) →
      tree.find? location = some (.file content)

theorem KeepsFile.trans
    (hFront : tree.KeepsFile location other)
    (hBack : other.KeepsFile location later) :
    tree.KeepsFile location later :=
  fun content hFound => hFront content (hBack content hFound)

/- A file outside of what is changed is kept. -/
theorem ChangesWithin.keepsFile
    (hChanges : tree.ChangesWithin region other)
    (hOutside : ¬ region.files location) :
    tree.KeepsFile location other := by
  intro content hFound
  rcases hChanges location hOutside with
    hSame | ⟨_, _, hDirectory⟩
  · rw [← hSame]
    exact hFound
  · rw [hDirectory] at hFound
    cases hFound

theorem keepsFile_without
    (tree : Tree)
    (locations : List Location) :
    tree.KeepsFile location (tree.without locations) := by
  intro content hFound
  by_cases hMem : location ∈ locations
  · have hNonroot : location ≠ [] := by
      rintro rfl
      cases hFound
    rw [find?_without_of_mem tree hNonroot hMem] at hFound
    cases hFound
  · rw [find?_without tree hMem] at hFound
    exact hFound

theorem eraseBelow_eq_without
    (tree : Tree)
    (directory : Location) :
    tree.eraseBelow directory =
      tree.without ((tree.below directory).map Prod.fst) := by
  have hIff
      {entry : Location × Node}
      (hEntry : entry ∈ tree.nodes) :
      entry.1 ∈ (tree.below directory).map Prod.fst ↔
        isBelow directory entry.1 = true := by
    constructor
    · intro hMem
      rcases List.mem_map.mp hMem with ⟨found, hFound, hSame⟩
      rw [← hSame]
      exact (List.mem_filter.mp hFound).2
    · intro hBelow
      exact
        List.mem_map_of_mem
          (List.mem_filter.mpr ⟨hEntry, hBelow⟩)
  rw [eraseBelow, without, mk.injEq]
  refine List.filter_congr fun entry hEntry => ?_
  simp [hIff hEntry]

end Tree

namespace Calls

/- Removing a directory brings no file, whatever comes of it. -/
theorem keepsFile_removeTree
    (tree : Tree)
    (place : Location)
    (path : Path) :
    tree.KeepsFile location (removeTree tree place path).1 := by
  have hRefl (tree : Tree) : tree.KeepsFile location tree :=
    fun _ hFound => hFound
  have hErased
      {tree removed : Tree}
      (hRemoved :
        removeDirectory tree place path = .ok removed) :
      tree.KeepsFile location removed := by
    unfold removeDirectory at hRemoved
    split at hRemoved
    case h_1 => cases hRemoved
    case h_2 start hResolved =>
      split at hRemoved
      case isTrue => cases hRemoved
      case isFalse =>
        split at hRemoved
        case isTrue => cases hRemoved
        case isFalse =>
          cases hRemoved
          rw [Tree.erase_eq_without]
          exact tree.keepsFile_without _
  unfold removeTree
  split
  case h_1 => exact hRefl tree
  case h_2 start hResolved =>
    split
    case h_1 => exact hRefl tree
    case h_2 => exact hRefl tree
    case h_3 =>
      have hEmptied :
          tree.KeepsFile location (tree.eraseBelow start) := by
        rw [Tree.eraseBelow_eq_without]
        exact tree.keepsFile_without _
      dsimp only
      split
      case h_1 removed hRemoved =>
        exact hEmptied.trans (hErased hRemoved)
      case h_2 => exact hEmptied

end Calls

end Storage

end ScriptWorkspace
