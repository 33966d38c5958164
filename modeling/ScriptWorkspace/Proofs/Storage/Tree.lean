import ScriptWorkspace.Storage.Calls

/-
  What putting and removing nodes does to a tree.

  A path leads through directories only. So two trees with
  the same directories agree on where a path leads to, and
  files can come and go without a path leading elsewhere.

  Main declarations:
    * `Tree.without`
    * `Tree.without_set`
    * `Tree.erase_set_self`
    * `Tree.SameDirectories`
    * `Tree.SameDirectories.resolve_eq_ok_iff`
-/

namespace ScriptWorkspace

namespace Storage

namespace Tree

variable {tree other : Tree}
variable {location place : Location}
variable {node : Node}

------------------------------------------------------------
-- Putting A Node
------------------------------------------------------------

theorem lookup_setNode_self
    (location : Location)
    (node : Node)
    (nodes : List (Location × Node)) :
    (setNode location node nodes).lookup location =
      some node := by
  induction nodes with
  | nil => simp [setNode]
  | cons entry nodes ih =>
      rcases entry with ⟨first, old⟩
      by_cases hFirst : first = location
      · simp [setNode, hFirst]
      · have hBeq : (location == first) = false :=
          beq_false_of_ne (Ne.symm hFirst)
        simp [setNode, hFirst, List.lookup_cons, hBeq, ih]

theorem lookup_setNode_of_ne
    {place location : Location}
    (hOther : place ≠ location)
    (node : Node)
    (nodes : List (Location × Node)) :
    (setNode location node nodes).lookup place =
      nodes.lookup place := by
  have hPlace : (place == location) = false :=
    beq_false_of_ne hOther
  induction nodes with
  | nil => simp [setNode, List.lookup_cons, hPlace]
  | cons entry nodes ih =>
      rcases entry with ⟨first, old⟩
      by_cases hFirst : first = location
      · simp [setNode, hFirst, List.lookup_cons, hPlace]
      · simp [setNode, hFirst, List.lookup_cons, ih]

theorem find?_set_self
    (tree : Tree)
    (node : Node)
    (hLocation : location ≠ []) :
    (tree.set location node).find? location = some node := by
  simp [find?, hLocation, set, lookup_setNode_self]

theorem find?_set_of_ne
    (tree : Tree)
    (node : Node)
    (hOther : place ≠ location) :
    (tree.set location node).find? place =
      tree.find? place := by
  simp [find?, set, lookup_setNode_of_ne hOther]

------------------------------------------------------------
-- Removing Nodes
------------------------------------------------------------

/- The tree without the nodes at some locations. -/
def without
    (locations : List Location)
    (tree : Tree) : Tree :=
  ⟨tree.nodes.filter fun entry =>
    !decide (entry.1 ∈ locations)⟩

theorem without_nil (tree : Tree) : tree.without [] = tree := by
  have hAll :
      tree.nodes.filter
          (fun entry => !decide (entry.1 ∈ [])) =
        tree.nodes :=
    List.filter_eq_self.mpr fun _ _ => by simp
  rw [without, hAll]

theorem erase_without
    (tree : Tree)
    (location : Location)
    (locations : List Location) :
    (tree.erase location).without locations =
      tree.without (location :: locations) := by
  simp only [without, erase, List.filter_filter, mk.injEq]
  refine List.filter_congr fun entry _ => ?_
  by_cases hPlace : entry.1 = location
  · simp [hPlace]
  · simp [hPlace]

/- Locations can be removed in any order. -/
theorem without_eq_of_mem_iff
    {locations others : List Location}
    (hSame :
      ∀ location, location ∈ locations ↔ location ∈ others)
    (tree : Tree) :
    tree.without locations = tree.without others := by
  simp only [without, mk.injEq]
  exact List.filter_congr fun entry _ => by simp [hSame]

theorem filter_setNode
    {locations : List Location}
    (hOther : location ∉ locations)
    (node : Node)
    (nodes : List (Location × Node)) :
    (setNode location node nodes).filter
        (fun entry => !decide (entry.1 ∈ locations)) =
      setNode location node
        (nodes.filter fun entry =>
          !decide (entry.1 ∈ locations)) := by
  induction nodes with
  | nil => simp [setNode, hOther]
  | cons entry nodes ih =>
      rcases entry with ⟨first, old⟩
      by_cases hFirst : first = location
      · subst hFirst
        simp [setNode, hOther]
      · by_cases hMem : first ∈ locations
        · simpa [setNode, hFirst, hMem] using ih
        · simpa [setNode, hFirst, hMem] using ih

/- A node elsewhere can be put before or after. -/
theorem without_set
    {locations : List Location}
    (hOther : location ∉ locations)
    (tree : Tree)
    (node : Node) :
    (tree.set location node).without locations =
      (tree.without locations).set location node := by
  simp only [without, set, mk.injEq]
  exact filter_setNode hOther node tree.nodes

/- There is no node of a tree at a location. -/
theorem ne_of_find?_eq_none
    (hNew : tree.find? location = none)
    {entry : Location × Node}
    (hMem : entry ∈ tree.nodes) :
    entry.1 ≠ location := by
  rintro rfl
  unfold find? at hNew
  split at hNew
  · cases hNew
  · have hAll := List.lookup_eq_none_iff.mp hNew entry hMem
    simp at hAll

/- A new node that is removed leaves nothing. -/
theorem erase_set_self
    (hNew : tree.find? location = none)
    (node : Node) :
    (tree.set location node).erase location = tree := by
  rcases tree with ⟨nodes⟩
  have hEntries :
      ∀ entry ∈ nodes, entry.1 ≠ location :=
    fun _ hMem => ne_of_find?_eq_none hNew hMem
  simp only [set, erase, mk.injEq]
  clear hNew
  induction nodes with
  | nil => simp [setNode]
  | cons entry nodes ih =>
      rcases List.forall_mem_cons.mp hEntries with
        ⟨hFirst, hRest⟩
      simpa [setNode, hFirst] using ih hRest

theorem lookup_filter
    {locations : List Location}
    (hOther : place ∉ locations)
    (nodes : List (Location × Node)) :
    (nodes.filter fun entry =>
        !decide (entry.1 ∈ locations)).lookup place =
      nodes.lookup place := by
  induction nodes with
  | nil => rfl
  | cons entry nodes ih =>
      rcases entry with ⟨first, node⟩
      by_cases hMem : first ∈ locations
      · have hBeq : (place == first) = false := by
          refine beq_false_of_ne ?_
          rintro rfl
          exact hOther hMem
        simpa [hMem, List.lookup_cons, hBeq] using ih
      · simp [hMem, List.lookup_cons, ih]

theorem find?_without
    (tree : Tree)
    {locations : List Location}
    (hOther : place ∉ locations) :
    (tree.without locations).find? place =
      tree.find? place := by
  simp [find?, without, lookup_filter hOther]

theorem find?_without_of_mem
    (tree : Tree)
    {locations : List Location}
    (hNonroot : place ≠ [])
    (hMem : place ∈ locations) :
    (tree.without locations).find? place = none := by
  simp only [find?, List.isEmpty_iff, hNonroot, without]
  refine List.lookup_eq_none_iff.mpr fun entry hEntry => ?_
  have hKept : entry.1 ∉ locations := by
    simpa using (List.mem_filter.mp hEntry).2
  have hOther : place ≠ entry.1 := by
    rintro rfl
    exact hKept hMem
  simpa using hOther

theorem erase_eq_without
    (tree : Tree)
    (location : Location) :
    tree.erase location = tree.without [location] := by
  rw [← without_nil (tree.erase location), erase_without]

------------------------------------------------------------
-- Following Paths
------------------------------------------------------------

/- A name leads on only from a directory. -/
theorem step_eq_ok_iff
    {name : OsText} :
    tree.step place name = .ok location ↔
      tree.find? place = some .directory ∧
        name.width ≤ maxNameWidth ∧
        (if name = parentName then place.dropLast
          else place ++ [name]) = location := by
  unfold step
  split
  · next hNode => simp [hNode]
  · next hNode => simp [hNode]
  · next hNode =>
      by_cases hWidth : name.width > maxNameWidth
      · have hNot : ¬ name.width ≤ maxNameWidth :=
          Nat.not_le.mpr hWidth
        simp [hWidth, hNot]
      · have hFits := Nat.not_lt.mp hWidth
        rw [if_neg hWidth]
        by_cases hParent : name = parentName
        · rw [if_pos hParent, if_pos hParent]
          simp [hNode, hFits]
        · rw [if_neg hParent, if_neg hParent]
          simp [hNode, hFits]

theorem foldlM_step_cons
    {name : OsText}
    {names : List OsText} :
    (name :: names).foldlM tree.step place = .ok location ↔
      ∃ next,
        tree.step place name = .ok next ∧
          names.foldlM tree.step next = .ok location := by
  rw [List.foldlM_cons]
  cases tree.step place name with
  | error kind => simp [bind, Except.bind]
  | ok next => simp [bind, Except.bind]

/- The two trees have the same directories. -/
def SameDirectories (tree other : Tree) : Prop :=
  ∀ location,
    tree.find? location = some .directory ↔
      other.find? location = some .directory

namespace SameDirectories

theorem symm
    (hSame : tree.SameDirectories other) :
    other.SameDirectories tree :=
  fun location => (hSame location).symm

theorem foldlM_step_eq_ok
    {names : List OsText}
    (hSame : tree.SameDirectories other)
    (hFound : names.foldlM tree.step place = .ok location) :
    names.foldlM other.step place = .ok location := by
  induction names generalizing place with
  | nil => exact hFound
  | cons name names ih =>
      rcases foldlM_step_cons.mp hFound with
        ⟨next, hStep, hRest⟩
      rcases step_eq_ok_iff.mp hStep with
        ⟨hDirectory, hWidth, hNext⟩
      have hOther : other.step place name = .ok next :=
        step_eq_ok_iff.mpr
          ⟨(hSame place).mp hDirectory, hWidth, hNext⟩
      exact foldlM_step_cons.mpr ⟨next, hOther, ih hRest⟩

/- A path leads to the same location in both. -/
theorem resolve_eq_ok_iff
    {path : Path}
    (hSame : tree.SameDirectories other) :
    tree.resolve place path = .ok location ↔
      other.resolve place path = .ok location :=
  ⟨fun hFound => hSame.foldlM_step_eq_ok hFound,
    fun hFound => hSame.symm.foldlM_step_eq_ok hFound⟩

end SameDirectories

/- Where there is no directory, a file can be put. -/
theorem sameDirectories_set
    {content : Content}
    (hOther : tree.find? location ≠ some .directory) :
    tree.SameDirectories
      (tree.set location (.file content)) := by
  intro place
  by_cases hPlace : place = location
  · subst hPlace
    have hNonroot : place ≠ [] := by
      rintro rfl
      exact hOther rfl
    simp [find?_set_self tree _ hNonroot, hOther]
  · rw [find?_set_of_ne tree _ hPlace]

/- What is no directory can be removed. -/
theorem sameDirectories_without
    {locations : List Location}
    (hOther :
      ∀ location ∈ locations,
        tree.find? location ≠ some .directory) :
    tree.SameDirectories (tree.without locations) := by
  intro place
  by_cases hPlace : place ∈ locations
  · have hNonroot : place ≠ [] := by
      rintro rfl
      exact hOther [] hPlace rfl
    simp [find?_without_of_mem tree hNonroot hPlace,
      hOther place hPlace]
  · rw [find?_without tree hPlace]

/- Names that lead down lead to where they say. -/
theorem eq_append_of_foldlM_step
    {names : List OsText}
    (hNames : parentName ∉ names)
    (hFound : names.foldlM tree.step place = .ok location) :
    location = place ++ names := by
  induction names generalizing place with
  | nil =>
      cases hFound
      exact (List.append_nil _).symm
  | cons name names ih =>
      rw [List.mem_cons, not_or] at hNames
      rcases foldlM_step_cons.mp hFound with
        ⟨next, hStep, hRest⟩
      rcases step_eq_ok_iff.mp hStep with ⟨_, _, hNext⟩
      rw [if_neg (Ne.symm hNames.1)] at hNext
      rw [ih hNames.2 hRest, ← hNext, List.append_assoc]
      rfl

theorem exists_step_of_foldlM_concat
    {names : List OsText}
    {name : OsText}
    (hFound :
      (names ++ [name]).foldlM tree.step place =
        .ok location) :
    ∃ parent, tree.step parent name = .ok location := by
  induction names generalizing place with
  | nil =>
      rcases foldlM_step_cons.mp hFound with
        ⟨next, hStep, hRest⟩
      cases hRest
      exact ⟨place, hStep⟩
  | cons first names ih =>
      rcases foldlM_step_cons.mp hFound with
        ⟨next, _, hRest⟩
      exact ih hRest

/- A path that ends in a name leads to a node of the name. -/
theorem exists_eq_append_name
    {path : Path}
    (hEnds : Calls.endsInName path = true)
    (hFound : tree.resolve place path = .ok location) :
    ∃ parent, location = parent ++ [path.name] := by
  rcases path with ⟨anchor, names⟩
  cases hLast : names.getLast? with
  | none => simp [Calls.endsInName, hLast] at hEnds
  | some name =>
      have hName : name ≠ parentName := by
        simpa [Calls.endsInName, hLast] using hEnds
      rcases List.getLast?_eq_some_iff.mp hLast with
        ⟨init, rfl⟩
      rcases exists_step_of_foldlM_concat hFound with
        ⟨parent, hStep⟩
      rcases step_eq_ok_iff.mp hStep with ⟨_, _, hNext⟩
      rw [if_neg hName] at hNext
      exact ⟨parent, by rw [← hNext, Path.name, hLast]; rfl⟩

end Tree

end Storage

end ScriptWorkspace
