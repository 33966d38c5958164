import ScriptWorkspace.Proofs.Toml.Changes

/-
  What a change does to the members of an inline table.

  A key that gets a value in an inline table has that value,
  and every other key has what it had before, as long as no
  two keys of the table clash. They do not clash afterwards
  either.

  Main declarations:
    * `Layout.Member.IsApart`
    * `Layout.find?_membersTable_pair`
    * `Layout.HasMember`
    * `Layout.hasMember_lookupMember`
    * `Layout.HasPut`
    * `Layout.hasPut_setMember`
-/

namespace ScriptWorkspace

namespace Toml

namespace Layout

------------------------------------------------------------
-- Members That Are Apart
------------------------------------------------------------

/- Two members of an inline table whose keys do not clash. -/
def Member.IsApart : Member → Member → Prop
  | .pair (label :: labels) _ _ _,
      .pair (other :: others) _ _ _ =>
    keysClash (label :: labels) (other :: others) = false
  | _, _ => True

/- A member as it counts in the table of its members. -/
def putMember (table : Table) : Member → Table
  | .blank _ => table
  | .pair labels _ _ cell =>
    putAt cell.value (labels.map Label.name) table

theorem membersTable_eq_foldl (members : List Member) :
    membersTable members = members.foldl putMember [] := by
  rfl

/- A value put at a key counts for the first name of it. -/
theorem find?_putAt_of_ne
    {name : Text}
    {names : List Text}
    (value : Toml)
    (table : Table)
    (hNames : names.head? ≠ some name) :
    find? name (putAt value names table) =
      find? name table := by
  rcases names with _ | ⟨first, _ | ⟨second, names⟩⟩
  · rfl
  · rw [putAt, find?_put, if_neg]
    rintro rfl
    exact hNames rfl
  · rw [putAt, find?_put, if_neg]
    · rintro rfl
      exact hNames rfl
    · exact List.cons_ne_nil _ _

theorem find?_putMember_of_not_named
    {name : Text}
    {member : Member}
    (table : Table)
    (hNamed : member.isNamed name = false) :
    find? name (putMember table member) =
      find? name table := by
  cases member with
  | blank text => rfl
  | pair labels indent separator cell =>
      refine find?_putAt_of_ne _ _ ?_
      cases labels with
      | nil => exact nofun
      | cons label labels =>
          simpa [Member.isNamed] using hNamed

/- Members of other names leave what was there. -/
theorem find?_foldl_putMember
    {name : Text}
    {members : List Member}
    (table : Table)
    (hMembers :
      ∀ member ∈ members, member.isNamed name = false) :
    find? name (members.foldl putMember table) =
      find? name table := by
  induction members generalizing table with
  | nil => rfl
  | cons member members ih =>
      rcases List.forall_mem_cons.mp hMembers with
        ⟨hMember, hRest⟩
      rw [List.foldl_cons, ih _ hRest,
        find?_putMember_of_not_named table hMember]

/- What a name has after a member depends on what it had. -/
theorem find?_putMember_congr
    {name : Text}
    (member : Member)
    {table other : Table}
    (hTables : find? name table = find? name other) :
    find? name (putMember table member) =
      find? name (putMember other member) := by
  rcases member with
    text | ⟨_ | ⟨first, _ | ⟨second, rest⟩⟩, _, _, cell⟩
  · exact hTables
  · exact hTables
  · simp only [putMember, List.map_cons, List.map_nil, putAt,
      find?_put, hTables]
  · simp only [putMember, List.map_cons, putAt, find?_put]
    split
    case isTrue hName => rw [← hName, hTables]
    case isFalse => exact hTables

theorem find?_foldl_putMember_congr
    {name : Text}
    (members : List Member)
    {table other : Table}
    (hTables : find? name table = find? name other) :
    find? name (members.foldl putMember table) =
      find? name (members.foldl putMember other) := by
  induction members generalizing table other with
  | nil => exact hTables
  | cons member members ih =>
      exact ih (find?_putMember_congr member hTables)

/- The pair of a key of one name. -/
def IsPairOf (key : Text) (cell : Cell) (member : Member) : Prop :=
  ∃ label indent separator,
    label.name = key ∧
      member = .pair [label] indent separator cell

theorem find?_putMember_pair
    {key : Text}
    {cell : Cell}
    {member : Member}
    (hPair : IsPairOf key cell member)
    (name : Text)
    (table : Table) :
    find? name (putMember table member) =
      if name = key then some cell.value
      else find? name table := by
  rcases hPair with ⟨label, indent, separator, rfl, rfl⟩
  exact find?_put label.name name cell.value table

/- A pair among members that are not named like it. -/
theorem find?_membersTable_pair
    {key : Text}
    {cell : Cell}
    {member : Member}
    {before after : List Member}
    (hPair : IsPairOf key cell member)
    (hAfter :
      ∀ other ∈ after, other.isNamed key = false)
    (name : Text) :
    find? name (membersTable (before ++ member :: after)) =
      if name = key then some cell.value
      else find? name (membersTable (before ++ after)) := by
  rw [membersTable_eq_foldl, membersTable_eq_foldl,
    List.foldl_append, List.foldl_append, List.foldl_cons]
  by_cases hName : name = key
  · subst hName
    rw [find?_foldl_putMember _ hAfter,
      find?_putMember_pair hPair, if_pos rfl, if_pos rfl]
  · rw [if_neg hName]
    refine find?_foldl_putMember_congr after ?_
    rw [find?_putMember_pair hPair, if_neg hName]

------------------------------------------------------------
-- Members Of One Name
------------------------------------------------------------

/- The part of a member that a name leaves of its key. -/
def Member.under? (name : Text) : Member → Option Member
  | .pair (label :: labels) indent separator cell =>
    if label.name = name then
      some (.pair labels indent separator cell)
    else
      none
  | _ => none

theorem Member.under?_eq_none_iff
    {name : Text}
    {member : Member} :
    member.under? name = none ↔
      member.isNamed name = false := by
  rcases member with text | ⟨_ | ⟨label, labels⟩, _, _, cell⟩
  · simp [Member.under?, Member.isNamed]
  · simp [Member.under?, Member.isNamed]
  · simp [Member.under?, Member.isNamed]

/- What a name leads to is told by what it leaves of keys. -/
theorem lookupMember_eq
    (name : Text)
    (members : List Member) :
    lookupMember name members =
      let under := members.filterMap (Member.under? name)
      match under with
      | [] => .missing
      | .pair [] _ _ content :: _ => .cell content
      | _ => .inline under := by
  have hUnder :
      Member.under? name =
        fun member =>
          match member with
          | .pair (label :: labels) indent separator content =>
            if label.name = name then
              some (Member.pair labels indent separator content)
            else
              none
          | _ => none := by
    funext member
    rcases member with text | ⟨_ | ⟨label, labels⟩, _, _, cell⟩
      <;> rfl
  rw [hUnder]
  rfl

/- How an inline table has a key that is no table. -/
inductive HasMember (name : Text) (members : List Member) :
    Target → Prop
  | missing
      (hMembers :
        ∀ member ∈ members, member.isNamed name = false) :
      HasMember name members .missing
  | cell
      {before after : List Member}
      {member : Member}
      {cell : Cell}
      (hMembers : members = before ++ member :: after)
      (hPair : IsPairOf name cell member)
      (hOthers :
        ∀ other ∈ before ++ after,
          other.isNamed name = false) :
      HasMember name members (.cell cell)

/- A key that is alone for its name is not clashed with. -/
theorem not_named_of_isApart
    {name : Text}
    {cell : Cell}
    {member other : Member}
    (hPair : IsPairOf name cell member)
    (hApart : member.IsApart other) :
    other.isNamed name = false := by
  rcases hPair with ⟨label, indent, separator, rfl, rfl⟩
  rcases other with text | ⟨_ | ⟨next, labels⟩, _, _, cell⟩
  · rfl
  · rfl
  · by_contra hNamed
    have hNext : next.name = label.name := by
      simpa [Member.isNamed] using hNamed
    simp [Member.IsApart, keysClash, hNext] at hApart

theorem hasMember_lookupMember
    {name : Text}
    {members : List Member}
    (hApart : members.Pairwise Member.IsApart)
    (hTable : (lookupMember name members).isTable = false) :
    HasMember name members (lookupMember name members) := by
  rw [lookupMember_eq] at hTable ⊢
  cases hUnder : members.filterMap (Member.under? name) with
  | nil =>
      refine .missing fun member hMem => ?_
      have hNone :=
        List.filterMap_eq_nil_iff.mp hUnder member hMem
      exact Member.under?_eq_none_iff.mp hNone
  | cons under rest =>
      simp only [hUnder] at hTable ⊢
      rcases under with text | ⟨_ | ⟨label, labels⟩, _, _, cell⟩
      · cases hTable
      · rcases List.filterMap_eq_cons_iff.mp hUnder with
          ⟨before, member, after, rfl, hBefore, hMember, _⟩
        have hPair : IsPairOf name cell member := by
          rcases member with
            text | ⟨_ | ⟨label, labels⟩, indent, separator, _⟩
          · cases hMember
          · cases hMember
          · rw [Member.under?] at hMember
            split at hMember
            case isTrue hName =>
              cases hMember
              exact ⟨label, _, _, hName, rfl⟩
            case isFalse => cases hMember
        refine .cell rfl hPair ?_
        intro other hMem
        rcases List.mem_append.mp hMem with hIn | hIn
        · exact
            Member.under?_eq_none_iff.mp (hBefore other hIn)
        · have hTail :=
            (List.pairwise_append.mp hApart).2.1
          exact
            not_named_of_isApart hPair
              (List.rel_of_pairwise_cons hTail hIn)
      · cases hTable

/- What an inline table has for a key is what it leads to. -/
theorem HasMember.find?_membersTable
    {key : Text}
    {members : List Member}
    {found : Target}
    (hMember : HasMember key members found) :
    find? key (membersTable members) = found.value? := by
  cases hMember with
  | missing hMembers =>
      rw [membersTable_eq_foldl,
        find?_foldl_putMember _ hMembers]
      rfl
  | cell hMembers hPair hOthers =>
      rw [hMembers, find?_membersTable_pair hPair, if_pos rfl]
      · rfl
      · exact fun other hMem =>
          hOthers other (List.mem_append_right _ hMem)

/- The member of a key is what is found for it. -/
theorem HasMember.lookupMember_eq
    {key : Text}
    {members : List Member}
    {cell : Cell}
    (hMember : HasMember key members (.cell cell)) :
    lookupMember key members = .cell cell := by
  rcases hMember with
    _ | @⟨before, after, member, _, hMembers, hPair, hOthers⟩
  have hBefore :
      before.filterMap (Member.under? key) = [] :=
    List.filterMap_eq_nil_iff.mpr fun other hMem =>
      Member.under?_eq_none_iff.mpr
        (hOthers other (List.mem_append_left after hMem))
  rcases hPair with ⟨label, indent, separator, rfl, rfl⟩
  rw [Layout.lookupMember_eq, hMembers]
  simp [hBefore, Member.under?]

/- A key of one name is apart from keys of other names. -/
theorem isApart_of_not_named
    {key : Text}
    {cell : Cell}
    {member other : Member}
    (hPair : IsPairOf key cell member)
    (hOther : other.isNamed key = false) :
    other.IsApart member ∧ member.IsApart other := by
  rcases hPair with ⟨label, indent, separator, rfl, rfl⟩
  rcases other with text | ⟨_ | ⟨next, labels⟩, _, _, cell⟩
  · exact ⟨trivial, trivial⟩
  · exact ⟨trivial, trivial⟩
  · have hNext : next.name ≠ label.name := by
      simpa [Member.isNamed] using hOther
    simp [Member.IsApart, keysClash, List.isPrefixOf, hNext,
      hNext.symm]

/-
  An inline table in which a key has a value: members of
  other names, among which a pair of the key stands.
-/
structure HasPut
    (key : Text)
    (cell : Cell)
    (members after : List Member) : Prop where
  member : HasMember key after (.cell cell)
  values :
    ∀ name,
      find? name (membersTable after) =
        if name = key then some cell.value
        else find? name (membersTable members)
  apart :
    members.Pairwise Member.IsApart →
      after.Pairwise Member.IsApart

/- A pair put among members of other names. -/
theorem HasPut.of_others
    {key : Text}
    {cell : Cell}
    {members before after : List Member}
    {member : Member}
    (hPair : IsPairOf key cell member)
    (hOthers :
      ∀ other ∈ before ++ after, other.isNamed key = false)
    (hValues :
      ∀ name, name ≠ key →
        find? name (membersTable (before ++ after)) =
          find? name (membersTable members))
    (hSublist : (before ++ after).Sublist members) :
    HasPut key cell members (before ++ member :: after) where
  member := .cell rfl hPair hOthers
  values name := by
    rw [find?_membersTable_pair hPair fun other hMem =>
      hOthers other (List.mem_append_right before hMem)]
    by_cases hName : name = key
    · rw [if_pos hName, if_pos hName]
    · rw [if_neg hName, if_neg hName, hValues name hName]
  apart hApart := by
    have hRest := hApart.sublist hSublist
    rw [List.pairwise_append] at hRest ⊢
    rcases hRest with ⟨hBefore, hAfter, hAcross⟩
    refine ⟨hBefore, ?_, ?_⟩
    · refine List.pairwise_cons.mpr ⟨?_, hAfter⟩
      intro other hMem
      exact
        (isApart_of_not_named hPair
          (hOthers other (List.mem_append_right _ hMem))).2
    · intro left hLeft right hRight
      rcases List.mem_cons.mp hRight with rfl | hRight
      · exact
          (isApart_of_not_named hPair
            (hOthers left (List.mem_append_left _ hLeft))).1
      · exact hAcross left hLeft right hRight

/- A member of a name with another value. -/
def Member.withCell (key : Text) (cell : Cell) :
    Member → Member
  | .pair labels indent separator old =>
    if (Member.pair labels indent separator old).isNamed key
    then .pair labels indent separator cell
    else .pair labels indent separator old
  | member => member

theorem map_withCell_of_not_named
    {key : Text}
    (cell : Cell)
    {members : List Member}
    (hMembers :
      ∀ member ∈ members, member.isNamed key = false) :
    members.map (Member.withCell key cell) = members := by
  have hSame :
      ∀ member ∈ members,
        member.withCell key cell = id member := by
    intro member hMem
    have hNamed := hMembers member hMem
    cases member with
    | blank text => rfl
    | pair labels indent separator old =>
        rw [Member.withCell, hNamed]
        rfl
  rw [List.map_congr_left hSame, List.map_id]

theorem setMember_of_cell
    (spaces : Text)
    {key : Text}
    (cell : Cell)
    {old : Cell}
    {members : List Member}
    (hOld : lookupMember key members = .cell old) :
    setMember spaces key cell members =
      members.map (Member.withCell key cell) := by
  unfold setMember
  rw [hOld]
  refine List.map_congr_left fun member _ => ?_
  cases member <;> rfl

theorem hasPut_setMember
    (spaces : Text)
    {key : Text}
    (cell : Cell)
    {members : List Member}
    (hMember :
      HasMember key members (lookupMember key members)) :
    HasPut key cell members
      (setMember spaces key cell members) := by
  cases hTarget : lookupMember key members with
  | missing =>
      rw [hTarget] at hMember
      rcases hMember with ⟨hMembers⟩ | _
      have hKept :
          (members.filter fun member =>
              !member.isNamed key) =
            members := by
        refine List.filter_eq_self.mpr fun member hMem => ?_
        rw [hMembers member hMem, Bool.not_false]
      unfold setMember
      simp only [hTarget, hKept]
      refine .of_others ⟨_, _, _, rfl, rfl⟩ ?_ ?_ ?_
      · rwa [List.append_nil]
      · intro name _
        rw [List.append_nil]
      · rewrite [List.append_nil]
        exact List.Sublist.refl members
  | cell old =>
      rw [hTarget] at hMember
      rcases hMember with
        _ | @⟨before, after, member, _, hMembers, hPair,
          hOthers⟩
      rw [setMember_of_cell spaces cell hTarget, hMembers,
        List.map_append, List.map_cons,
        map_withCell_of_not_named cell fun other hMem =>
          hOthers other (List.mem_append_left _ hMem),
        map_withCell_of_not_named cell fun other hMem =>
          hOthers other (List.mem_append_right _ hMem)]
      have hChanged :
          IsPairOf key cell (member.withCell key cell) := by
        rcases hPair with
          ⟨label, indent, separator, rfl, rfl⟩
        refine ⟨label, indent, separator, rfl, ?_⟩
        simp [Member.withCell, Member.isNamed]
      refine .of_others hChanged hOthers ?_ ?_
      · intro name hName
        rw [find?_membersTable_pair hPair, if_neg hName]
        exact fun other hMem =>
          hOthers other (List.mem_append_right _ hMem)
      · exact
          List.Sublist.append_left
            (List.sublist_cons_self member after) before
  | inline under =>
      rw [hTarget] at hMember
      cases hMember
  | body entries =>
      rw [hTarget] at hMember
      cases hMember
  | elements tables =>
      rw [hTarget] at hMember
      cases hMember

end Layout

end Toml

end ScriptWorkspace
