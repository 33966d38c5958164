import ScriptWorkspace.Proofs.Toml.Orderly

/-
  Tables of a document that are looked up and changed.

  In an orderly document a name that leads to a table leads
  to the value of that name, whether the table is spelled by
  headers or inline. A key of it that gets a value has this
  value then, and all other keys have what they had before.

  Main declarations:
    * `Layout.LooksUp`
    * `Layout.LeadsTo`
    * `Layout.leadsTo_lookup`
    * `Layout.LeadsTo.find?_bodyTable`
    * `Layout.CanPut`
    * `Layout.HasPutIn`
    * `Layout.hasPutIn_setIn`
-/

namespace ScriptWorkspace

namespace Toml

namespace Layout

------------------------------------------------------------
-- Looking Up
------------------------------------------------------------

/- The only entry of a name in a document is another one. -/
structure IsAlone
    (name : Text)
    (entry : Entry)
    (before after : List Entry) : Prop where
  named : entry.isNamed name = true
  others :
    ∀ other ∈ before ++ after, other.isNamed name = false

/- A table that a name leads to in a document. -/
inductive LeadsTo (name : Text) (document : Document) :
    Target → Prop
  | body (hTables : HasTables name document) :
      LeadsTo name document
        (.body (entriesOf name document))
  | inline
      {before after : List Entry}
      {label : Label}
      {separator : Text}
      {members : List Member}
      {margin : Margin}
      (hDocument :
        document =
          before ++
            .pair label separator (.inline members) margin ::
              after)
      (hAlone :
        IsAlone name
          (.pair label separator (.inline members) margin)
          before after)
      (hApart : members.Pairwise Member.IsApart) :
      LeadsTo name document (.inline members)

/- An entry that is no table is alone with its name. -/
theorem IsOrderly.isAlone
    {name : Text}
    {entry : Entry}
    {before after : List Entry}
    (hDocument : IsOrderly (before ++ entry :: after))
    (hNamed : entry.isNamed name = true)
    (hTable : entry.isOneTable = false) :
    IsAlone name entry before after where
  named := hNamed
  others := by
    have hPairs := List.pairwise_map.mp hDocument.shapes
    rw [List.pairwise_append, List.pairwise_cons] at hPairs
    rcases hPairs with ⟨_, ⟨hAfter, _⟩, hBefore⟩
    have hName := Entry.isNamed_iff.mp hNamed
    intro other hMem
    by_contra hOther
    have hSame :=
      Entry.isNamed_iff.mp (Bool.not_eq_false _ ▸ hOther)
    rcases List.mem_append.mp hMem with hIn | hIn
    · have hFit :=
        hBefore other hIn entry List.mem_cons_self name hSame
          hName
      exact Bool.false_ne_true (hTable.symm.trans hFit.2)
    · have hFit := hAfter other hIn name hName hSame
      exact Bool.false_ne_true (hTable.symm.trans hFit.1)

theorem joinFragments_eq_ok
    {joined entries found : List Entry}
    (hJoin : joinFragments joined entries = .ok found) :
    found = joined ++ entries := by
  induction entries generalizing joined with
  | nil =>
      cases hJoin
      rw [List.append_nil]
  | cons entry entries ih =>
      rw [joinFragments] at hJoin
      split at hJoin
      case h_1 =>
        rw [ih hJoin, List.append_assoc, List.singleton_append]
      case h_2 =>
        split at hJoin
        case isTrue =>
          rw [ih hJoin, List.append_assoc,
            List.singleton_append]
        case isFalse => cases hJoin

theorem gathered_eq_ok
    {name : Text}
    {body found : List Entry}
    (hGathered : gathered name body = .ok found) :
    found = (fragments name body).flatMap Entry.body := by
  rcases bind_eq_ok_iff.mp hGathered with
    ⟨joined, hJoined, hNext⟩
  rcases bind_eq_ok_iff.mp hNext with ⟨_, _, hSame⟩
  cases hSame
  exact joinFragments_eq_ok hJoined

/- The only entry of a name has all that is in its tables. -/
theorem body_of_only
    {name : Text}
    {document : Document}
    {entry : Entry}
    (hMem : entry ∈ document)
    (hNamed : entry.isNamed name = true)
    (hLength :
      (document.filter (Entry.isNamed name)).length ≤ 1) :
    entry.body = entriesOf name document := by
  have hIn : entry ∈ document.filter (Entry.isNamed name) :=
    List.mem_filter.mpr ⟨hMem, hNamed⟩
  have hPositive := List.length_pos_of_mem hIn
  rcases List.length_eq_one_iff.mp
      (Nat.le_antisymm hLength hPositive) with
    ⟨only, hOnly⟩
  rw [hOnly, List.mem_singleton] at hIn
  rw [entriesOf, hOnly, hIn, List.flatMap_singleton]

/- If all entries of a name are tables, they are its parts. -/
theorem HasTables.fragments_eq
    {name : Text}
    {body : List Entry}
    (hTables : HasTables name body) :
    fragments name body =
      body.filter (Entry.isNamed name) := by
  refine List.filter_congr fun entry hMem => ?_
  cases hNamed : entry.isNamed name with
  | false => rfl
  | true => rw [hTables.tables entry hMem hNamed, Bool.true_and]

/- What is looked up by a name is told by its last entry. -/
inductive LooksUp (name : Text) (body : List Entry) :
    Target → Prop
  | missing
      (hNone :
        ∀ entry ∈ body, entry.isNamed name = false) :
      LooksUp name body .missing
  | cell
      {label : Label}
      {separator : Text}
      {content : Cell}
      {margin : Margin}
      (hLast :
        lastNamed? name body =
          some
            (.pair label separator (.cell content) margin)) :
      LooksUp name body (.cell content)
  | inline
      {label : Label}
      {separator : Text}
      {members : List Member}
      {margin : Margin}
      (hLast :
        lastNamed? name body =
          some
            (.pair label separator (.inline members) margin)) :
      LooksUp name body (.inline members)
  | elements
      {label : Label}
      {tables : List (Heading × List Entry)}
      (hLast :
        lastNamed? name body =
          some (.elements label tables)) :
      LooksUp name body (.elements tables)
  | body
      {last : Entry}
      {entries : List Entry}
      (hLast : lastNamed? name body = some last)
      (hTable : last.isOneTable = true)
      (hEntries :
        (fragments name body).length ≤ 1 ∧
              entries = last.body ∨
          entries =
            (fragments name body).flatMap Entry.body) :
      LooksUp name body (.body entries)

theorem looksUp_of_lookup
    {name : Text}
    {body : List Entry}
    {target : Target}
    (hLookup : lookup name body = .ok target) :
    LooksUp name body target := by
  unfold lookup at hLookup
  split at hLookup
  case h_1 hNone =>
    cases hLookup
    exact .missing (lastNamed?_eq_none_iff.mp hNone)
  case h_2 hLast =>
    cases hLookup
    exact .cell hLast
  case h_3 hLast =>
    cases hLookup
    exact .inline hLast
  case h_4 hLast =>
    cases hLookup
    exact .elements hLast
  case h_5 last hCell hInline hElements hLast =>
    have hTable : last.isOneTable = true := by
      rcases last with
        _ | _ | ⟨label, separator, cell | members, margin⟩ |
          _ | _
      · cases (lastNamed?_mem hLast).2
      · cases (lastNamed?_mem hLast).2
      · exact absurd rfl (hCell _ _ _ _)
      · exact absurd rfl (hInline _ _ _ _)
      · rfl
      · exact absurd rfl (hElements _ _)
    split at hLookup
    case isTrue hLength =>
      cases hLookup
      exact .body hLast hTable (.inl ⟨hLength, rfl⟩)
    case isFalse =>
      rcases bind_eq_ok_iff.mp hLookup with
        ⟨entries, hGathered, hSame⟩
      cases hSame
      exact
        .body hLast hTable (.inr (gathered_eq_ok hGathered))

/- What is looked up by a name is where the name leads. -/
theorem leadsTo_lookup
    {name : Text}
    {document : Document}
    {target : Target}
    (hDocument : IsOrderly document)
    (hLookup : lookup name document = .ok target)
    (hTable : target.isTable = true) :
    LeadsTo name document target := by
  cases looksUp_of_lookup hLookup with
  | missing hNone => cases hTable
  | cell hLast => cases hTable
  | elements hLast => cases hTable
  | @inline label separator members margin hLast =>
      rcases lastNamed?_eq_some_iff.mp hLast with
        ⟨hNamed, before, after, rfl, _⟩
      refine .inline rfl (hDocument.isAlone hNamed rfl) ?_
      exact
        hDocument.apart
          (.pair label separator (.inline members) margin)
          (by simp)
  | @body last entries hLast hLastTable hEntries =>
      rcases lastNamed?_mem hLast with ⟨hMem, hNamed⟩
      have hTables : HasTables name document :=
        { some := ⟨last, hMem, hNamed⟩
          tables :=
            hDocument.isOneTable_of_last hLast hLastTable }
      have hParts := hTables.fragments_eq
      rw [hParts] at hEntries
      rcases hEntries with ⟨hLength, rfl⟩ | rfl
      · have hBody : last.body = entriesOf name document :=
          body_of_only hMem hNamed hLength
        rw [hBody]
        exact .body hTables
      · rw [← entriesOf]
        exact .body hTables

/- A name that leads nowhere has no value. -/
theorem find?_of_lookup_missing
    {name : Text}
    {document : Document}
    (hLookup : lookup name document = .ok .missing) :
    find? name (bodyTable document) = none ∧
      ∀ entry ∈ document, entry.isNamed name = false := by
  rcases looksUp_of_lookup hLookup with ⟨hNone⟩
  rw [find?_bodyTable, valueAfter_of_not_named _ hNone]
  exact ⟨rfl, hNone⟩

/- A name that leads to a cell has the value of it. -/
theorem find?_of_lookup_cell
    {name : Text}
    {document : Document}
    {content : Cell}
    (hLookup : lookup name document = .ok (.cell content)) :
    find? name (bodyTable document) = some content.value := by
  rcases looksUp_of_lookup hLookup with _ | hLast
  rw [find?_bodyTable, valueAfter_of_lastNamed? _ hLast]
  rfl

/- An entry that is alone tells the value of its name. -/
theorem find?_of_isAlone
    {name : Text}
    {before after : List Entry}
    {label : Label}
    {separator : Text}
    {value : Value}
    {margin : Margin}
    (hAlone :
      IsAlone name (.pair label separator value margin) before
        after) :
    find? name
        (bodyTable
          (before ++
            .pair label separator value margin :: after)) =
      some value.value := by
  rw [find?_bodyTable]
  refine
    valueAfter_of_lastNamed? none
      (lastNamed?_eq_some_iff.mpr
        ⟨hAlone.named, before, after, rfl, ?_⟩)
  exact fun other hMem =>
    hAlone.others other (List.mem_append_right before hMem)

namespace LeadsTo

variable {name : Text}
variable {document : Document}
variable {target : Target}

/- What a name leads to is its value. -/
theorem find?_bodyTable
    (hTarget : LeadsTo name document target) :
    find? name (bodyTable document) = target.value? := by
  cases hTarget with
  | body hTables =>
      rw [Layout.find?_bodyTable]
      exact valueAfter_tables hTables
  | inline hDocument hAlone hApart =>
      rw [hDocument]
      exact find?_of_isAlone hAlone

/- What a key of a table leads to, if it is no table. -/
theorem find?_of_find
    {key : Text}
    {found : Target}
    (hTarget : LeadsTo name document target)
    (hFound : target.find key = .ok found)
    (hCell : found = .missing ∨ ∃ cell, found = .cell cell) :
    ∃ members,
      find? name (bodyTable document) =
          some (.table members) ∧
        find? key members = found.value? := by
  rw [hTarget.find?_bodyTable]
  cases hTarget with
  | body hTables =>
      refine ⟨_, rfl, ?_⟩
      rcases hCell with rfl | ⟨cell, rfl⟩
      · exact (find?_of_lookup_missing hFound).1
      · exact find?_of_lookup_cell hFound
  | @inline _ _ _ _ members _ hDocument hAlone hApart =>
      refine ⟨_, rfl, ?_⟩
      have hLookup := Except.ok.inj hFound
      have hTable :
          (lookupMember key members).isTable = false := by
        rw [hLookup]
        rcases hCell with rfl | ⟨cell, rfl⟩ <;> rfl
      have hMember := hasMember_lookupMember hApart hTable
      rw [hLookup] at hMember
      exact hMember.find?_membersTable

end LeadsTo

------------------------------------------------------------
-- Changing
------------------------------------------------------------

/- A table in which a key can get a value. -/
inductive CanPut (name key : Text) (document : Document) :
    Prop
  | body (hTables : HasTables name document)
  | inline
      {before after : List Entry}
      {label : Label}
      {separator : Text}
      {members : List Member}
      {margin : Margin}
      (hDocument :
        document =
          before ++
            .pair label separator (.inline members) margin ::
              after)
      (hAlone :
        IsAlone name
          (.pair label separator (.inline members) margin)
          before after)
      (hMember :
        HasMember key members (lookupMember key members))

theorem LeadsTo.canPut
    {name key : Text}
    {document : Document}
    {target found : Target}
    (hTarget : LeadsTo name document target)
    (hFound : target.find key = .ok found)
    (hCell : found = .missing ∨ ∃ cell, found = .cell cell) :
    CanPut name key document := by
  cases hTarget with
  | body hTables => exact .body hTables
  | inline hDocument hAlone hApart =>
      refine .inline hDocument hAlone ?_
      refine hasMember_lookupMember hApart ?_
      rw [Except.ok.inj hFound]
      rcases hCell with rfl | ⟨cell, rfl⟩ <;> rfl

/-
  A document in which a key of a table has got a value: that
  of the key is the new one, and all other values stay.
-/
structure HasPutIn
    (name key : Text)
    (value : Toml)
    (document after : Document) : Prop where
  table :
    ∃ members changed,
      find? name (bodyTable document) =
          some (.table members) ∧
        find? name (bodyTable after) = some (.table changed) ∧
          ∀ other,
            find? other changed =
              if other = key then some value
              else find? other members
  others :
    ∀ other, other ≠ name →
      find? other (bodyTable after) =
        find? other (bodyTable document)

/- There is a table at the chosen place. -/
theorem chosenIndex_lt
    (key : Text)
    {tables : List Entry}
    (hTables : tables ≠ []) :
    chosenIndex key tables < tables.length := by
  have hPositive := List.length_pos_iff.mpr hTables
  unfold chosenIndex
  cases hOwn : tables.findIdx? (hasNamed key) with
  | some index =>
      exact (List.findIdx?_eq_some_iff_findIdx_eq.mp hOwn).1
  | none =>
      cases hPairs : tables.findIdx? hasPair with
      | some index =>
          exact
            (List.findIdx?_eq_some_iff_findIdx_eq.mp hPairs).1
      | none => exact hPositive

theorem HasTables.of_shapes
    {name : Text}
    {body after : List Entry}
    (hBody : HasTables name body)
    (hShapes : after.map Entry.shape = body.map Entry.shape) :
    HasTables name after := by
  have hMoved
      {left right : List Entry}
      (hSame :
        left.map Entry.shape = right.map Entry.shape) :
      ∀ entry ∈ left, ∃ other ∈ right,
        other.shape = entry.shape := by
    intro entry hMem
    have hIn : entry.shape ∈ right.map Entry.shape := by
      rw [← hSame]
      exact List.mem_map_of_mem hMem
    exact List.mem_map.mp hIn
  have hNamed
      {entry other : Entry}
      (hSame : other.shape = entry.shape) :
      other.isNamed name = entry.isNamed name := by
    rw [Entry.isNamed, Entry.isNamed,
      (Prod.mk.inj hSame).1]
  constructor
  case some =>
    rcases hBody.some with ⟨entry, hMem, hEntry⟩
    rcases hMoved hShapes.symm entry hMem with
      ⟨other, hOther, hSame⟩
    exact ⟨other, hOther, (hNamed hSame).trans hEntry⟩
  case tables =>
    intro entry hMem hEntry
    rcases hMoved hShapes entry hMem with
      ⟨other, hOther, hSame⟩
    have hTable :=
      hBody.tables other hOther
        ((hNamed hSame).trans hEntry)
    exact (Prod.mk.inj hSame).2.symm.trans hTable

section Setting

variable {name key : Text}
variable (cell : Cell)

/- An inline table that is alone takes the value itself. -/
theorem setIn_inline
    {before after : List Entry}
    {label : Label}
    {separator : Text}
    {members : List Member}
    {margin : Margin}
    (hAlone :
      IsAlone name
        (.pair label separator (.inline members) margin)
        before after) :
    setIn name key cell
        (before ++
          .pair label separator (.inline members) margin ::
            after) =
      before ++
        .pair label separator
            (.inline
              (setMember (indentSpaces margin.indent) key cell
                members))
            margin ::
          after := by
  have hBefore :
      ∀ entry ∈ before, entry.isNamed name = false :=
    fun entry hMem =>
      hAlone.others entry (List.mem_append_left after hMem)
  have hAfter :
      ∀ entry ∈ after, entry.isNamed name = false :=
    fun entry hMem =>
      hAlone.others entry (List.mem_append_right before hMem)
  have hOnly :
      (before ++
            .pair label separator (.inline members) margin ::
              after).filter
          (Entry.isNamed name) =
        [.pair label separator (.inline members) margin] := by
    rw [List.filter_append, List.filter_cons,
      if_pos hAlone.named,
      List.filter_eq_nil_iff.mpr fun entry hMem => by
        simp [hBefore entry hMem],
      List.filter_eq_nil_iff.mpr fun entry hMem => by
        simp [hAfter entry hMem]]
    rfl
  unfold setIn
  simp only [hOnly]
  rw [setInChosen_append key cell _ _ hBefore]
  have hIndex :
      chosenIndex key
          [.pair label separator (.inline members) margin] =
        0 :=
    Nat.lt_one_iff.mp
      (chosenIndex_lt key (List.cons_ne_nil _ _))
  rw [hIndex, setInChosen_zero key cell _ hAlone.named,
    map_withoutKey_of_not_named key hAfter]
  rfl

/- A name keeps being alone with another value. -/
theorem IsAlone.of_value
    {before after : List Entry}
    {label : Label}
    {separator : Text}
    {value : Value}
    {margin : Margin}
    (hAlone :
      IsAlone name (.pair label separator value margin) before
        after)
    (other : Value) :
    IsAlone name (.pair label separator other margin) before
      after :=
  { named := hAlone.named, others := hAlone.others }

/- The key can get a value again. -/
theorem canPut_setIn
    {document : Document}
    (hCan : CanPut name key document) :
    CanPut name key (setIn name key cell document) := by
  cases hCan with
  | body hTables =>
      exact
        .body
          (hTables.of_shapes
            (map_shape_setInChosen key cell _ document))
  | @inline before after label separator members margin
      hDocument hAlone hMember =>
      have hPut :=
        hasPut_setMember (indentSpaces margin.indent) cell
          hMember
      rw [hDocument, setIn_inline cell hAlone]
      refine .inline rfl (hAlone.of_value _) ?_
      rw [hPut.member.lookupMember_eq]
      exact hPut.member

theorem hasPutIn_setIn
    {document : Document}
    (hCan : CanPut name key document) :
    HasPutIn name key cell.value document
      (setIn name key cell document) := by
  constructor
  case others =>
    intro other hOther
    rw [find?_bodyTable, find?_bodyTable]
    refine congrFun (valueAfter_congr ?_) none
    exact filter_setInChosen key cell hOther _ document
  case table =>
    cases hCan with
    | body hTables =>
        have hAfter :
            HasTables name (setIn name key cell document) :=
          hTables.of_shapes
            (map_shape_setInChosen key cell _ document)
        have hSome :
            document.filter (Entry.isNamed name) ≠ [] := by
          rcases hTables.some with ⟨entry, hMem, hNamed⟩
          exact
            List.ne_nil_of_mem
              (List.mem_filter.mpr ⟨hMem, hNamed⟩)
        have hPut :
            IsPutInto key cell (entriesOf name document)
              (entriesOf name
                (setIn name key cell document)) :=
          isPutInto_setInChosen key cell hTables.tables
            (chosenIndex_lt key hSome)
        refine
          ⟨_, _, (find?_bodyTable name document).trans
              (valueAfter_tables hTables),
            (find?_bodyTable name _).trans
              (valueAfter_tables hAfter), ?_⟩
        intro other
        rw [find?_bodyTable, find?_bodyTable]
        by_cases hOther : other = key
        · rw [if_pos hOther, hOther, hPut.self]
        · rw [if_neg hOther, hPut.others other hOther]
    | @inline before after label separator members margin
        hDocument hAlone hMember =>
        have hPut :=
          hasPut_setMember (indentSpaces margin.indent) cell
            hMember
        rw [hDocument, setIn_inline cell hAlone]
        exact
          ⟨_, _, find?_of_isAlone hAlone,
            find?_of_isAlone (hAlone.of_value _), hPut.values⟩

/- An orderly document stays orderly. -/
theorem isOrderly_setIn
    {document : Document}
    (hDocument : IsOrderly document)
    (hCan : CanPut name key document) :
    IsOrderly (setIn name key cell document) := by
  refine
    hDocument.of_shapes
      (map_shape_setInChosen key cell _ document) ?_
  cases hCan with
  | body hTables =>
      intro entry hMem
      rcases mem_setInChosen key cell hTables.tables entry hMem
        with hIn | hTable
      · exact hDocument.apart entry hIn
      · cases entry with
        | pair label separator value margin => cases hTable
        | blank text => trivial
        | comment margin => trivial
        | table label kind heading body => trivial
        | elements label tables => trivial
  | @inline before after label separator members margin hSplit
      hAlone hMember =>
      subst hSplit
      rw [setIn_inline cell hAlone]
      have hPut :=
        hasPut_setMember (indentSpaces margin.indent) cell
          hMember
      have hMembers : members.Pairwise Member.IsApart :=
        hDocument.apart
          (.pair label separator (.inline members) margin)
          (by simp)
      intro entry hMem
      rcases List.mem_append.mp hMem with hIn | hIn
      · exact
          hDocument.apart entry (List.mem_append_left _ hIn)
      · rcases List.mem_cons.mp hIn with rfl | hIn
        · exact hPut.apart hMembers
        · refine hDocument.apart entry ?_
          exact
            List.mem_append_right _
              (List.mem_cons_of_mem _ hIn)

end Setting

------------------------------------------------------------
-- New Tables
------------------------------------------------------------

section New

variable {name : Text}
variable {document : Document}

/- The new table is the last entry, and it is empty. -/
theorem addTable_eq
    (name : Text)
    (document : Document) :
    ∃ entry,
      addTable name document = document ++ [entry] ∧
        entry.shape = (some name, true) ∧
          entry.body = [] ∧ entry.IsApart :=
  ⟨_, rfl, rfl, rfl, trivial⟩

theorem isOrderly_addTable
    (hDocument : IsOrderly document)
    (hNew : ∀ entry ∈ document, entry.isNamed name = false) :
    IsOrderly (addTable name document) := by
  rcases addTable_eq name document with
    ⟨entry, hAdded, hShape, _, hApart⟩
  rw [hAdded]
  refine
    hDocument.concat hApart
      (shapesFit_of_lastNamed?_eq_none
        (Prod.mk.inj hShape).1
        (lastNamed?_eq_none_iff.mpr hNew))

/- A new table is there and has nothing in it. -/
theorem hasTables_addTable
    (hNew : ∀ entry ∈ document, entry.isNamed name = false) :
    HasTables name (addTable name document) ∧
      entriesOf name (addTable name document) = [] := by
  rcases addTable_eq name document with
    ⟨entry, hAdded, hShape, hBody, _⟩
  have hNamed : entry.isNamed name = true :=
    Entry.isNamed_iff.mpr (Prod.mk.inj hShape).1
  have hOnly :
      (addTable name document).filter (Entry.isNamed name) =
        [entry] := by
    rw [hAdded, List.filter_append,
      List.filter_eq_nil_iff.mpr fun other hMem => by
        simp [hNew other hMem]]
    simp [hNamed]
  constructor
  · constructor
    case some =>
      refine ⟨entry, ?_, hNamed⟩
      rw [hAdded]
      simp
    case tables =>
      intro other hMem hOther
      have hIn := List.mem_filter.mpr ⟨hMem, hOther⟩
      rw [hOnly, List.mem_singleton] at hIn
      rw [hIn]
      exact (Prod.mk.inj hShape).2
  · rw [entriesOf, hOnly, List.flatMap_singleton, hBody]

/- A new table changes no value of another name. -/
theorem find?_addTable_of_ne
    {other : Text}
    (document : Document)
    (hOther : other ≠ name) :
    find? other (bodyTable (addTable name document)) =
      find? other (bodyTable document) := by
  rcases addTable_eq name document with
    ⟨entry, hAdded, hShape, _, _⟩
  have hNamed : entry.isNamed name = true :=
    Entry.isNamed_iff.mpr (Prod.mk.inj hShape).1
  rw [find?_bodyTable, find?_bodyTable, hAdded,
    valueAfter_append, valueAfter_cons,
    Entry.not_isNamed_of_ne hNamed hOther]
  rfl

theorem find?_addTable_self
    (hNew : ∀ entry ∈ document, entry.isNamed name = false) :
    find? name (bodyTable (addTable name document)) =
      some (.table []) := by
  rcases hasTables_addTable hNew with ⟨hTables, hEntries⟩
  rw [find?_bodyTable, valueAfter_tables hTables, hEntries]
  rfl

end New

end Layout

end Toml

end ScriptWorkspace
