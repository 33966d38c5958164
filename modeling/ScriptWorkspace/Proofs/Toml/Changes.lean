import Mathlib.Data.List.TakeWhile
import ScriptWorkspace.Proofs.Toml.Values
import ScriptWorkspace.Toml.Layout.Statement

/-
  What a change does to the values of a table.

  A table in which a key gets a value has that value for the
  key, and for every other key what it had before. This holds
  for a body, and for the bodies of several tables of one name
  taken together.

  Main declarations:
    * `Layout.valueAfter_insertPair`
    * `Layout.IsPutInto`
    * `Layout.isPutInto_setPair`
    * `Layout.isPutInto_setInChosen`
    * `Layout.map_shape_setInChosen`
-/

namespace ScriptWorkspace

namespace Toml

namespace Layout

------------------------------------------------------------
-- New Pairs
------------------------------------------------------------

/- The entries count the same for what a name has. -/
def Entry.CountsAs (entry other : Entry) : Prop :=
  entry.name? = other.name? ∧
    ∀ earlier, entry.valueOver earlier = other.valueOver earlier

theorem Entry.countsAs_mapIndent
    (change : Text → Text)
    (entry : Entry) :
    (entry.mapIndent change).CountsAs entry := by
  cases entry <;> exact ⟨rfl, fun _ => rfl⟩

theorem Entry.countsAs_endedEntry (entry : Entry) :
    (endedEntry entry).CountsAs entry := by
  cases entry <;> exact ⟨rfl, fun _ => rfl⟩

theorem Entry.CountsAs.valueAfter_cons
    {entry other : Entry}
    (hCounts : entry.CountsAs other)
    (name : Text)
    (entries : List Entry) :
    valueAfter name (entry :: entries) =
      valueAfter name (other :: entries) := by
  have hNamed : entry.isNamed name = other.isNamed name := by
    rw [Entry.isNamed, Entry.isNamed, hCounts.1]
  funext earlier
  rw [Layout.valueAfter_cons, Layout.valueAfter_cons, hNamed,
    hCounts.2]

/- Ending a line changes no value. -/
theorem valueAfter_endedEntries
    (name : Text)
    (entries : List Entry) :
    valueAfter name (endedEntries entries) =
      valueAfter name entries := by
  funext earlier
  induction entries generalizing earlier with
  | nil => rfl
  | cons entry entries ih =>
      cases entries with
      | nil =>
          rw [endedEntries,
            (Entry.countsAs_endedEntry entry).valueAfter_cons]
      | cons next entries =>
          rw [endedEntries, valueAfter_cons, ih,
            ← valueAfter_cons]
          exact List.cons_ne_nil _ _

/- A new pair stands between two parts of a body. -/
theorem valueAfter_insertPair
    (name : Text)
    (pair : Entry)
    (body : List Entry) :
    valueAfter name (insertPair pair body) =
      valueAfter name
        (body.take (newIndex body) ++
          pair :: body.drop (newIndex body)) := by
  funext earlier
  rw [insertPair, valueAfter_append, valueAfter_append,
    valueAfter_endedEntries, valueAfter_cons,
    valueAfter_cons]
  cases body.drop (newIndex body) with
  | nil => rfl
  | cons entry entries =>
      have hCounts := entry.countsAs_mapIndent brokenIndent
      rw [hCounts.valueAfter_cons]

/- What a pair put into a body does to the values. -/
theorem valueAfter_put
    {key : Text}
    {cell : Cell}
    {pair : Entry}
    {front back : List Entry}
    (hPair : pair.CountsAs (newPair key cell))
    (hBack : ∀ entry ∈ back, entry.isNamed key = false)
    (name : Text)
    (earlier : Option Toml) :
    valueAfter name (front ++ pair :: back) earlier =
      if name = key then some cell.value
      else valueAfter name (front ++ back) earlier := by
  rw [valueAfter_append, hPair.valueAfter_cons,
    valueAfter_cons]
  by_cases hName : name = key
  · subst hName
    rw [if_pos rfl, valueAfter_of_not_named _ hBack,
      if_pos (by simp [newPair, Entry.isNamed, Entry.name?])]
    rfl
  · have hOther : key ≠ name := Ne.symm hName
    rw [if_neg hName, valueAfter_append,
      if_neg
        (by simp [newPair, Entry.isNamed, Entry.name?, hOther])]

------------------------------------------------------------
-- Bodies
------------------------------------------------------------

/- A body without the entries of a name. -/
def without (name : Text) (body : List Entry) : List Entry :=
  body.filter fun entry => !entry.isNamed name

theorem not_named_of_mem_without
    {name : Text}
    {body : List Entry} :
    ∀ entry ∈ without name body,
      entry.isNamed name = false := by
  intro entry hMem
  simpa using (List.mem_filter.mp hMem).2

/- Other names do not count the entries that are gone. -/
theorem valueAfter_without
    {name other : Text}
    (body : List Entry)
    (hOther : other ≠ name) :
    valueAfter other (without name body) =
      valueAfter other body := by
  refine valueAfter_congr ?_
  rw [without, List.filter_filter]
  refine List.filter_congr fun entry _ => ?_
  cases hNamed : entry.isNamed other with
  | false => rfl
  | true => simp [Entry.not_isNamed_of_ne hNamed hOther.symm]

theorem without_of_not_named
    {name : Text}
    {body : List Entry}
    (hBody : ∀ entry ∈ body, entry.isNamed name = false) :
    without name body = body :=
  List.filter_eq_self.mpr fun entry hMem => by
    rw [hBody entry hMem, Bool.not_false]

/-
  A body with a value for a key: the entries of other names,
  among which a new pair stands.
-/
structure IsPutInto
    (key : Text)
    (cell : Cell)
    (body after : List Entry) : Prop where
  self :
    ∀ earlier, valueAfter key after earlier = some cell.value
  others :
    ∀ other, other ≠ key →
      valueAfter other after = valueAfter other body

/- A pair put anywhere among the entries of other names. -/
theorem IsPutInto.of_pair
    {key : Text}
    {cell : Cell}
    {pair : Entry}
    {body after front back : List Entry}
    (hPair : pair.CountsAs (newPair key cell))
    (hAfter :
      ∀ name,
        valueAfter name after =
          valueAfter name (front ++ pair :: back))
    (hParts : front ++ back = without key body) :
    IsPutInto key cell body after := by
  have hBack :
      ∀ entry ∈ back, entry.isNamed key = false := by
    intro entry hMem
    have hWithout : entry ∈ without key body := by
      rw [← hParts]
      exact List.mem_append_right front hMem
    exact not_named_of_mem_without entry hWithout
  constructor
  case self =>
    intro earlier
    rw [hAfter, valueAfter_put hPair hBack, if_pos rfl]
  case others =>
    intro other hOther
    funext earlier
    rw [hAfter, valueAfter_put hPair hBack, if_neg hOther,
      hParts, valueAfter_without body hOther]

/- A pair that is inserted where its name is not yet. -/
theorem isPutInto_insertPair
    {key : Text}
    {cell : Cell}
    {pair : Entry}
    {body : List Entry}
    (hPair : pair.CountsAs (newPair key cell)) :
    IsPutInto key cell body
      (insertPair pair (without key body)) :=
  .of_pair hPair
    (fun name => valueAfter_insertPair name pair _)
    (List.take_append_drop _ _)

theorem drop_length_takeWhile
    {α : Type}
    (p : α → Bool)
    (entries : List α) :
    entries.drop (entries.takeWhile p).length =
      entries.dropWhile p := by
  calc
    _ = (entries.takeWhile p ++ entries.dropWhile p).drop
          (entries.takeWhile p).length := by
        rw [List.takeWhile_append_dropWhile]
    _ = entries.dropWhile p := List.drop_left

/- A pair in the place of all entries of its name. -/
theorem isPutInto_replaceTables
    (key : Text)
    (cell : Cell)
    (body : List Entry) :
    IsPutInto key cell body (replaceTables key cell body) := by
  have hPair : (newPair key cell).CountsAs (newPair key cell) :=
    ⟨rfl, fun _ => rfl⟩
  have hParts :
      (body.takeWhile fun entry => !entry.isNamed key) ++
          without key
            (body.dropWhile fun entry => !entry.isNamed key) =
        without key body := by
    have hFront :
        ∀ entry ∈
            body.takeWhile fun entry => !entry.isNamed key,
          entry.isNamed key = false := by
      intro entry hMem
      simpa using List.mem_takeWhile_imp hMem
    calc
      _ =
          without key
              (body.takeWhile fun entry =>
                !entry.isNamed key) ++
            without key
              (body.dropWhile fun entry =>
                !entry.isNamed key) := by
        rw [without_of_not_named hFront]
      _ = without key body := by
        rw [without, without, ← List.filter_append,
          List.takeWhile_append_dropWhile, without]
  unfold replaceTables
  simp only [drop_length_takeWhile]
  rw [← without]
  split
  case isTrue =>
    refine .of_pair hPair (fun _ => rfl) ?_
    rw [List.append_assoc, List.takeWhile_append_dropWhile,
      hParts]
  case isFalse =>
    rw [hParts]
    exact isPutInto_insertPair hPair

/- Another value for the pairs of a name. -/
theorem isPutInto_replacePair
    {key : Text}
    {cell : Cell}
    {body : List Entry}
    {label : Label}
    {separator : Text}
    {value : Value}
    {margin : Margin}
    (hLast :
      lastNamed? key body =
        some (.pair label separator value margin)) :
    IsPutInto key cell body (replacePair key cell body) := by
  constructor
  case self =>
    intro earlier
    rcases lastNamed?_eq_some_iff.mp hLast with
      ⟨hNamed, before, after, rfl, hAfter⟩
    have hLabel : label.name = key := by
      simpa [Entry.isNamed, Entry.name?] using hNamed
    suffices hFound :
        lastNamed? key (replacePair key cell
          (before ++ .pair label separator value margin :: after)) =
          some (.pair label separator (.cell cell) margin) from
      valueAfter_of_lastNamed? earlier hFound
    refine
      lastNamed?_eq_some_iff.mpr
        ⟨hNamed, replacePair key cell before,
          replacePair key cell after, ?_, ?_⟩
    · simp [replacePair, hLabel]
    · intro other hMem
      rcases List.mem_map.mp hMem with ⟨old, hOld, rfl⟩
      have hOldName := hAfter old hOld
      cases old with
      | pair label separator value margin =>
          dsimp only
          split <;> exact hOldName
      | blank text => exact hOldName
      | comment margin => exact hOldName
      | table label kind heading body => exact hOldName
      | elements label tables => exact hOldName
  case others =>
    intro other hOther
    refine valueAfter_map body ?_ ?_
    · intro entry _
      cases entry with
      | pair label separator value margin =>
          dsimp only
          split <;> rfl
      | blank text => rfl
      | comment margin => rfl
      | table label kind heading body => rfl
      | elements label tables => rfl
    · intro entry _ hNamed earlier
      cases entry with
      | pair label separator value margin =>
          have hLabel : label.name ≠ key := by
            rintro rfl
            rw [Entry.isNamed_iff, Entry.name?,
              Option.some.injEq] at hNamed
            exact hOther hNamed.symm
          simp [hLabel]
      | blank text => rfl
      | comment margin => rfl
      | table label kind heading body => rfl
      | elements label tables => rfl

theorem isPutInto_setPair
    (spaces key : Text)
    (cell : Cell)
    (body : List Entry) :
    IsPutInto key cell body (setPair spaces key cell body) := by
  unfold setPair
  split
  case h_1 hNone =>
    have hBody :=
      without_of_not_named (lastNamed?_eq_none_iff.mp hNone)
    have hPair :
        ((newPair key cell).mapIndent (withSpaces spaces)).CountsAs
          (newPair key cell) :=
      (newPair key cell).countsAs_mapIndent (withSpaces spaces)
    have hInserted : IsPutInto key cell body
        (insertPair
          ((newPair key cell).mapIndent (withSpaces spaces))
          (without key body)) :=
      isPutInto_insertPair hPair
    rwa [hBody] at hInserted
  case h_2 label separator value margin hPair =>
    exact isPutInto_replacePair hPair
  case h_3 =>
    exact isPutInto_replaceTables key cell body

------------------------------------------------------------
-- Tables Of One Name
------------------------------------------------------------

namespace IsPutInto

variable {key : Text}
variable {cell : Cell}
variable {body after : List Entry}

theorem append_left
    (front : List Entry)
    (hPut : IsPutInto key cell body after) :
    IsPutInto key cell (front ++ body) (front ++ after) where
  self earlier := by rw [valueAfter_append, hPut.self]
  others other hOther := by
    funext earlier
    rw [valueAfter_append, valueAfter_append,
      hPut.others other hOther]

/- Entries behind the new value lose the key. -/
theorem append_right
    (back : List Entry)
    (hPut : IsPutInto key cell body after) :
    IsPutInto key cell (body ++ back)
      (after ++ without key back) where
  self earlier := by
    rw [valueAfter_append, hPut.self,
      valueAfter_of_not_named _ not_named_of_mem_without]
  others other hOther := by
    funext earlier
    rw [valueAfter_append, valueAfter_append,
      hPut.others other hOther,
      valueAfter_without back hOther]

end IsPutInto

theorem entriesOf_cons
    (name : Text)
    (entry : Entry)
    (document : Document) :
    entriesOf name (entry :: document) =
      (if entry.isNamed name then entry.body else []) ++
        entriesOf name document := by
  rw [entriesOf, List.filter_cons]
  split
  case isTrue => rfl
  case isFalse => rfl

section Chosen

variable (name key : Text)
variable (cell : Cell)

/- A table loses the key behind the one that has its value. -/
def withoutKey (entry : Entry) : Entry :=
  if entry.isNamed name then withoutNamed key entry
  else entry

theorem name?_withoutKey (entry : Entry) :
    (withoutKey name key entry).name? = entry.name? := by
  unfold withoutKey
  split
  case isTrue => cases entry <;> rfl
  case isFalse => rfl

theorem isOneTable_withoutKey (entry : Entry) :
    (withoutKey name key entry).isOneTable =
      entry.isOneTable := by
  unfold withoutKey
  split
  case isTrue => cases entry <;> rfl
  case isFalse => rfl

theorem name?_setInTable (entry : Entry) :
    (setInTable key cell entry).name? = entry.name? := by
  rcases entry with _ | _ | ⟨_, _, _ | _, _⟩ | _ | _ <;> rfl

theorem isOneTable_setInTable (entry : Entry) :
    (setInTable key cell entry).isOneTable =
      entry.isOneTable := by
  rcases entry with _ | _ | ⟨_, _, _ | _, _⟩ | _ | _ <;> rfl

theorem body_withoutNamed (entry : Entry) :
    (withoutNamed key entry).body =
      without key entry.body := by
  cases entry <;> rfl

theorem isPutInto_body_setInTable
    {entry : Entry}
    (hTable : entry.isOneTable = true) :
    IsPutInto key cell entry.body
      (setInTable key cell entry).body := by
  cases entry with
  | table label kind heading body =>
      exact isPutInto_setPair _ key cell body
  | blank text => cases hTable
  | comment margin => cases hTable
  | pair label separator value margin => cases hTable
  | elements label tables => cases hTable

/- Tables of a name without the entries of a key. -/
theorem entriesOf_map_withoutKey (document : Document) :
    entriesOf name (document.map (withoutKey name key)) =
      without key (entriesOf name document) := by
  induction document with
  | nil => rfl
  | cons entry document ih =>
      rw [List.map_cons, entriesOf_cons, entriesOf_cons, ih,
        without, without, List.filter_append]
      rw [Entry.isNamed, name?_withoutKey, ← Entry.isNamed,
        withoutKey]
      split
      case isTrue => rw [body_withoutNamed, without]
      case isFalse => rfl

variable {name}

theorem setInChosen_zero
    {entry : Entry}
    (document : Document)
    (hNamed : entry.isNamed name = true) :
    setInChosen name key cell 0 (entry :: document) =
      setInTable key cell entry ::
        document.map (withoutKey name key) := by
  rw [setInChosen.eq_def]
  exact if_pos hNamed

theorem setInChosen_succ
    {entry : Entry}
    (index : Nat)
    (document : Document)
    (hNamed : entry.isNamed name = true) :
    setInChosen name key cell (index + 1)
        (entry :: document) =
      entry :: setInChosen name key cell index document := by
  rw [setInChosen.eq_def]
  exact if_pos hNamed

theorem setInChosen_other
    {entry : Entry}
    (index : Nat)
    (document : Document)
    (hNamed : ¬ entry.isNamed name = true) :
    setInChosen name key cell index (entry :: document) =
      entry :: setInChosen name key cell index document := by
  rw [setInChosen.eq_def]
  exact if_neg hNamed

/- One of the tables of a name takes the value of a key. -/
theorem isPutInto_setInChosen
    {index : Nat}
    {document : Document}
    (hTables :
      ∀ entry ∈ document,
        entry.isNamed name = true → entry.isOneTable = true)
    (hIndex :
      index < (document.filter (Entry.isNamed name)).length) :
    IsPutInto key cell (entriesOf name document)
      (entriesOf name
        (setInChosen name key cell index document)) := by
  induction document generalizing index with
  | nil => cases hIndex
  | cons entry document ih =>
      rcases List.forall_mem_cons.mp hTables with
        ⟨hEntry, hRest⟩
      rw [List.filter_cons] at hIndex
      rw [entriesOf_cons name entry]
      by_cases hNamed : entry.isNamed name = true
      · rw [if_pos hNamed, List.length_cons] at hIndex
        rw [if_pos hNamed]
        cases index with
        | zero =>
            rw [setInChosen_zero key cell document hNamed,
              entriesOf_cons, Entry.isNamed,
              name?_setInTable, ← Entry.isNamed,
              if_pos hNamed, entriesOf_map_withoutKey]
            exact
              (isPutInto_body_setInTable key cell
                (hEntry hNamed)).append_right _
        | succ index =>
            rw [setInChosen_succ key cell index document hNamed,
              entriesOf_cons, if_pos hNamed]
            have hNext :=
              ih hRest (Nat.lt_of_succ_lt_succ hIndex)
            exact hNext.append_left entry.body
      · rw [if_neg hNamed] at hIndex
        rw [if_neg hNamed,
          setInChosen_other key cell index document hNamed,
          entriesOf_cons, if_neg hNamed]
        exact ih hRest hIndex

/- The name of an entry, and whether it is a table. -/
def Entry.shape (entry : Entry) : Option Text × Bool :=
  (entry.name?, entry.isOneTable)

theorem map_shape_setInChosen
    (index : Nat)
    (document : Document) :
    (setInChosen name key cell index document).map
        Entry.shape =
      document.map Entry.shape := by
  induction document generalizing index with
  | nil => rfl
  | cons entry document ih =>
      by_cases hNamed : entry.isNamed name = true
      · cases index with
        | zero =>
            rw [setInChosen_zero key cell document hNamed,
              List.map_cons, List.map_cons, List.map_map]
            congr 1
            · rw [Entry.shape, name?_setInTable,
                isOneTable_setInTable, Entry.shape]
            · refine List.map_congr_left fun other _ => ?_
              rw [Function.comp_apply, Entry.shape,
                name?_withoutKey, isOneTable_withoutKey,
                Entry.shape]
        | succ index =>
            rw [setInChosen_succ key cell index document hNamed,
              List.map_cons, List.map_cons, ih]
      · rw [setInChosen_other key cell index document hNamed,
          List.map_cons, List.map_cons, ih]

theorem map_withoutKey_of_not_named
    {document : Document}
    (hDocument :
      ∀ entry ∈ document, entry.isNamed name = false) :
    document.map (withoutKey name key) = document := by
  have hSame :
      ∀ entry ∈ document, withoutKey name key entry = id entry := by
    intro entry hMem
    rw [withoutKey, hDocument entry hMem]
    rfl
  rw [List.map_congr_left hSame, List.map_id]

theorem filter_map_withoutKey
    {other : Text}
    (hOther : other ≠ name)
    (document : Document) :
    (document.map (withoutKey name key)).filter
        (Entry.isNamed other) =
      document.filter (Entry.isNamed other) := by
  have hNames :
      Entry.isNamed other ∘ withoutKey name key =
        Entry.isNamed other := by
    funext entry
    rw [Function.comp_apply, Entry.isNamed,
      name?_withoutKey, Entry.isNamed]
  rw [List.filter_map, hNames]
  refine map_withoutKey_of_not_named key fun entry hMem => ?_
  exact
    Entry.not_isNamed_of_ne (List.mem_filter.mp hMem).2
      hOther.symm

/- Entries of other names stay as they are. -/
theorem filter_setInChosen
    {other : Text}
    (hOther : other ≠ name)
    (index : Nat)
    (document : Document) :
    (setInChosen name key cell index document).filter
        (Entry.isNamed other) =
      document.filter (Entry.isNamed other) := by
  induction document generalizing index with
  | nil => rfl
  | cons entry document ih =>
      by_cases hNamed : entry.isNamed name = true
      · have hFirst := Entry.not_isNamed_of_ne hNamed hOther
        rw [List.filter_cons_of_neg (by simp [hFirst])]
        cases index with
        | zero =>
            rw [setInChosen_zero key cell document hNamed,
              List.filter_cons_of_neg,
              filter_map_withoutKey key hOther]
            rw [Entry.isNamed, name?_setInTable,
              ← Entry.isNamed, hFirst]
            exact Bool.false_ne_true
        | succ index =>
            rw [setInChosen_succ key cell index document hNamed,
              List.filter_cons_of_neg (by simp [hFirst]), ih]
      · rw [setInChosen_other key cell index document hNamed,
          List.filter_cons, List.filter_cons, ih]

/- Entries of other names come before the chosen table. -/
theorem setInChosen_append
    {before : List Entry}
    (index : Nat)
    (document : Document)
    (hBefore :
      ∀ entry ∈ before, entry.isNamed name = false) :
    setInChosen name key cell index (before ++ document) =
      before ++ setInChosen name key cell index document := by
  induction before with
  | nil => rfl
  | cons entry before ih =>
      rcases List.forall_mem_cons.mp hBefore with
        ⟨hEntry, hRest⟩
      rw [List.cons_append, setInChosen_other, ih hRest,
        List.cons_append]
      rw [hEntry]
      exact Bool.false_ne_true

/- What is not kept as it is, is a table. -/
theorem mem_setInChosen
    {index : Nat}
    {document : Document}
    (hTables :
      ∀ entry ∈ document,
        entry.isNamed name = true → entry.isOneTable = true) :
    ∀ entry ∈ setInChosen name key cell index document,
      entry ∈ document ∨ entry.isOneTable = true := by
  induction document generalizing index with
  | nil => exact List.forall_mem_nil _
  | cons first document ih =>
      rcases List.forall_mem_cons.mp hTables with
        ⟨hFirst, hRest⟩
      have hLater
          {index : Nat} :
          ∀ entry ∈
              first :: setInChosen name key cell index document,
            entry ∈ first :: document ∨
              entry.isOneTable = true := by
        refine
          List.forall_mem_cons.mpr
            ⟨.inl List.mem_cons_self, fun entry hMem => ?_⟩
        exact
          (ih hRest entry hMem).imp_left
            (List.mem_cons_of_mem first)
      by_cases hNamed : first.isNamed name = true
      · cases index with
        | zero =>
            rw [setInChosen_zero key cell document hNamed]
            refine List.forall_mem_cons.mpr ⟨.inr ?_, ?_⟩
            · rw [isOneTable_setInTable, hFirst hNamed]
            · intro entry hMem
              rcases List.mem_map.mp hMem with
                ⟨old, hOld, rfl⟩
              by_cases hOther : old.isNamed name = true
              · rw [isOneTable_withoutKey]
                exact .inr (hRest old hOld hOther)
              · rw [withoutKey, if_neg hOther]
                exact .inl (List.mem_cons_of_mem first hOld)
        | succ index =>
            rw [setInChosen_succ key cell index document hNamed]
            exact hLater
      · rw [setInChosen_other key cell index document hNamed]
        exact hLater

end Chosen

end Layout

end Toml

end ScriptWorkspace
