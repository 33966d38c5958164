import ScriptWorkspace.Toml.Layout.Edit

/-
  What a name has in a table that entries describe.

  Only the entries of a name count for its value, one after
  the other: a pair or an array of tables takes the place of
  what was there, and a table is put together with a table
  that was there. So the last pair of a name decides.

  Main declarations:
    * `Toml.find?_put`
    * `Layout.Entry.valueOver`
    * `Layout.valueAfter`
    * `Layout.find?_addEntries`
    * `Layout.valueAfter_append`
    * `Layout.valueAfter_of_lastNamed?`
    * `Layout.valueAfter_tables`
-/

namespace ScriptWorkspace

namespace Toml

------------------------------------------------------------
-- Tables
------------------------------------------------------------

/- Putting a member in changes what one key has. -/
theorem find?_put
    (key other : Text)
    (value : Toml)
    (table : Table) :
    find? other (put key value table) =
      if other = key then some value
      else find? other table := by
  induction table with
  | nil =>
      by_cases hOther : other = key
      · simp [put, find?, hOther]
      · simp [put, find?, hOther, List.lookup_cons,
          beq_false_of_ne hOther]
  | cons member table ih =>
      rcases member with ⟨name, old⟩
      simp only [find?] at ih
      by_cases hName : name = key
      · subst hName
        by_cases hOther : other = name
        · simp [put, find?, hOther]
        · simp [put, find?, hOther, List.lookup_cons,
            beq_false_of_ne hOther]
      · by_cases hSame : other = name
        · subst hSame
          simp [put, find?, hName]
        · simp [put, find?, hName, List.lookup_cons,
            beq_false_of_ne hSame, ih]

namespace Layout

------------------------------------------------------------
-- Entries
------------------------------------------------------------

theorem Entry.isNamed_iff
    {name : Text}
    {entry : Entry} :
    entry.isNamed name = true ↔ entry.name? = some name := by
  simp [Entry.isNamed]

/- An entry has one name at most. -/
theorem Entry.not_isNamed_of_ne
    {name other : Text}
    {entry : Entry}
    (hNamed : entry.isNamed name = true)
    (hOther : other ≠ name) :
    entry.isNamed other = false := by
  rw [Entry.isNamed_iff] at hNamed
  simp [Entry.isNamed, hNamed, hOther.symm]

/- What the name of an entry has after it. -/
def Entry.valueOver (earlier : Option Toml) :
    Entry → Option Toml
  | .blank _ => earlier
  | .comment _ => earlier
  | .pair _ _ value _ => some value.value
  | .table _ _ _ body =>
    let members := (earlier.bind Toml.table?).getD []
    some (.table (addEntries members body))
  | .elements _ tables => some (.array (elementTables tables))

theorem find?_addEntry
    (name : Text)
    (members : Table)
    (entry : Entry) :
    find? name (addEntry members entry) =
      if entry.isNamed name then
        entry.valueOver (find? name members)
      else
        find? name members := by
  cases entry with
  | blank text => rfl
  | comment margin => rfl
  | pair label separator value margin =>
      simp only [addEntry, find?_put, Entry.isNamed,
        Entry.name?, beq_iff_eq, Option.some.injEq,
        eq_comm (a := name)]
      rfl
  | table label kind heading body =>
      simp only [addEntry, find?_put, Entry.isNamed,
        Entry.name?, beq_iff_eq, Option.some.injEq,
        eq_comm (a := name)]
      split
      case isTrue hName =>
        subst hName
        rfl
      case isFalse => rfl
  | elements label tables =>
      simp only [addEntry, find?_put, Entry.isNamed,
        Entry.name?, beq_iff_eq, Option.some.injEq,
        eq_comm (a := name)]
      rfl

------------------------------------------------------------
-- Bodies
------------------------------------------------------------

/- What a name has after entries, from what it had before. -/
def valueAfter
    (name : Text)
    (entries : List Entry)
    (earlier : Option Toml) : Option Toml :=
  (entries.filter (Entry.isNamed name)).foldl
    Entry.valueOver earlier

theorem addEntries_eq_foldl
    (members : Table)
    (entries : List Entry) :
    addEntries members entries =
      entries.foldl addEntry members := by
  induction entries generalizing members with
  | nil => rfl
  | cons entry entries ih => exact ih (addEntry members entry)

/- Only the entries of a name count for its value. -/
theorem find?_addEntries
    (name : Text)
    (members : Table)
    (entries : List Entry) :
    find? name (addEntries members entries) =
      valueAfter name entries (find? name members) := by
  rw [addEntries_eq_foldl]
  induction entries generalizing members with
  | nil => rfl
  | cons entry entries ih =>
      rw [List.foldl_cons, ih, find?_addEntry, valueAfter,
        valueAfter, List.filter_cons]
      split
      case isTrue => rfl
      case isFalse => rfl

theorem find?_bodyTable
    (name : Text)
    (body : List Entry) :
    find? name (bodyTable body) = valueAfter name body none :=
  find?_addEntries name [] body

theorem addEntries_append
    (members : Table)
    (front back : List Entry) :
    addEntries members (front ++ back) =
      addEntries (addEntries members front) back := by
  simp only [addEntries_eq_foldl, List.foldl_append]

theorem valueAfter_cons
    (name : Text)
    (entry : Entry)
    (entries : List Entry)
    (earlier : Option Toml) :
    valueAfter name (entry :: entries) earlier =
      valueAfter name entries
        (if entry.isNamed name then entry.valueOver earlier
          else earlier) := by
  rw [valueAfter, valueAfter, List.filter_cons]
  split
  case isTrue => rfl
  case isFalse => rfl

theorem valueAfter_append
    (name : Text)
    (front back : List Entry)
    (earlier : Option Toml) :
    valueAfter name (front ++ back) earlier =
      valueAfter name back (valueAfter name front earlier) := by
  rw [valueAfter, valueAfter, valueAfter, List.filter_append,
    List.foldl_append]

/- Entries of other names leave what was there. -/
theorem valueAfter_of_not_named
    {name : Text}
    {entries : List Entry}
    (earlier : Option Toml)
    (hEntries :
      ∀ entry ∈ entries, entry.isNamed name = false) :
    valueAfter name entries earlier = earlier := by
  have hNone : entries.filter (Entry.isNamed name) = [] := by
    simpa [List.filter_eq_nil_iff] using hEntries
  rw [valueAfter, hNone, List.foldl_nil]

/- Entries with the same ones of a name. -/
theorem valueAfter_congr
    {name : Text}
    {entries others : List Entry}
    (hEntries :
      entries.filter (Entry.isNamed name) =
        others.filter (Entry.isNamed name)) :
    valueAfter name entries = valueAfter name others := by
  funext earlier
  rw [valueAfter, valueAfter, hEntries]

/- What is changed in entries but their names and values. -/
theorem valueAfter_map
    {name : Text}
    {change : Entry → Entry}
    (entries : List Entry)
    (hNamed :
      ∀ entry ∈ entries,
        (change entry).isNamed name = entry.isNamed name)
    (hValue :
      ∀ entry ∈ entries,
        entry.isNamed name = true →
          ∀ earlier,
            (change entry).valueOver earlier =
              entry.valueOver earlier) :
    valueAfter name (entries.map change) =
      valueAfter name entries := by
  funext earlier
  induction entries generalizing earlier with
  | nil => rfl
  | cons entry entries ih =>
      have hFirst := hNamed entry List.mem_cons_self
      have hRest :=
        ih
          (fun other hMem =>
            hNamed other (List.mem_cons_of_mem _ hMem))
          (fun other hMem =>
            hValue other (List.mem_cons_of_mem _ hMem))
      rw [List.map_cons, valueAfter_cons, valueAfter_cons,
        hFirst, hRest]
      split
      case isTrue hName =>
        rw [hValue entry List.mem_cons_self hName]
      case isFalse => rfl

------------------------------------------------------------
-- Last Entries
------------------------------------------------------------

theorem lastNamed?_eq_none_iff
    {name : Text}
    {body : List Entry} :
    lastNamed? name body = none ↔
      ∀ entry ∈ body, entry.isNamed name = false := by
  simp [lastNamed?]

/- The last entry of a name, and what is around it. -/
theorem lastNamed?_eq_some_iff
    {name : Text}
    {body : List Entry}
    {entry : Entry} :
    lastNamed? name body = some entry ↔
      entry.isNamed name = true ∧
        ∃ before after,
          body = before ++ entry :: after ∧
            ∀ other ∈ after, other.isNamed name = false := by
  rw [lastNamed?, List.find?_eq_some_iff_append]
  refine and_congr_right fun _ => ?_
  constructor
  · rintro ⟨after, before, hBody, hAfter⟩
    refine ⟨before.reverse, after.reverse, ?_, ?_⟩
    · rw [← List.reverse_reverse body, hBody]
      simp
    · intro other hMem
      simpa using hAfter other (List.mem_reverse.mp hMem)
  · rintro ⟨before, after, rfl, hAfter⟩
    refine ⟨after.reverse, before.reverse, by simp, ?_⟩
    intro other hMem
    simpa using hAfter other (List.mem_reverse.mp hMem)

theorem lastNamed?_mem
    {name : Text}
    {body : List Entry}
    {entry : Entry}
    (hLast : lastNamed? name body = some entry) :
    entry ∈ body ∧ entry.isNamed name = true := by
  rcases lastNamed?_eq_some_iff.mp hLast with
    ⟨hNamed, before, after, rfl, _⟩
  exact ⟨by simp, hNamed⟩

/- What a name has at its last entry stays. -/
theorem valueAfter_of_lastNamed?
    {name : Text}
    {body : List Entry}
    {label : Label}
    {separator : Text}
    {value : Value}
    {margin : Margin}
    (earlier : Option Toml)
    (hLast :
      lastNamed? name body =
        some (.pair label separator value margin)) :
    valueAfter name body earlier = some value.value := by
  rcases lastNamed?_eq_some_iff.mp hLast with
    ⟨hNamed, before, after, rfl, hAfter⟩
  rw [valueAfter_append, valueAfter_cons, if_pos hNamed,
    valueAfter_of_not_named _ hAfter]
  rfl

------------------------------------------------------------
-- Tables In Bodies
------------------------------------------------------------

/- The entries of the tables of a name in a body. -/
def entriesOf
    (name : Text)
    (body : List Entry) : List Entry :=
  (body.filter (Entry.isNamed name)).flatMap Entry.body

/- All entries of a name are tables, and there are some. -/
structure HasTables
    (name : Text)
    (body : List Entry) : Prop where
  some : ∃ entry ∈ body, entry.isNamed name = true
  tables :
    ∀ entry ∈ body,
      entry.isNamed name = true → entry.isOneTable = true

theorem Entry.valueOver_of_isOneTable
    {entry : Entry}
    (hTable : entry.isOneTable = true)
    (earlier : Option Toml) :
    entry.valueOver earlier =
      some
        (.table
          (addEntries ((earlier.bind Toml.table?).getD [])
            entry.body)) := by
  cases entry with
  | table label kind heading body => rfl
  | blank text => cases hTable
  | comment margin => cases hTable
  | pair label separator value margin => cases hTable
  | elements label tables => cases hTable

/- Tables of one name are one table of all their entries. -/
theorem foldl_valueOver_tables
    {tables : List Entry}
    (members : Table)
    (hTables :
      ∀ entry ∈ tables, entry.isOneTable = true) :
    tables.foldl Entry.valueOver (some (.table members)) =
      some
        (.table
          (addEntries members (tables.flatMap Entry.body))) := by
  induction tables generalizing members with
  | nil => rfl
  | cons entry tables ih =>
      rcases List.forall_mem_cons.mp hTables with
        ⟨hEntry, hRest⟩
      rw [List.foldl_cons,
        Entry.valueOver_of_isOneTable hEntry,
        List.flatMap_cons, addEntries_append]
      exact ih _ hRest

theorem valueAfter_tables
    {name : Text}
    {body : List Entry}
    (hTables : HasTables name body) :
    valueAfter name body none =
      some (.table (bodyTable (entriesOf name body))) := by
  rw [valueAfter, entriesOf, bodyTable]
  have hAll :
      ∀ entry ∈ body.filter (Entry.isNamed name),
        entry.isOneTable = true := by
    intro entry hMem
    rcases List.mem_filter.mp hMem with ⟨hIn, hNamed⟩
    exact hTables.tables entry hIn hNamed
  cases hNamed : body.filter (Entry.isNamed name) with
  | nil =>
      rcases hTables.some with ⟨entry, hMem, hEntry⟩
      exact absurd hEntry
        (List.filter_eq_nil_iff.mp hNamed entry hMem)
  | cons entry tables =>
      rw [hNamed] at hAll
      rcases List.forall_mem_cons.mp hAll with
        ⟨hEntry, hRest⟩
      rw [List.foldl_cons,
        Entry.valueOver_of_isOneTable hEntry,
        foldl_valueOver_tables _ hRest, List.flatMap_cons,
        addEntries_append]
      rfl

end Layout

end Toml

end ScriptWorkspace
