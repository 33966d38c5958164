import ScriptWorkspace.Proofs.Toml.Arrangement
import ScriptWorkspace.Proofs.Toml.Members

/-
  Tables in which each key stands once.

  What a key has in such a table does not depend on the order
  of the members, so it is alike in two tables that are alike.
  The tables that entries and inline tables describe are such
  tables, as a member takes the place of the one before it
  with the same key.

  Main declarations:
    * `Toml.HasDistinctKeys`
    * `Toml.HasDistinctKeys.find?_eq_some_iff`
    * `Toml.Alike.rel_find?`
    * `Toml.Alike.bind_text?_find?`
    * `Layout.hasDistinctKeys_bodyTable`
    * `Layout.hasDistinctKeys_membersTable`
-/

namespace ScriptWorkspace

namespace Toml

------------------------------------------------------------
-- Distinct Keys
------------------------------------------------------------

/- No key stands in the table twice. -/
def HasDistinctKeys (members : Table) : Prop :=
  (members.map Prod.fst).Nodup

theorem hasDistinctKeys_cons_iff
    {member : Text × Toml}
    {members : Table} :
    HasDistinctKeys (member :: members) ↔
      member.1 ∉ members.map Prod.fst ∧
        HasDistinctKeys members :=
  List.nodup_cons

/- Putting a member in adds at most its own key. -/
theorem mem_keys_put
    {key name : Text}
    {value : Toml}
    {members : Table}
    (hMem : name ∈ (put key value members).map Prod.fst) :
    name = key ∨ name ∈ members.map Prod.fst := by
  induction members with
  | nil => exact .inl (List.mem_singleton.mp hMem)
  | cons member members ih =>
      rw [put] at hMem
      split at hMem
      case isTrue => exact .inr hMem
      case isFalse =>
        rcases List.mem_cons.mp hMem with hFirst | hRest
        · exact .inr (List.mem_cons.mpr (.inl hFirst))
        · exact (ih hRest).imp_right (List.mem_cons_of_mem _)

theorem HasDistinctKeys.put
    {members : Table}
    (hMembers : HasDistinctKeys members)
    (key : Text)
    (value : Toml) :
    HasDistinctKeys (put key value members) := by
  induction members with
  | nil => exact List.pairwise_singleton _ key
  | cons member members ih =>
      rcases hasDistinctKeys_cons_iff.mp hMembers with
        ⟨hFirst, hRest⟩
      rw [Toml.put]
      split
      case isTrue => exact hMembers
      case isFalse hOther =>
        refine hasDistinctKeys_cons_iff.mpr ⟨?_, ih hRest⟩
        intro hMem
        rcases mem_keys_put hMem with hSame | hIn
        · exact hOther hSame
        · exact hFirst hIn

/- With distinct keys a key has the value it stands with. -/
theorem HasDistinctKeys.find?_eq_some_iff
    {members : Table}
    (hMembers : HasDistinctKeys members)
    {key : Text}
    {value : Toml} :
    find? key members = some value ↔
      (key, value) ∈ members := by
  constructor
  · intro hFound
    rcases List.lookup_eq_some_iff.mp hFound with
      ⟨before, after, rfl, _⟩
    exact List.mem_append_cons_self
  · intro hMem
    rcases List.append_of_mem hMem with ⟨before, after, rfl⟩
    refine
      List.lookup_eq_some_iff.mpr ⟨before, after, rfl, ?_⟩
    intro member hBefore
    have hKeys :
        (before.map Prod.fst ++
            key :: after.map Prod.fst).Nodup := by
      simpa [HasDistinctKeys] using hMembers
    have hApart := (List.nodup_append.mp hKeys).2.2
    rw [bne_iff_ne]
    exact
      (hApart member.1 (List.mem_map_of_mem hBefore) key
        List.mem_cons_self).symm

/- The order of the members does not matter to a key. -/
theorem HasDistinctKeys.find?_of_perm
    {members others : Table}
    (hMembers : HasDistinctKeys members)
    (hOrder : members.Perm others)
    (key : Text) :
    find? key members = find? key others := by
  have hOthers : HasDistinctKeys others :=
    (hOrder.map Prod.fst).nodup hMembers
  refine Option.ext fun value => ?_
  rw [hMembers.find?_eq_some_iff, hOthers.find?_eq_some_iff,
    hOrder.mem_iff]

------------------------------------------------------------
-- Tables That Are Alike
------------------------------------------------------------

/- What is alike one by one is alike at each key. -/
theorem AlikeMembers.rel_find?
    {members others : Table}
    (hMembers : AlikeMembers members others)
    (key : Text) :
    Option.Rel Alike (find? key members)
      (find? key others) := by
  induction members generalizing others with
  | nil =>
      cases hMembers
      exact .none
  | cons member members ih =>
      rcases hMembers with _ | ⟨name, hValue, hRest⟩
      rw [Toml.find?, Toml.find?, List.lookup_cons,
        List.lookup_cons]
      cases hSame : key == name with
      | true => exact .some hValue
      | false => exact ih hRest

/- Tables that are alike have alike values at each key. -/
theorem Alike.rel_find?
    {members others : Table}
    (hAlike : Alike (.table members) (.table others))
    (hMembers : HasDistinctKeys members)
    (key : Text) :
    Option.Rel Alike (find? key members)
      (find? key others) := by
  cases hAlike with
  | same =>
      cases find? key members with
      | none => exact .none
      | some value => exact .some (.same value)
  | table hOrder hRest =>
      rw [hMembers.find?_of_perm hOrder]
      exact hRest.rel_find? key

/- Values that are alike are the same text, or no text. -/
theorem Alike.text?_eq
    {value other : Toml}
    (hAlike : Alike value other) :
    other.text? = value.text? := by
  cases hAlike with
  | same => rfl
  | array hItems => rfl
  | table hOrder hMembers => rfl

/- Values that are alike are both tables, or both are none. -/
theorem Alike.table?_eq_none_iff
    {value other : Toml}
    (hAlike : Alike value other) :
    other.table? = none ↔ value.table? = none := by
  cases hAlike with
  | same => rfl
  | array hItems => rfl
  | table hOrder hMembers => exact ⟨nofun, nofun⟩

theorem Alike.bind_text?_find?
    {members others : Table}
    (hAlike : Alike (.table members) (.table others))
    (hMembers : HasDistinctKeys members)
    (key : Text) :
    (find? key others).bind text? =
      (find? key members).bind text? := by
  have hValues := hAlike.rel_find? hMembers key
  revert hValues
  generalize find? key members = value
  generalize find? key others = other
  rintro (hValue | _)
  · exact hValue.text?_eq
  · rfl

namespace Layout

------------------------------------------------------------
-- Described Tables
------------------------------------------------------------

theorem hasDistinctKeys_addEntry
    {members : Table}
    (hMembers : HasDistinctKeys members)
    (entry : Entry) :
    HasDistinctKeys (addEntry members entry) := by
  cases entry with
  | blank text => exact hMembers
  | comment margin => exact hMembers
  | pair label separator value margin =>
      exact hMembers.put label.name value.value
  | table label kind heading body =>
      exact hMembers.put label.name _
  | elements label tables =>
      exact hMembers.put label.name _

/- The table of a body has each key once. -/
theorem hasDistinctKeys_bodyTable (body : List Entry) :
    HasDistinctKeys (bodyTable body) := by
  rw [bodyTable, addEntries_eq_foldl]
  exact
    List.foldlRecOn body addEntry List.nodup_nil
      fun _ hMembers entry _ =>
        hasDistinctKeys_addEntry hMembers entry

theorem hasDistinctKeys_putAt
    {members : Table}
    (hMembers : HasDistinctKeys members)
    (value : Toml)
    (names : List Text) :
    HasDistinctKeys (putAt value names members) := by
  rcases names with _ | ⟨name, _ | ⟨next, names⟩⟩
  · exact hMembers
  · exact hMembers.put name value
  · exact hMembers.put name _

/- The table of an inline table has each key once. -/
theorem hasDistinctKeys_membersTable (members : List Member) :
    HasDistinctKeys (membersTable members) := by
  rw [membersTable_eq_foldl]
  refine
    List.foldlRecOn members putMember List.nodup_nil
      fun table hTable member _ => ?_
  cases member with
  | blank text => exact hTable
  | pair labels indent separator cell =>
      exact hasDistinctKeys_putAt hTable cell.value _

end Layout

end Toml

end ScriptWorkspace
