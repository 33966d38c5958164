import Mathlib.Data.List.Perm.Basic
import ScriptWorkspace.Toml.Printer

/-
  Tables in the order in which they are written.

  The lines of a table come before the tables in it, so this
  is the order of a table that is read back. It holds the
  same members: only those that become tables have changed
  their places, and not among each other.

  Main declarations:
    * `Toml.arranged`
    * `Toml.arranged_of_plain`
    * `Toml.arranged_of_tables`
    * `Toml.Alike`
    * `Toml.alike_arranged`
-/

namespace ScriptWorkspace

namespace Toml

------------------------------------------------------------
-- Arrangement
------------------------------------------------------------

/- The members that are written as lines. -/
def plainMembers (members : Table) : Table :=
  members.filter fun (_, value) => !isSpread value

mutual

/- A value that is written as tables, each in order. -/
def arrangedValue : Toml → Toml
  | .table members =>
    .table (plainMembers members ++ spreadMembers members)
  | .array items => .array (arrangedItems items)
  | value => value

/- The members that are written as tables. -/
def spreadMembers : List (Text × Toml) → List (Text × Toml)
  | [] => []
  | (key, value) :: members =>
    if isSpread value then
      (key, arrangedValue value) :: spreadMembers members
    else
      spreadMembers members

/- The items of an array of tables. -/
def arrangedItems : List Toml → List Toml
  | [] => []
  | item :: items => arrangedValue item :: arrangedItems items

end

/- The table in the order in which it is written. -/
def arranged (members : Table) : Table :=
  plainMembers members ++ spreadMembers members

theorem spreadMembers_append (members others : Table) :
    spreadMembers (members ++ others) =
      spreadMembers members ++ spreadMembers others := by
  induction members with
  | nil => rfl
  | cons member members ih =>
      rw [List.cons_append, spreadMembers, spreadMembers, ih]
      split <;> rfl

theorem arranged_append_tables
    {members others : Table}
    (hTables :
      ∀ member ∈ others, isSpread member.2 = true) :
    arranged (members ++ others) =
      arranged members ++ arranged others := by
  have hNone : plainMembers others = [] :=
    List.filter_eq_nil_iff.mpr fun member hMem => by
      simp [hTables member hMem]
  rw [arranged, arranged, arranged, spreadMembers_append,
    plainMembers, List.filter_append, ← plainMembers,
    ← plainMembers, hNone]
  simp

/- Lines alone keep their order. -/
theorem arranged_of_plain
    {members : Table}
    (hPlain :
      ∀ member ∈ members, isSpread member.2 = false) :
    arranged members = members := by
  have hAll : plainMembers members = members :=
    List.filter_eq_self.mpr fun member hMem => by
      simp [hPlain member hMem]
  have hNone : spreadMembers members = [] := by
    clear hAll
    induction members with
    | nil => rfl
    | cons member members ih =>
        rcases List.forall_mem_cons.mp hPlain with
          ⟨hValue, hRest⟩
        rw [spreadMembers, if_neg (by simp [hValue]),
          ih hRest]
  rw [arranged, hAll, hNone, List.append_nil]

/- Tables alone keep their order. -/
theorem arranged_of_tables
    {α : Type}
    (entries : List (Text × α))
    (inner : α → Table) :
    arranged
        (entries.map fun entry =>
          (entry.1, .table (inner entry.2))) =
      entries.map fun entry =>
        (entry.1, .table (arranged (inner entry.2))) := by
  induction entries with
  | nil => rfl
  | cons entry entries ih =>
      rw [List.map_cons, ← List.singleton_append,
        arranged_append_tables, ih]
      · rfl
      · intro member hMem
        rcases List.mem_map.mp hMem with ⟨_, _, rfl⟩
        rfl

------------------------------------------------------------
-- Equal Tables
------------------------------------------------------------

mutual

/-
  Two values say the same: their tables have the same members
  in whatever order.
-/
inductive Alike : Toml → Toml → Prop
  | same (value : Toml) : Alike value value
  | array
      {items others : List Toml}
      (hItems : AlikeItems items others) :
      Alike (.array items) (.array others)
  | table
      {members between others : List (Text × Toml)}
      (hOrder : members.Perm between)
      (hMembers : AlikeMembers between others) :
      Alike (.table members) (.table others)

/- The items say the same one by one. -/
inductive AlikeItems : List Toml → List Toml → Prop
  | nil : AlikeItems [] []
  | cons
      {item other : Toml}
      {items others : List Toml}
      (hItem : Alike item other)
      (hItems : AlikeItems items others) :
      AlikeItems (item :: items) (other :: others)

/- The members have the same keys and say the same. -/
inductive AlikeMembers :
    List (Text × Toml) → List (Text × Toml) → Prop
  | nil : AlikeMembers [] []
  | cons
      {value other : Toml}
      {members others : List (Text × Toml)}
      (key : Text)
      (hValue : Alike value other)
      (hMembers : AlikeMembers members others) :
      AlikeMembers ((key, value) :: members)
        ((key, other) :: others)

end

theorem AlikeMembers.append_left
    (front : Table)
    {members others : Table}
    (hMembers : AlikeMembers members others) :
    AlikeMembers (front ++ members) (front ++ others) := by
  induction front with
  | nil => exact hMembers
  | cons member front ih =>
      exact .cons member.1 (.same member.2) ih

mutual

theorem alike_arrangedValue :
    (value : Toml) → Alike value (arrangedValue value)
  | .table members => by
      have hOrder :
          members.Perm
            (plainMembers members ++
              members.filter fun (_, value) =>
                isSpread value) :=
        (List.perm_append_comm.trans
          (List.filter_append_perm _ members)).symm
      exact
        .table hOrder
          ((alike_spreadMembers members).append_left _)
  | .array items => .array (alike_arrangedItems items)
  | .string _ => .same _
  | .int _ => .same _
  | .float _ => .same _
  | .bool _ => .same _
  | .date _ => .same _
  | .time _ => .same _
  | .dateTime _ _ _ => .same _

theorem alike_spreadMembers :
    (members : List (Text × Toml)) →
      AlikeMembers
        (members.filter fun (_, value) => isSpread value)
        (spreadMembers members)
  | [] => .nil
  | (key, value) :: members => by
      cases hSpread : isSpread value with
      | true =>
          simp only [List.filter_cons, hSpread, spreadMembers]
          exact
            .cons key (alike_arrangedValue value)
              (alike_spreadMembers members)
      | false =>
          simp only [List.filter_cons, hSpread, spreadMembers]
          exact alike_spreadMembers members

theorem alike_arrangedItems :
    (items : List Toml) →
      AlikeItems items (arrangedItems items)
  | [] => .nil
  | item :: items =>
      .cons (alike_arrangedValue item)
        (alike_arrangedItems items)

end

/- The order of a table does not change what it says. -/
theorem alike_arranged (members : Table) :
    Alike (.table members) (.table (arranged members)) :=
  alike_arrangedValue (.table members)

end Toml

end ScriptWorkspace
