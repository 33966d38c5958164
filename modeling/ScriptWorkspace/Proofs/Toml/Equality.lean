import ScriptWorkspace.Toml.Value

/-
  Equality of values.

  A value holds lists of values, so its equality is decided
  along with that of items and of members. What a document
  says can then be compared by evaluation.

  Main declarations:
    * `Toml.same`
    * `Toml.same_iff`
-/

namespace ScriptWorkspace

namespace Toml

------------------------------------------------------------
-- Comparison
------------------------------------------------------------

mutual

/- The values are of one kind and say the same. -/
def same : Toml → Toml → Bool
  | .string text, .string other => text == other
  | .int value, .int other => value == other
  | .float value, .float other => value == other
  | .bool value, .bool other => value == other
  | .date day, .date other => day == other
  | .time clock, .time other => clock == other
  | .dateTime day clock offset,
    .dateTime otherDay otherClock otherOffset =>
    day == otherDay && clock == otherClock &&
      offset == otherOffset
  | .array items, .array others => sameItems items others
  | .table members, .table others =>
    sameMembers members others
  | _, _ => false

/- The items are the same one by one. -/
def sameItems : List Toml → List Toml → Bool
  | [], [] => true
  | item :: items, other :: others =>
    same item other && sameItems items others
  | _, _ => false

/- The members have the same keys and values, in order. -/
def sameMembers : Table → Table → Bool
  | [], [] => true
  | (key, value) :: members, (otherKey, other) :: others =>
    key == otherKey && same value other &&
      sameMembers members others
  | _, _ => false

end

------------------------------------------------------------
-- Equality
------------------------------------------------------------

mutual

theorem same_iff :
    (value other : Toml) →
      (same value other = true ↔ value = other)
  | .string text, other => by cases other <;> simp [same]
  | .int value, other => by cases other <;> simp [same]
  | .float value, other => by cases other <;> simp [same]
  | .bool value, other => by cases other <;> simp [same]
  | .date day, other => by cases other <;> simp [same]
  | .time clock, other => by cases other <;> simp [same]
  | .dateTime day clock offset, other => by
      cases other <;> simp [same, and_assoc]
  | .array items, other => by
      cases other <;> simp [same, sameItems_iff]
  | .table members, other => by
      cases other <;> simp [same, sameMembers_iff]

theorem sameItems_iff :
    (items others : List Toml) →
      (sameItems items others = true ↔ items = others)
  | [], others => by cases others <;> simp [sameItems]
  | item :: items, others => by
      cases others <;>
        simp [sameItems, same_iff item, sameItems_iff items]

theorem sameMembers_iff :
    (members others : Table) →
      (sameMembers members others = true ↔ members = others)
  | [], others => by cases others <;> simp [sameMembers]
  | (key, value) :: members, others => by
      cases others <;>
        simp [sameMembers, same_iff value,
          sameMembers_iff members, Prod.ext_iff]

end

instance : DecidableEq Toml :=
  fun value other =>
    decidable_of_iff (same value other = true)
      (same_iff value other)

end Toml

end ScriptWorkspace
