import Mathlib.Data.List.Basic
import ScriptWorkspace.Toml.Layout.Array

/-
  What a change of an array does to its items.

  However the groups of an array are written, a new item comes
  after all others, and only the item of an index is removed.

  Main declarations:
    * `Layout.arrayItems_appendItem`
    * `Layout.arrayItems_removeItem`
-/

namespace ScriptWorkspace

namespace Toml

namespace Layout

------------------------------------------------------------
-- Groups
------------------------------------------------------------

theorem arrayItems_append
    (front back : List Group) :
    arrayItems (front ++ back) =
      arrayItems front ++ arrayItems back :=
  List.filterMap_append

theorem arrayItems_cons_of_item
    {group : Group}
    {item : Item}
    (groups : List Group)
    (hItem : group.slot.item? = some item) :
    arrayItems (group :: groups) = item :: arrayItems groups :=
  List.filterMap_cons_some hItem

theorem arrayItems_cons_of_none
    {group : Group}
    (groups : List Group)
    (hItem : group.slot.item? = none) :
    arrayItems (group :: groups) = arrayItems groups :=
  List.filterMap_cons_none hItem

/- Groups with the same item in the first place. -/
theorem arrayItems_cons_congr
    {group other : Group}
    (groups : List Group)
    (hItem : group.slot.item? = other.slot.item?) :
    arrayItems (group :: groups) =
      arrayItems (other :: groups) := by
  rw [arrayItems, arrayItems, List.filterMap_cons,
    List.filterMap_cons, hItem]

/- The last group is written in another way. -/
theorem arrayItems_mapLastGroup
    {change : Group → Group}
    (hChange :
      ∀ group, (change group).slot.item? = group.slot.item?)
    (groups : List Group) :
    arrayItems (mapLastGroup change groups) =
      arrayItems groups := by
  induction groups with
  | nil => rfl
  | cons group groups ih =>
      cases groups with
      | nil => exact arrayItems_cons_congr [] (hChange group)
      | cons next groups =>
          rw [mapLastGroup]
          · cases hItem : group.slot.item? with
            | none =>
                rw [arrayItems_cons_of_none _ hItem, ih,
                  arrayItems_cons_of_none _ hItem]
            | some item =>
                rw [arrayItems_cons_of_item _ hItem, ih,
                  arrayItems_cons_of_item _ hItem]
          · exact List.cons_ne_nil _ _

theorem item?_followed (group : Group) :
    group.followed.slot.item? = group.slot.item? := by
  unfold Group.followed
  split
  case isTrue => rfl
  case isFalse => rfl

theorem item?_ended (group : Group) :
    group.ended.slot.item? = group.slot.item? := by
  unfold Group.ended
  split
  case isTrue => rfl
  case isFalse => rfl

theorem item?_of_isBlank
    {group : Group}
    (hBlank : group.isBlank = true) :
    group.slot.item? = none := by
  unfold Group.isBlank at hBlank
  split at hBlank
  case h_1 hSlot =>
    rw [hSlot]
    rfl
  case h_2 => cases hBlank

theorem item?_newGroup
    (item : Item)
    (broken : Bool)
    (last? : Option Group) :
    (newGroup item broken last?).slot.item? = some item := by
  cases last? <;> rfl

------------------------------------------------------------
-- Adding
------------------------------------------------------------

/- A new item comes after all others. -/
theorem arrayItems_appendItem
    (item : Item)
    (groups : List Group) :
    arrayItems (appendItem item groups) =
      arrayItems groups ++ [item] := by
  -- Blanks at the end stay behind the new item.
  have hParts
      {before after : List Group}
      (broken : Bool)
      (hGroups : groups = before ++ after)
      (hAfter : arrayItems after = []) :
      arrayItems
          (mapLastGroup Group.followed before ++
            newGroup item broken before.getLast? :: after) =
        arrayItems groups ++ [item] := by
    rw [arrayItems_append,
      arrayItems_mapLastGroup item?_followed,
      arrayItems_cons_of_item _ (item?_newGroup ..), hAfter,
      hGroups, arrayItems_append, hAfter, List.append_nil]
  unfold appendItem
  simp only
  cases hLast : groups.getLast? with
  | none => 
      exact hParts _ (by simp) rfl
  | some last =>
      simp only
      split
      case isTrue hBlank =>
        refine hParts _ ?_ ?_
        · rw [List.length_singleton, ← List.dropLast_eq_take]
          exact (List.dropLast_append_getLast? last hLast).symm
        · exact
            (arrayItems_cons_of_none [] (item?_of_isBlank hBlank))
      case isFalse =>
        exact hParts _ (by simp) rfl

------------------------------------------------------------
-- Removing
------------------------------------------------------------

/- A comma that stands alone holds no item. -/
theorem arrayItems_closeGap
    (removed : Group)
    (groups : List Group) :
    arrayItems (closeGap removed groups) =
      arrayItems groups := by
  cases groups with
  | nil => rfl
  | cons group groups =>
      rw [closeGap]
      split
      case isTrue hComma =>
        rw [Bool.and_eq_true] at hComma
        have hItem : group.slot.item? = none := by
          have hLone := hComma.2
          unfold Group.isLoneComma at hLone
          split at hLone
          case h_1 hSlot =>
            rw [hSlot]
            rfl
          case h_2 => cases hLone
        rw [arrayItems_cons_of_none groups hItem]
      case isFalse => rfl

theorem arrayItems_tightenFirst
    (groups : List Group) :
    arrayItems (tightenFirst groups) = arrayItems groups := by
  cases groups with
  | nil => rfl
  | cons group groups =>
      rw [tightenFirst]
      split
      case isTrue => rfl
      case isFalse => exact arrayItems_cons_congr groups rfl

theorem arrayItems_dropItem
    (index : Nat)
    (isFirst : Bool)
    (groups : List Group) :
    arrayItems (dropItem index isFirst groups) =
      (arrayItems groups).eraseIdx index := by
  induction groups generalizing index isFirst with
  | nil => 
      cases index <;> rfl
  | cons group groups ih =>
      cases hItem : group.slot.item? with
      | none =>
          have hHas : group.hasItem = false := by
            rw [Group.hasItem, hItem]
            rfl
          have hDrop :
              dropItem index isFirst (group :: groups) =
                group :: dropItem index false groups := by
            rw [dropItem.eq_def]
            simp only [hHas, if_neg Bool.false_ne_true]
          rw [hDrop, arrayItems_cons_of_none _ hItem,
            arrayItems_cons_of_none _ hItem, ih]
      | some item =>
          have hHas : group.hasItem = true := by
            rw [Group.hasItem, hItem]
            rfl
          rw [arrayItems_cons_of_item groups hItem,
            dropItem.eq_def]
          simp only [hHas, if_true]
          cases index with
          | zero =>
              cases isFirst with
              | true =>
                  exact
                    (arrayItems_tightenFirst _).trans
                      (arrayItems_closeGap group groups)
              | false => exact arrayItems_closeGap group groups
          | succ index =>
              rw [List.eraseIdx_cons_succ, ← ih index false]
              exact arrayItems_cons_of_item _ hItem

/- Only the item of the index is removed. -/
theorem arrayItems_removeItem
    (index : Nat)
    (groups : List Group) :
    arrayItems (removeItem index groups) =
      (arrayItems groups).eraseIdx index := by
  rw [removeItem, arrayItems_mapLastGroup item?_ended,
    arrayItems_dropItem]

end Layout

end Toml

end ScriptWorkspace
