import ScriptWorkspace.Toml.Layout.Basic

/-
  Changing the arrays of a document.

  A new item is written as the items before it are: with the
  blanks before the last one, and with a comma of its own if
  each item stands on its own line and the last one has one.

  Key definitions include:
    * `Layout.quotedItem`
    * `Layout.appendItem`
    * `Layout.removeItem`
-/

namespace ScriptWorkspace

namespace Toml

namespace Layout

------------------------------------------------------------
-- Items
------------------------------------------------------------

/- A character of a new string. -/
def escapeChar (c : Char) : Text :=
  match c with
  | '\x08' => ['\\', 'b']
  | '\t' => ['\\', 't']
  | '\n' => ['\\', 'n']
  | '\x0c' => ['\\', 'f']
  | '\r' => ['\\', 'r']
  | '"' => ['\\', '"']
  | '\\' => ['\\', '\\']
  | c =>
    if c.toNat < 0x20 ∨ c.toNat = 0x7f then
      '\\' :: 'u' :: Text.hex 4 c.toNat
    else
      [c]

/- A new string. -/
def quotedItem (text : Text) : Item :=
  { spelled := '"' :: text.flatMap escapeChar ++ ['"']
    value := .string text }

/- The group is one of those that hold an item. -/
def Group.hasItem (group : Group) : Bool :=
  group.slot.item?.isSome

/- The blanks of a group go on to another line. -/
def Group.breaksLine (group : Group) : Bool :=
  (group.indent.getD []).any (· == '\n')

------------------------------------------------------------
-- Adding
------------------------------------------------------------

/- The group of a new item after the groups before it. -/
def newGroup
    (item : Item)
    (broken : Bool)
    (last? : Option Group) : Group :=
  let usual : Text := if broken then "\n    " else " "
  match last? with
  | none =>
    { Group.empty with
      indent := if broken then some usual else none
      slot := .item item }
  | some last =>
    { Group.empty with
      indent := last.indent.or (some usual)
      slot := .item item
      comma := broken && last.hasItem && last.comma }

/- A group that another item follows. -/
def Group.followed (group : Group) : Group :=
  if group.hasItem then { group with comma := true }
  else group

/- Groups with another function applied to the last one. -/
def mapLastGroup
    (change : Group → Group) :
    List Group → List Group
  | [] => []
  | [group] => [change group]
  | group :: groups => group :: mapLastGroup change groups

/- An array with one more item at its end. -/
def appendItem
    (item : Item)
    (groups : List Group) : List Group :=
  let after :=
    match groups.getLast? with
    | some last => if last.isBlank then [last] else []
    | none => []
  let before :=
    groups.take (groups.length - after.length)
  let broken := after.any Group.breaksLine
  mapLastGroup Group.followed before ++
    newGroup item broken before.getLast? :: after

------------------------------------------------------------
-- Removing
------------------------------------------------------------

/- The group is a comma that stands apart from its item. -/
def Group.isLoneComma (group : Group) : Bool :=
  match group.slot with
  | .vacant => group.comma
  | _ => false

/- The groups after one that was removed. -/
def closeGap
    (removed : Group) :
    List Group → List Group
  | [] => []
  | group :: groups =>
    if !removed.comma && group.isLoneComma then groups
    else group :: groups

/- Groups of which the first does not stand apart. -/
def tightenFirst : List Group → List Group
  | [] => []
  | group :: groups =>
    if group.breaksLine then group :: groups
    else { group with indent := none } :: groups

/- The groups without the item that comes at an index. -/
def dropItem :
    (index : Nat) →
    (isFirst : Bool) →
    List Group →
    List Group
  | _, _, [] => []
  | index, isFirst, group :: groups =>
    if group.hasItem then
      match index with
      | 0 =>
        let rest := closeGap group groups
        if isFirst then tightenFirst rest else rest
      | index + 1 => group :: dropItem index false groups
    else
      group :: dropItem index false groups

/- A group that no item follows. -/
def Group.ended (group : Group) : Group :=
  if group.isBlank then group
  else { group with comma := false }

/- An array without the item at an index. -/
def removeItem
    (index : Nat)
    (groups : List Group) : List Group :=
  mapLastGroup Group.ended (dropItem index true groups)

end Layout

end Toml

end ScriptWorkspace
