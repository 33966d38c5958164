import ScriptWorkspace.Toml.Value

/-
  TOML documents with their layout.

  A document is kept as the entries it is made of, each with
  the blanks, comments and line ends around it, so that it
  can be changed in one place and written again with all the
  rest as it was.

  A table is declared by a header, implied by the header of a
  table inside it, or spelled by the dotted key of an entry.

  Key definitions include:
    * `Margin`
    * `Label`
    * `Item`
    * `Group`
    * `Cell`
    * `Member`
    * `Value`
    * `Heading`
    * `TableKind`
    * `Entry`
    * `Document`
-/

namespace ScriptWorkspace

namespace Toml

namespace Layout

------------------------------------------------------------
-- Parts
------------------------------------------------------------

/-
  What stands around an entry: the blanks before it, those
  before its comment, the comment, and the end of its line.
-/
structure Margin where
  indent : Text
  gap : Text
  comment : Text
  trail : Text
deriving DecidableEq, Repr

/- The margin of a new entry. -/
def Margin.line : Margin :=
  { indent := [], gap := [], comment := [], trail := ['\n'] }

/- One name of a key, as it is spelled. -/
structure Label where
  spelled : Text
  name : Text
deriving DecidableEq, Repr

/- A value as it is spelled. -/
structure Item where
  spelled : Text
  value : Toml
deriving Repr

------------------------------------------------------------
-- Arrays
------------------------------------------------------------

/-
  What a group of an array holds: nothing, a place that only
  a comma or a comment takes, or an item.
-/
inductive Slot
  | none
  | vacant
  | item (item : Item)
deriving Repr

/- The item of a slot. -/
def Slot.item? : Slot → Option Item
  | .item found => some found
  | _ => Option.none

/-
  A part of an array: the blanks before an item, the item,
  the comma and the comment after it. Each may be missing.
-/
structure Group where
  indent : Option Text
  slot : Slot
  comma : Bool
  comment : Option Text
deriving Repr

namespace Group

/- The group with nothing in it. -/
def empty : Group :=
  { indent := none, slot := .none, comma := false
    comment := none }

/- The group is only blanks. -/
def isBlank (group : Group) : Bool :=
  match group.slot with
  | .none => group.comment.isNone
  | _ => false

/- The group has anything in it. -/
def isPresent (group : Group) : Bool :=
  group.indent.isSome || !group.isBlank || group.comma

/- The group as it is written. -/
def render (group : Group) : Text :=
  group.indent.getD [] ++
    ((group.slot.item?).map Item.spelled).getD [] ++
      (if group.comma then [','] else []) ++
        group.comment.getD []

end Group

------------------------------------------------------------
-- Values
------------------------------------------------------------

/- A value whose parts can be changed, unless it is plain. -/
inductive Cell
  | plain (item : Item)
  | array (groups : List Group)
deriving Repr

/- The items of an array. -/
def arrayItems (groups : List Group) : List Item :=
  groups.filterMap fun group => group.slot.item?

/- The cell as it is written. -/
def Cell.render : Cell → Text
  | .plain item => item.spelled
  | .array groups => '[' :: groups.flatMap Group.render ++ [']']

/- The value of a cell. -/
def Cell.value : Cell → Toml
  | .plain item => item.value
  | .array groups =>
    .array ((arrayItems groups).map Item.value)

/- A part of an inline table: blanks, or a key and value. -/
inductive Member
  | blank (text : Text)
  | pair
      (labels : List Label)
      (indent separator : Text)
      (cell : Cell)
deriving Repr

/- The part is a key and a value. -/
def Member.isPair : Member → Bool
  | .blank _ => false
  | .pair _ _ _ _ => true

/- The key that a list of names spells. -/
def spelledKey (labels : List Label) : Text :=
  Text.joinWith ['.'] (labels.map Label.spelled)

/-
  The parts of an inline table as they are written. Each
  pair but the last one has a comma right after it.
-/
def renderMembers : List Member → Text
  | [] => []
  | .blank text :: members => text ++ renderMembers members
  | .pair labels indent separator cell :: members =>
    indent ++ spelledKey labels ++ separator ++
      cell.render ++
        (if members.any Member.isPair then [','] else []) ++
          renderMembers members

/- A value of an entry. -/
inductive Value
  | cell (cell : Cell)
  | inline (members : List Member)
deriving Repr

/- The value as it is written. -/
def Value.render : Value → Text
  | .cell content => content.render
  | .inline members =>
    '\x7b' :: renderMembers members ++ ['\x7d']

/- A table with the value of a key of several names. -/
def putAt (value : Toml) : List Text → Table → Table
  | [], members => members
  | [name], members => put name value members
  | name :: names, members =>
    let inner :=
      ((find? name members).bind Toml.table?).getD []
    put name (.table (putAt value names inner)) members

/- The table that the parts of an inline table describe. -/
def membersTable (members : List Member) : Table :=
  members.foldl
    (fun result member =>
      match member with
      | .blank _ => result
      | .pair labels _ _ cell =>
        putAt cell.value (labels.map Label.name) result)
    []

/- The value itself. -/
def Value.value : Value → Toml
  | .cell content => content.value
  | .inline members => .table (membersTable members)

------------------------------------------------------------
-- Entries
------------------------------------------------------------

/- How a table comes into a document. -/
inductive TableKind
  | declared
  | implied
  | dotted
deriving DecidableEq, Repr

/-
  A header of a table: the key as the document spells it, if
  it has been read from one, and what stands around it.
-/
structure Heading where
  shown : Option Text
  margin : Margin
deriving DecidableEq, Repr

/- An entry of a document or of a table in it. -/
inductive Entry
  | blank (text : Text)
  | comment (margin : Margin)
  | pair
      (label : Label)
      (separator : Text)
      (value : Value)
      (margin : Margin)
  | table
      (label : Label)
      (kind : TableKind)
      (heading : Heading)
      (body : List Entry)
  | elements
      (label : Label)
      (tables : List (Heading × List Entry))
deriving Repr

/- A document is the list of its entries. -/
abbrev Document := List Entry

namespace Entry

/- The key of an entry, if it has one. -/
def name? : Entry → Option Text
  | blank _ => none
  | comment _ => none
  | pair label _ _ _ => some label.name
  | table label _ _ _ => some label.name
  | elements label _ => some label.name

/- The entry is only blanks. -/
def isBlank : Entry → Bool
  | blank _ => true
  | _ => false

/- The entry is a table or an array of tables. -/
def isTable : Entry → Bool
  | table _ _ _ _ => true
  | elements _ _ => true
  | _ => false

/- The entry is a table or array that headers make. -/
def isSection : Entry → Bool
  | table _ kind _ _ => kind != .dotted
  | elements _ _ => true
  | _ => false

/- The entry is neither blanks nor a table. -/
def isPlain (entry : Entry) : Bool :=
  !entry.isBlank && !entry.isTable

end Entry

end Layout

end Toml

end ScriptWorkspace
