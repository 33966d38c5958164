import ScriptWorkspace.Toml.Value

/-
  The table that a document fills while it is read.

  A table can be declared once, an inline table or array is
  complete where it is written, and a table that dotted keys
  opened cannot be declared further on. Each of these rules
  is kept by marks on the keys they concern.

  Key definitions include:
    * `Toml.Draft`
    * `Toml.updateAt?`
    * `Toml.Draft.declare?`
    * `Toml.Draft.declareElement?`
    * `Toml.Draft.assign?`
    * `Toml.insertInline?`
-/

namespace ScriptWorkspace

namespace Toml

/- The names that lead from a table to a value. -/
abbrev Key := List Text

------------------------------------------------------------
-- Tables In Tables
------------------------------------------------------------

/-
  Change the table at a key, which is made if it is missing.
  If asked for, an array of tables leads to its last table.
-/
def updateAt?
    (throughArrays : Bool)
    (update : Table → Option Table) :
    Key →
    Table →
    Option Table
  | [], members => update members
  | name :: names, members =>
    match find? name members with
    | none =>
      (updateAt? throughArrays update names []).map
        fun inner => put name (.table inner) members
    | some (.table inner) =>
      (updateAt? throughArrays update names inner).map
        fun inner => put name (.table inner) members
    | some (.array items) =>
      match throughArrays, items.getLast? with
      | true, some (.table inner) =>
        (updateAt? throughArrays update names inner).map
          fun inner =>
            put name
              (.array (items.dropLast ++ [.table inner]))
              members
      | _, _ => none
    | some _ => none

/- A new member, unless its key is taken. -/
def insertNew?
    (name : Text)
    (value : Toml)
    (members : Table) : Option Table :=
  match find? name members with
  | none => some (put name value members)
  | some _ => none

/- An array of tables with one more empty table. -/
def appendElement?
    (name : Text)
    (members : Table) : Option Table :=
  match find? name members with
  | none => some (put name (.array [.table []]) members)
  | some (.array items) =>
    some (put name (.array (items ++ [.table []])) members)
  | some _ => none

/- The name that a key ends in, and the key before it. -/
def splitLast (key : Key) : Key × Text :=
  (key.dropLast, key.getLast?.getD [])

------------------------------------------------------------
-- Drafts
------------------------------------------------------------

/-
  What was read: the table, the key of the last header, and
  the marked keys. A pending key is declared at the next
  header.
-/
structure Draft where
  members : Table
  header : Key
  declared : List Key
  pending : List Key
  complete : List Key
deriving Repr

namespace Draft

/- Nothing was read. -/
def empty : Draft :=
  { members := [], header := [], declared := [],
    pending := [], complete := [] }

/- The table at the key has been declared. -/
def isDeclared (draft : Draft) (key : Key) : Bool :=
  draft.declared.any (· == key)

/- The key is at or below a complete value. -/
def isComplete (draft : Draft) (key : Key) : Bool :=
  draft.complete.any fun mark => mark.isPrefixOf key

/- Pending keys are declared when a header comes. -/
def settle (draft : Draft) : Draft :=
  { draft with
    declared := draft.pending ++ draft.declared
    pending := [] }

/- A header of a table. -/
def declare? (draft : Draft) (key : Key) : Option Draft :=
  let draft := draft.settle
  if draft.isDeclared key || draft.isComplete key then
    none
  else
    (updateAt? true some key draft.members).map
      fun members =>
        { draft with
          members, header := key
          declared := key :: draft.declared }

/-
  A header of an element of an array of tables. It frees the
  keys below it, because they name other tables from now on.
-/
def declareElement?
    (draft : Draft)
    (key : Key) : Option Draft :=
  let draft := draft.settle
  let (parent, name) := splitLast key
  if draft.isComplete key then
    none
  else
    (updateAt? true (appendElement? name) parent
        draft.members).map fun members =>
      let isOutside (mark : Key) : Bool :=
        !key.isPrefixOf mark
      { draft with
        members, header := key
        declared := key :: draft.declared.filter isOutside
        complete := draft.complete.filter isOutside }

/- The keys between a header and the last name of a key. -/
def innerKeys (header key : Key) : List Key :=
  (List.range (key.length - 1)).map fun n =>
    header ++ key.take (n + 1)

/- A key with its value below the last header. -/
def assign?
    (draft : Draft)
    (key : Key)
    (value : Toml) : Option Draft :=
  let (parent, name) := splitLast key
  let inner := innerKeys draft.header key
  let nest := draft.header ++ parent
  if inner.any draft.isDeclared || draft.isComplete nest then
    none
  else
    (updateAt? true (insertNew? name value) nest
        draft.members).map fun members =>
      { draft with
        members
        pending := inner ++ draft.pending
        complete :=
          if value.isComposite then
            (draft.header ++ key) :: draft.complete
          else
            draft.complete }

end Draft

------------------------------------------------------------
-- Inline Tables
------------------------------------------------------------

/-
  An inline table with one more member. The keys of arrays
  and tables among its members are given as well; nothing
  can be put below them.
-/
def insertInline?
    (complete : List Key)
    (members : Table)
    (key : Key)
    (value : Toml) : Option Table :=
  let (parent, name) := splitLast key
  if complete.any fun mark => mark.isPrefixOf key then
    none
  else
    updateAt? false (insertNew? name value) parent members

end Toml

end ScriptWorkspace
