import ScriptWorkspace.Toml.Layout.Array
import ScriptWorkspace.Toml.Layout.Assembly

/-
  Looking up and changing the values of a document.

  A value that is changed keeps its place and its margin. A
  new one comes after the last entry before the first table,
  indented like the header of its table.

  Key definitions include:
    * `Layout.bodyTable`
    * `Layout.Target`
    * `Layout.lookup`
    * `Layout.Target.find`
    * `Layout.setPair`
    * `Layout.setIn`
    * `Layout.addTable`
-/

namespace ScriptWorkspace

namespace Toml

namespace Layout

------------------------------------------------------------
-- Values
------------------------------------------------------------

mutual

/- Entries added to the members of a table. -/
def addEntries (members : Table) : List Entry → Table
  | [] => members
  | entry :: entries =>
    addEntries (addEntry members entry) entries

/- One entry added to the members of a table. -/
def addEntry (members : Table) : Entry → Table
  | .blank _ => members
  | .comment _ => members
  | .pair label _ value _ =>
    put label.name value.value members
  | .table label _ _ body =>
    let earlier :=
      ((find? label.name members).bind Toml.table?).getD []
    put label.name (.table (addEntries earlier body)) members
  | .elements label tables =>
    put label.name (.array (elementTables tables)) members

/- The tables of an array. -/
def elementTables :
    List (Heading × List Entry) → List Toml
  | [] => []
  | (_, body) :: tables =>
    .table (addEntries [] body) :: elementTables tables

end

/- The table that the entries of a body describe. -/
def bodyTable (body : List Entry) : Table :=
  addEntries [] body

------------------------------------------------------------
-- Looking Up
------------------------------------------------------------

/- What a key of a document leads to. -/
inductive Target
  | missing
  | cell (cell : Cell)
  | inline (members : List Member)
  | body (entries : List Entry)
  | elements (tables : List (Heading × List Entry))
deriving Repr

/- The value that a key leads to, if there is any. -/
def Target.value? : Target → Option Toml
  | missing => none
  | cell found => some found.value
  | inline members => some (.table (membersTable members))
  | body entries => some (.table (bodyTable entries))
  | elements tables => some (.array (elementTables tables))

/- What a name leads to in a body. -/
def lookup
    (name : Text)
    (body : List Entry) : Except Clash Target :=
  match lastNamed? name body with
  | none => .ok .missing
  | some (.pair _ _ (.cell content) _) => .ok (.cell content)
  | some (.pair _ _ (.inline members) _) =>
    .ok (.inline members)
  | some (.elements _ tables) => .ok (.elements tables)
  | some entry =>
    if (fragments name body).length ≤ 1 then
      .ok (.body entry.body)
    else do
      return .body (← gathered name body)

/- What a name leads to in an inline table. -/
def lookupMember
    (name : Text)
    (members : List Member) : Target :=
  let under : List Member :=
    members.filterMap fun member =>
      match member with
      | .pair (label :: labels) indent separator content =>
        if label.name = name then
          some (Member.pair labels indent separator content)
        else
          none
      | _ => none
  match under with
  | [] => .missing
  | .pair [] _ _ content :: _ => .cell content
  | _ => .inline under

/- What a name leads to from a table. -/
def Target.find
    (name : Text) :
    Target → Except Clash Target
  | inline members => .ok (lookupMember name members)
  | body entries => lookup name entries
  | _ => .ok .missing

/- A key can be looked up in what was found. -/
def Target.isTable : Target → Bool
  | inline _ => true
  | body _ => true
  | _ => false

------------------------------------------------------------
-- New Pairs
------------------------------------------------------------

/- A pair that is new. -/
def newPair (name : Text) (cell : Cell) : Entry :=
  .pair { spelled := name, name } [' ', '=', ' ']
    (.cell cell) .line

/- Where a new pair comes: before the first table. -/
def newIndex (body : List Entry) : Nat :=
  let before := body.takeWhile fun entry => !entry.isSection
  let after := before.reverse.takeWhile Entry.isBlank
  before.length - after.length

/- A line that is ended. -/
def endedMargin (margin : Margin) : Margin :=
  if margin.trail.any (· == '\n') then margin
  else { margin with trail := margin.trail ++ ['\n'] }

/- An entry before another one, with its line ended. -/
def endedEntry : Entry → Entry
  | .comment margin => .comment (endedMargin margin)
  | .pair label separator value margin =>
    .pair label separator value (endedMargin margin)
  | entry => entry

/- Blanks in which a line ends. -/
def brokenIndent (indent : Text) : Text :=
  if indent.any (· == '\n') then indent else '\n' :: indent

/- Entries before another one, with the last line ended. -/
def endedEntries : List Entry → List Entry
  | [] => []
  | [entry] => [endedEntry entry]
  | entry :: entries => entry :: endedEntries entries

/- A body with a new pair. -/
def insertPair
    (pair : Entry)
    (body : List Entry) : List Entry :=
  let index := newIndex body
  let after :=
    match body.drop index with
    | [] => []
    | entry :: entries =>
      entry.mapIndent brokenIndent :: entries
  endedEntries (body.take index) ++ pair :: after

------------------------------------------------------------
-- Changes
------------------------------------------------------------

/- A body with another value for the pair of a name. -/
def replacePair
    (name : Text)
    (cell : Cell)
    (body : List Entry) : List Entry :=
  body.map fun entry =>
    match entry with
    | .pair label separator value margin =>
      if label.name = name then
        .pair label separator (.cell cell) margin
      else
        .pair label separator value margin
    | entry => entry

/- A body with a pair in the place of tables of its name. -/
def replaceTables
    (name : Text)
    (cell : Cell)
    (body : List Entry) : List Entry :=
  let before :=
    body.takeWhile fun entry => !entry.isNamed name
  let after :=
    (body.drop before.length).filter fun entry =>
      !entry.isNamed name
  let plain := after.takeWhile fun entry => !entry.isTable
  if plain.length < after.length then
    before ++ plain ++
      newPair name cell :: after.drop plain.length
  else
    insertPair (newPair name cell) (before ++ after)

/-
  A body with a value for a name. A new pair is indented by
  the given spaces.
-/
def setPair
    (spaces name : Text)
    (cell : Cell)
    (body : List Entry) : List Entry :=
  match lastNamed? name body with
  | none =>
    insertPair
      ((newPair name cell).mapIndent (withSpaces spaces)) body
  | some (.pair _ _ _ _) => replacePair name cell body
  | some _ => replaceTables name cell body

/- The key of a pair in an inline table begins with a name. -/
def Member.isNamed (name : Text) : Member → Bool
  | .pair (label :: _) _ _ _ => label.name == name
  | _ => false

/- An inline table with a value for a name. -/
def setMember
    (spaces name : Text)
    (cell : Cell)
    (members : List Member) : List Member :=
  match lookupMember name members with
  | .cell _ =>
    members.map fun member =>
      match member with
      | .pair labels indent separator old =>
        if member.isNamed name then
          .pair labels indent separator cell
        else
          .pair labels indent separator old
      | member => member
  | _ =>
    members.filter (fun member => !member.isNamed name) ++
      [.pair [{ spelled := name, name }] spaces
        [' ', '=', ' '] cell]

/- The table has an entry of a name. -/
def hasNamed (name : Text) (entry : Entry) : Bool :=
  entry.body.any (Entry.isNamed name)

/- The table has an entry that is no table. -/
def hasPair (entry : Entry) : Bool :=
  entry.body.any fun inner =>
    inner.name?.isSome && !inner.isTable

/-
  Which table of a name takes a value: one that has it
  already, else one with other values, else the first one.
-/
def chosenIndex
    (key : Text)
    (tables : List Entry) : Nat :=
  ((tables.findIdx? (hasNamed key)).or
    (tables.findIdx? hasPair)).getD 0

/- A table with a value for a name. -/
def setInTable
    (key : Text)
    (cell : Cell) :
    Entry → Entry
  | .table label kind heading body =>
    let spaces := indentSpaces heading.margin.indent
    .table label kind heading (setPair spaces key cell body)
  | .pair label separator (.inline members) margin =>
    let spaces := indentSpaces margin.indent
    .pair label separator
      (.inline (setMember spaces key cell members)) margin
  | entry => entry

/- A table without the entries of a name. -/
def withoutNamed (key : Text) : Entry → Entry
  | .table label kind heading body =>
    .table label kind heading
      (body.filter fun entry => !entry.isNamed key)
  | entry => entry

/- Entries with a value put into one table of a name. -/
def setInChosen
    (name key : Text)
    (cell : Cell) :
    (index : Nat) →
    List Entry →
    List Entry
  | _, [] => []
  | index, entry :: entries =>
    if entry.isNamed name then
      match index with
      | 0 =>
        setInTable key cell entry ::
          entries.map fun other =>
            if other.isNamed name then withoutNamed key other
            else other
      | index + 1 =>
        entry :: setInChosen name key cell index entries
    else
      entry :: setInChosen name key cell index entries

/- A document with a value for a key of a table. -/
def setIn
    (name key : Text)
    (cell : Cell)
    (document : Document) : Document :=
  let tables := document.filter (Entry.isNamed name)
  setInChosen name key cell (chosenIndex key tables) document

/- The entry ends in blanks. -/
def Entry.endsBlank : Entry → Bool
  | .blank _ => true
  | .table _ _ _ body => (body.getLast?.map isBlank).getD false
  | _ => false

/- A document with a new table after all the others. -/
def addTable
    (name : Text)
    (document : Document) : Document :=
  let indent : Text :=
    match document.getLast? with
    | none => []
    | some entry => if entry.endsBlank then [] else ['\n']
  let heading : Heading :=
    { shown := none, margin := { Margin.line with indent } }
  document ++
    [.table { spelled := name, name } .declared heading []]

end Layout

end Toml

end ScriptWorkspace
