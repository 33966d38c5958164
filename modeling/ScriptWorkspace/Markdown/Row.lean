import ScriptWorkspace.Text.Basic

/-
  Lines of a document as a block of it sees them.

  Inside a quotation or a list item a line begins after the
  markers of its containers. A row keeps what is left of the
  line, how many blanks come before its first visible
  character, and the column of that character. Tabs reach to
  the next column that is a multiple of four, counted from
  the beginning of the physical line.

  Key definitions include:
    * `Row`
    * `Row.ofText`
    * `Row.body`
    * `Row.unquoted`
    * `Frame`
    * `Frame.isCode`
-/

namespace ScriptWorkspace

namespace Markdown

------------------------------------------------------------
-- Blanks And Columns
------------------------------------------------------------

/- The character is a space or a tab. -/
def isSpaceOrTab (c : Char) : Bool :=
  c == ' ' || c == '\t'

/- The column that a blank reaches from a given column. -/
def columnAfter
    (c : Char)
    (base column : Int) : Int :=
  if c == '\t' then
    column + (4 - (column + base) % 4)
  else
    column + 1

/-
  The number of blanks in front of a text, and the column
  after them.
-/
def leadingBlanks
    (base : Int) :
    (column : Int) →
    Text →
    Nat × Int
  | column, [] => (0, column)
  | column, c :: rest =>
    if isSpaceOrTab c then
      let (count, reached) :=
        leadingBlanks base (columnAfter c base column) rest
      (count + 1, reached)
    else
      (0, column)

------------------------------------------------------------
-- Rows
------------------------------------------------------------

/-
  A line inside its containers. A negative column marks a
  line that only continues a paragraph.
-/
structure Row where
  chars : Text
  shift : Nat
  column : Int
  tabBase : Int
  terminated : Bool
deriving Repr, Inhabited

namespace Row

/- The row after the last line. -/
def absent : Row :=
  { chars := [], shift := 0, column := 0,
    tabBase := 0, terminated := false }

/- The row of a physical line with its line feed. -/
def ofLine (raw : Text) : Row :=
  let chars := raw.filter (· ≠ '\n')
  let (shift, column) := leadingBlanks 0 0 chars
  { chars, shift, column, tabBase := 0
    terminated := raw.length ≠ chars.length }

/- The row from its first visible character on. -/
def body (row : Row) : Text :=
  row.chars.drop row.shift

/- The row shows nothing. -/
def isEmpty (row : Row) : Bool :=
  row.body.isEmpty

/-
  The rows of a text. A last line of blanks alone that no
  line feed ends is no row.
-/
def ofText (text : Text) : Array Row :=
  ((text.rawLines.map ofLine).filter fun row =>
    row.terminated || !row.isEmpty).toArray

/-
  The row after a quotation marker and one optional blank
  after it. Of a wider tab only one column is taken.
-/
def unquoted (row : Row) : Row :=
  let rest := row.body.drop 1
  let start := row.column + 1
  let splitTab : Bool :=
    rest.head? == some '\t' && (row.tabBase + start) % 4 ≠ 3
  let spaced : Bool :=
    match rest with
    | c :: _ => isSpaceOrTab c
    | [] => false
  let taken : Bool := spaced && !splitTab
  let chars := if taken then rest.drop 1 else rest
  let initial := if taken then start + 1 else start
  let base := row.tabBase + if splitTab then 1 else 0
  let (shift, reached) := leadingBlanks base initial chars
  { row with
    chars
    shift
    column := reached - initial
    tabBase := row.column + 1 + if spaced then 1 else 0 }

end Row

------------------------------------------------------------
-- Frames
------------------------------------------------------------

/-
  What a block knows of its surroundings: the rows, the
  column at which its container begins, the column at which
  the list around it begins (or minus one), and the row that
  no paragraph reaches.
-/
structure Frame where
  rows : Array Row
  blockColumn : Int := 0
  listColumn : Int := -1
  limit : Nat

namespace Frame

/- The row of a given number. -/
def row (frame : Frame) (line : Nat) : Row :=
  frame.rows[line]?.getD Row.absent

/- The row shows nothing. -/
def isEmpty (frame : Frame) (line : Nat) : Bool :=
  (frame.row line).isEmpty

/- The row is indented as far as indented code is. -/
def isCode (frame : Frame) (line : Nat) : Bool :=
  decide ((frame.row line).column - frame.blockColumn ≥ 4)

/- The row begins left of the container. -/
def isOutdented (frame : Frame) (line : Nat) : Bool :=
  decide ((frame.row line).column < frame.blockColumn)

/- The first row from one on that is not empty. -/
def skipEmptyFrom
    (frame : Frame) :
    (fuel : Nat) →
    (line : Nat) →
    Nat
  | 0, line => line
  | fuel + 1, line =>
    if line < frame.limit && frame.isEmpty line then
      skipEmptyFrom frame fuel (line + 1)
    else
      line

/- The first row from one on that is not empty. -/
def skipEmpty (frame : Frame) (line : Nat) : Nat :=
  frame.skipEmptyFrom (frame.limit - line) line

/- The frame with one row replaced. -/
def setRow
    (frame : Frame)
    (line : Nat)
    (row : Row) : Frame :=
  { frame with rows := frame.rows.setIfInBounds line row }

end Frame

end Markdown

end ScriptWorkspace
