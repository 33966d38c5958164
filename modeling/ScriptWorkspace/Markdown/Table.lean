import ScriptWorkspace.Text.Blank
import ScriptWorkspace.Markdown.Row

/-
  Tables: a header row, a delimiter row with as many columns,
  and body rows.

  Key definitions include:
    * `delimiterColumns?`
    * `cells`
    * `Frame.tableColumns?`
-/

namespace ScriptWorkspace

namespace Markdown

------------------------------------------------------------
-- The Delimiter Row
------------------------------------------------------------

/- The character may stand in a delimiter row. -/
def inDelimiter (c : Char) : Bool :=
  c == '|' || c == '-' || c == ':'

/-
  Only delimiters and blanks, with at least two characters
  of which the first is no blank. A dash and a blank begin a
  list item instead.
-/
def isDelimiterShape : Text → Bool
  | first :: second :: rest =>
    inDelimiter first &&
      (inDelimiter second || isSpaceOrTab second) &&
      !(first == '-' && isSpaceOrTab second) &&
      rest.all fun c => inDelimiter c || isSpaceOrTab c
  | _ => false

/- Dashes with an optional colon on either side. -/
def isDelimiterCell (cell : Text) : Bool :=
  let cell := (Text.stripPrefix? [':'] cell).getD cell
  let rest := cell.dropWhile (· == '-')
  cell.head? == some '-' && (rest.isEmpty || rest == [':'])

/-
  The number of columns of a delimiter row. An empty column
  is allowed at the ends alone, where it does not count.
-/
def delimiterColumns? (row : Text) : Option Nat :=
  let columns := (row.strip.splitOn '|').map Text.strip
  let inner := (columns.drop 1).dropLast
  let filled := columns.filter (! ·.isEmpty)
  if inner.any List.isEmpty || columns.length < 1 then none
  else if filled.all isDelimiterCell then some filled.length
  else none

------------------------------------------------------------
-- Cells
------------------------------------------------------------

/-
  The pieces of a row between the pipes that no backslash
  escapes. Only their number and which of them are empty
  matters, so an escaped pipe stays as it is written.
-/
def pieces : (escaped : Bool) → Text → List Text
  | _, [] => [[]]
  | escaped, c :: rest =>
    if c = '|' ∧ !escaped then
      [] :: pieces false rest
    else
      match pieces (c == '\\') rest with
      | [] => [[c]]
      | piece :: others => (c :: piece) :: others

/- The cells of a row, without the outer empty pieces. -/
def cells (row : Text) : List Text :=
  let all := pieces false row.strip
  let all := if all.head? == some [] then all.drop 1 else all
  if all.getLast? == some [] then all.dropLast else all

------------------------------------------------------------
-- The Head Of A Table
------------------------------------------------------------

/-
  The number of columns of the table that begins at a row:
  the header row has a pipe and as many cells as the row
  after it has columns.
-/
def Frame.tableColumns?
    (frame : Frame)
    (line stop : Nat) : Option Nat :=
  let delimiter := frame.row (line + 1)
  let header := (frame.row line).body
  if line + 2 > stop || frame.isOutdented (line + 1) ||
      frame.isCode (line + 1) ||
      !isDelimiterShape delimiter.body then
    none
  else
    match delimiterColumns? delimiter.body with
    | none => none
    | some columns =>
      if !header.any (· == '|') || frame.isCode line then none
      else if columns ≠ 0 ∧ (cells header).length = columns
      then some columns
      else none

end Markdown

end ScriptWorkspace
