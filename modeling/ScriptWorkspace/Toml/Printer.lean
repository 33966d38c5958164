import ScriptWorkspace.Toml.Scalar

/-
  Writing TOML tables.

  The values of a table come before the tables in it. A list
  of tables is written inline if each of them fits on a line.

  Key definitions include:
    * `Toml.renderString`
    * `Toml.renderKey`
    * `Toml.renderValue`
    * `Toml.render`
-/

namespace ScriptWorkspace

namespace Toml

------------------------------------------------------------
-- Strings And Keys
------------------------------------------------------------

/- A character of a string that is written. -/
def renderChar (c : Char) : Text :=
  match c with
  | '\x08' => ['\\', 'b']
  | '\n' => ['\\', 'n']
  | '\x0c' => ['\\', 'f']
  | '\r' => ['\\', 'r']
  | '"' => ['\\', '"']
  | '\\' => ['\\', '\\']
  | '\t' => ['\t']
  | c =>
    if c.toNat < 0x20 ∨ c.toNat = 0x7f then
      '\\' :: 'u' :: Text.hex 4 c.toNat
    else
      [c]

/- A string as it is written. -/
def renderString (content : Text) : Text :=
  '"' :: content.flatMap renderChar ++ ['"']

/- A key as it is written. -/
def renderKey (key : Text) : Text :=
  if !key.isEmpty && key.all isBareKeyChar then key
  else renderString key

------------------------------------------------------------
-- Values
------------------------------------------------------------

/- The indentation at a depth. -/
def indentation (depth : Nat) : Text :=
  List.replicate (4 * depth) ' '

mutual

/- A value as it is written, in arrays of a given depth. -/
def renderValue (depth : Nat) : Toml → Text
  | .string content => renderString content
  | .int n => Text.ofInt n
  | .float x => x.render
  | .bool true => "true"
  | .bool false => "false"
  | .date day => day.render
  | .time clock => clock.render
  | .dateTime day clock offset =>
    day.render ++ ' ' :: clock.render ++
      (offset.map renderOffset).getD []
  | .array [] => "[]"
  | .array (item :: items) =>
    ['[', '\n'] ++ renderItems (depth + 1) (item :: items) ++
      indentation depth ++ [']']
  | .table [] => ['\x7b', '\x7d']
  | .table (member :: members) =>
    ['\x7b', ' '] ++ renderInline (member :: members) ++
      [' ', '\x7d']

/- The items of an array, each on a line of its own. -/
def renderItems (depth : Nat) : List Toml → Text
  | [] => []
  | item :: items =>
    indentation depth ++ renderValue depth item ++
      [',', '\n'] ++ renderItems depth items

/- The members of an inline table. -/
def renderInline : List (Text × Toml) → Text
  | [] => []
  | [(key, value)] =>
    renderKey key ++ [' ', '=', ' '] ++ renderValue 0 value
  | (key, value) :: member :: members =>
    renderKey key ++ [' ', '=', ' '] ++ renderValue 0 value ++
      [',', ' '] ++ renderInline (member :: members)

end

------------------------------------------------------------
-- Tables
------------------------------------------------------------

/- The most characters of a line for an inline table. -/
def maxLineWidth : Nat := 100

/- The value can stand on a line of an array. -/
def fitsInline (value : Toml) : Bool :=
  let written := renderValue 0 value
  decide (written.length + 5 ≤ maxLineWidth) &&
    !written.any (· == '\n')

/- The value is written as tables with headers. -/
def isSpread : Toml → Bool
  | .table _ => true
  | .array items =>
    !items.isEmpty && items.all (·.table?.isSome) &&
      !items.all fitsInline
  | _ => false

/- A line for each value that needs no header. -/
def renderPairs (members : Table) : Text :=
  members.flatMap fun (key, value) =>
    if isSpread value then []
    else
      renderKey key ++ [' ', '=', ' '] ++
        renderValue 0 value ++ ['\n']

/- The header of a table, or of an element of an array. -/
def renderHeader (name : Text) (isElement : Bool) : Text :=
  if isElement then ['[', '['] ++ name ++ [']', ']', '\n']
  else '[' :: name ++ [']', '\n']

/-
  A table with the sections for the tables in it. A table of
  nothing but tables needs no header.
-/
def assemble
    (name : Text)
    (isElement : Bool)
    (members : Table)
    (sections : List Text) : Text :=
  let pairs := renderPairs members
  let headed :=
    isElement ||
      (!name.isEmpty && (!pairs.isEmpty || sections.isEmpty))
  let top :=
    (if headed then renderHeader name isElement else []) ++
      pairs
  Text.joinWith ['\n']
    (if top.isEmpty then sections else top :: sections)

/- The name of a table in another one. -/
def innerName (name key : Text) : Text :=
  if name.isEmpty then renderKey key
  else name ++ '.' :: renderKey key

mutual

/- The sections for the tables among the members. -/
def renderSections
    (name : Text) :
    List (Text × Toml) → List Text
  | [] => []
  | (key, .table inner) :: members =>
    let own := innerName name key
    assemble own false inner (renderSections own inner) ::
      renderSections name members
  | (key, .array items) :: members =>
    (if isSpread (.array items) then
      renderElements (innerName name key) items
    else
      []) ++ renderSections name members
  | _ :: members => renderSections name members

/- The sections for the elements of an array of tables. -/
def renderElements (name : Text) : List Toml → List Text
  | [] => []
  | .table inner :: items =>
    assemble name true inner (renderSections name inner) ::
      renderElements name items
  | _ :: items => renderElements name items

end

/- The document of a table. -/
def render (members : Table) : Text :=
  assemble [] false members (renderSections [] members)

end Toml

end ScriptWorkspace
