import ScriptWorkspace.Console.Cells
import ScriptWorkspace.Text.Blank

/-
  Lines on a console.

  Tabs lead to columns that are multiples of eight. A line
  that is wider than the console is broken before a word; a
  word that is wider than the console is broken anywhere.

  Key definitions include:
    * `Console.visible`
    * `Console.expandTabs`
    * `Console.breaks`
    * `Console.wrapLine`
    * `Console.layOut`
-/

namespace ScriptWorkspace

namespace Console

------------------------------------------------------------
-- Characters
------------------------------------------------------------

/- The character is shown as something. -/
def isShown (c : Char) : Bool :=
  let n := c.toNat
  !(n == 7 || n == 8 || n == 11 || n == 12 || n == 13)

/- A text without what a console would act on. -/
def visible (text : Text) : Text :=
  text.filter isShown

/- The distance between two columns for tabs. -/
def tabWidth : Nat := 8

/- A line with spaces for its tabs, from a column on. -/
def expandFrom (column : Nat) : Text → Text
  | [] => []
  | '\t' :: rest =>
    let spaces := tabWidth - column % tabWidth
    List.replicate spaces ' ' ++
      expandFrom (column + spaces) rest
  | c :: rest => c :: expandFrom (column + cellWidth c) rest

/- A line with spaces for its tabs. -/
def expandTabs (line : Text) : Text :=
  expandFrom 0 line

------------------------------------------------------------
-- Words
------------------------------------------------------------

/- The length of the word at the front, with its blanks. -/
def wordLength (text : Text) : Nat :=
  let before := text.takeWhile Text.isBlank
  let word :=
    (text.drop before.length).takeWhile fun c =>
      !Text.isBlank c
  let after :=
    (text.drop (before.length + word.length)).takeWhile
      Text.isBlank
  if word.isEmpty then 0
  else before.length + word.length + after.length

/- The words of a line, each with the blanks around it. -/
def words : (fuel : Nat) → Text → List Text
  | 0, _ => []
  | fuel + 1, text =>
    match wordLength text with
    | 0 => []
    | length =>
      text.take length :: words fuel (text.drop length)

/- The parts of a word that each fit on a line. -/
def chop
    (width : Nat)
    (used : Nat) :
    (line : Text) →
    Text →
    List Text
  | line, [] => [line.reverse]
  | line, c :: rest =>
    let own := cellWidth c
    if used + own > width then
      line.reverse :: chop width own [c] rest
    else
      chop width (used + own) (c :: line) rest

------------------------------------------------------------
-- Breaks
------------------------------------------------------------

/- Where the parts of a word begin, but not at the front. -/
def partStarts (start : Nat) : List Text → List Nat
  | [] => []
  | part :: parts =>
    (if start = 0 then [] else [start]) ++
      partStarts (start + part.length) parts

/- Where a line is broken, from a word and a column on. -/
def breaksFrom
    (width : Nat)
    (start column : Nat) :
    List Text → List Nat
  | [] => []
  | word :: words =>
    let bare := textWidth (Text.stripRight word)
    let full := textWidth word
    let next := start + word.length
    if column + bare ≤ width then
      breaksFrom width next (column + full) words
    else if bare > width then
      let parts := chop width 0 [] word
      partStarts start parts ++
        breaksFrom width next
          (textWidth (parts.getLast?.getD [])) words
    else if column ≠ 0 ∧ start ≠ 0 then
      start :: breaksFrom width next full words
    else
      breaksFrom width next column words

/- Where a line is broken. -/
def breaks (width : Nat) (line : Text) : List Nat :=
  breaksFrom width 0 0 (words (line.length + 1) line)

/- The parts of a line between its breaks. -/
def cut (start : Nat) : List Nat → Text → List Text
  | [], text => [text]
  | position :: positions, text =>
    text.take (position - start) ::
      cut position positions (text.drop (position - start))

/- A line without the blanks that are too wide at its end. -/
def trimmed (width : Nat) (line : Text) : Text :=
  let blanks := (line.reverse.takeWhile Text.isBlank).length
  line.take (line.length - min blanks (line.length - width))

/- The lines that a line takes on a console. -/
def wrapLine (width : Nat) (line : Text) : List Text :=
  (cut 0 (breaks width line) line).map (trimmed width)

/- The lines that a text takes, if a width is given. -/
def layOut (width : Option Nat) (text : Text) : List Text :=
  let lines :=
    (Text.splitOn '\n' (visible text)).map expandTabs
  match width with
  | none => lines
  | some width => lines.flatMap (wrapLine width)

end Console

end ScriptWorkspace
