import ScriptWorkspace.Text.Basic

/-
  White space and line boundaries of Unicode.

  The white space characters are those of bidirectional
  class WS, B or S, or of category Zs. Stripping takes them
  off the ends of a text. Some tools also end a line at
  other boundaries than a line feed; `boundaryLines` cuts a
  text at all of them.

  Key definitions include:
    * `Text.isBlank`
    * `Text.stripLeft`
    * `Text.stripRight`
    * `Text.strip`
    * `Text.boundaryLines`
-/

namespace ScriptWorkspace

namespace Text

------------------------------------------------------------
-- White Space
------------------------------------------------------------

/- The character is white space. -/
def isBlank (c : Char) : Bool :=
  let n := c.toNat
  (9 ≤ n && n ≤ 13) || (28 ≤ n && n ≤ 32) ||
    n == 0x85 || n == 0xa0 || n == 0x1680 ||
    (0x2000 ≤ n && n ≤ 0x200a) ||
    n == 0x2028 || n == 0x2029 || n == 0x202f ||
    n == 0x205f || n == 0x3000

/- The text without white space in front. -/
def stripLeft (text : Text) : Text :=
  text.dropWhile isBlank

/- The text without white space at its end. -/
def stripRight (text : Text) : Text :=
  dropRightWhile isBlank text

/- The text without white space at both ends. -/
def strip (text : Text) : Text :=
  stripRight (stripLeft text)

/- The white space in front of a text. -/
def indentation (text : Text) : Text :=
  text.takeWhile isBlank

------------------------------------------------------------
-- Line Boundaries
------------------------------------------------------------

/- The character ends a line. -/
def isBoundary (c : Char) : Bool :=
  let n := c.toNat
  (10 ≤ n && n ≤ 13) || (28 ≤ n && n ≤ 30) ||
    n == 0x85 || n == 0x2028 || n == 0x2029

/-
  The lines of a text without their boundaries. A carriage
  return and the line feed after it are one boundary, and a
  boundary at the end starts no further line.
-/
def boundaryLines : Text → List Text
  | [] => []
  | '\r' :: '\n' :: rest => [] :: boundaryLines rest
  | c :: rest =>
    if isBoundary c then
      [] :: boundaryLines rest
    else
      match boundaryLines rest with
      | [] => [[c]]
      | line :: lines => (c :: line) :: lines

end Text

end ScriptWorkspace
