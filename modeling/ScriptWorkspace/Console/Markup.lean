import ScriptWorkspace.Text.Blank

/-
  Marked-up messages.

  A message for a console can hold tags in brackets, which
  say how a part of it looks and are not shown. A tag begins
  with a small letter, a slash, a number sign or an at sign.
  Backslashes in front of a tag count in pairs, and an odd
  one makes it plain text.

  Key definitions include:
    * `Markup.tag?`
    * `Markup.escape`
    * `Markup.pieces`
    * `Markup.shown?`
-/

namespace ScriptWorkspace

namespace Markup

------------------------------------------------------------
-- Tags
------------------------------------------------------------

/- The character can begin a tag. -/
def beginsTag (c : Char) : Bool :=
  decide ('a' ≤ c ∧ c ≤ 'z') || c == '#' || c == '/' ||
    c == '@'

/- The tag at the front of a text, and what follows it. -/
def tag? : Text → Option (Text × Text)
  | '[' :: c :: rest =>
    let name := rest.takeWhile fun c => c != '[' && c != ']'
    if beginsTag c && (rest.drop name.length).head? == some ']'
    then some (c :: name, rest.drop (name.length + 1))
    else none
  | _ => none

/- A tag as it is written. -/
def written (name : Text) : Text :=
  '[' :: name ++ [']']

------------------------------------------------------------
-- Escaping
------------------------------------------------------------

/- Backslashes. -/
def backslashes (count : Nat) : Text :=
  List.replicate count '\\'

/- Backslashes before each tag, at most `fuel` steps long. -/
def escapeFrom : (fuel : Nat) → Text → Text
  | 0, text => text
  | _, [] => []
  | fuel + 1, c :: rest =>
    let text := c :: rest
    let count := (text.takeWhile (· == '\\')).length
    match tag? (text.drop count) with
    | some (name, after) =>
      backslashes (2 * count + 1) ++ written name ++
        escapeFrom fuel after
    | none =>
      if count = 0 then c :: escapeFrom fuel rest
      else
        backslashes count ++
          escapeFrom fuel (text.drop count)

/- A text that ends in one backslash, with a second one. -/
def guardEnd (text : Text) : Text :=
  if Text.endsWith text ['\\'] &&
      !Text.endsWith text ['\\', '\\'] then
    text ++ ['\\']
  else
    text

/- A text in which no tag is read as one. -/
def escape (text : Text) : Text :=
  guardEnd (escapeFrom (text.length + 1) text)

------------------------------------------------------------
-- Reading
------------------------------------------------------------

/- A part of a marked-up message. -/
inductive Piece
  | plain (text : Text)
  | tag (name : Text)
deriving DecidableEq, Repr

/- A plain part, unless there is nothing in it. -/
def plainPiece (text : Text) : List Piece :=
  if text.isEmpty then [] else [.plain text]

/-
  The parts of a message after the plain characters that were
  read last, which are kept in reverse.
-/
def piecesFrom :
    (fuel : Nat) →
    (before : Text) →
    Text →
    List Piece
  | 0, _, _ => []
  | _, before, [] => plainPiece before.reverse
  | fuel + 1, before, c :: rest =>
    let text := c :: rest
    let count := (text.takeWhile (· == '\\')).length
    match tag? (text.drop count) with
    | some (name, after) =>
      let own :=
        if count % 2 = 1 then Piece.plain (written name)
        else .tag name
      plainPiece before.reverse ++
        plainPiece (backslashes (count / 2)) ++
          own :: piecesFrom fuel [] after
    | none =>
      if count = 0 then piecesFrom fuel (c :: before) rest
      else
        piecesFrom fuel (backslashes count ++ before)
          (text.drop count)

/- The parts of a marked-up message. -/
def pieces (text : Text) : List Piece :=
  piecesFrom (text.length + 1) [] text

------------------------------------------------------------
-- Showing
------------------------------------------------------------

/- A text with a bracket for each escaped bracket. -/
def plainBrackets : Text → Text
  | '\\' :: '[' :: rest => '[' :: plainBrackets rest
  | c :: rest => c :: plainBrackets rest
  | [] => []

/- The name of a style, without what it is set to. -/
def styleName (name : Text) : Text :=
  Text.lowerAscii
    (Text.strip (name.takeWhile (· != '=')))

/- A list without the first item equal to a given one. -/
def dropFirst (name : Text) : List Text → Option (List Text)
  | [] => none
  | other :: names =>
    if other = name then some names
    else (dropFirst name names).map (other :: ·)

/- The open styles after one is closed, if it is open. -/
def close? (name : Text) (styles : List Text) :
    Option (List Text) :=
  if name.isEmpty then
    if styles.isEmpty then none else some (styles.drop 1)
  else
    dropFirst name styles

/- What a message shows after some styles were opened. -/
def shownFrom (styles : List Text) :
    List Piece → Option Text
  | [] => some []
  | .plain text :: pieces =>
    (shownFrom styles pieces).map (plainBrackets text ++ ·)
  | .tag ('/' :: name) :: pieces => do
    let left ← close? (styleName name) styles
    shownFrom left pieces
  | .tag name :: pieces =>
    shownFrom (styleName name :: styles) pieces

/-
  What a marked-up message shows. It shows nothing at all if
  it closes a style that is not open.
-/
def shown? (text : Text) : Option Text :=
  if text.any (· == '[') then shownFrom [] (pieces text)
  else some text

end Markup

end ScriptWorkspace
