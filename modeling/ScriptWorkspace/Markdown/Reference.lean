import ScriptWorkspace.Text.Blank
import ScriptWorkspace.Markdown.Row

/-
  Link reference definitions.

  A definition is a label in brackets and a colon, a
  destination, and an optional title. All that matters here
  is how many lines of a paragraph the definition takes, so
  the reader works on the text of the whole paragraph and
  answers with the number of line feeds it passed.

  Key definitions include:
    * `Reference.label?`
    * `Reference.destination?`
    * `Reference.title?`
    * `Reference.isSafe`
    * `Reference.lineFeeds?`
-/

namespace ScriptWorkspace

namespace Markdown

namespace Reference

------------------------------------------------------------
-- Escapes In Destinations
------------------------------------------------------------

/-
  The named characters that can change whether a destination
  is safe: the colon, and white space in front of it.
-/
def namedCharacters : List (Text × Char) :=
  [("colon".toList, ':'), ("semi".toList, ';'),
    ("sol".toList, '/'), ("Tab".toList, '\t'),
    ("NewLine".toList, '\n'), ("nbsp".toList, '\u00a0'),
    ("NonBreakingSpace".toList, '\u00a0'),
    ("ensp".toList, '\u2002'), ("emsp".toList, '\u2003'),
    ("emsp13".toList, '\u2004'),
    ("emsp14".toList, '\u2005'),
    ("numsp".toList, '\u2007'),
    ("puncsp".toList, '\u2008'),
    ("thinsp".toList, '\u2009'),
    ("ThinSpace".toList, '\u2009'),
    ("hairsp".toList, '\u200a'),
    ("VeryThinSpace".toList, '\u200a'),
    ("MediumSpace".toList, '\u205f')]

/- The character that a reference by number stands for. -/
def numberedCharacter? (digits : Text) : Option Char :=
  match digits with
  | 'x' :: hex | 'X' :: hex =>
    if !hex.isEmpty && hex.length ≤ 6 &&
        hex.all fun c => (Text.hexDigit? c).isSome then
      some (Char.ofNat (Text.numeralValue 16 hex))
    else
      none
  | _ =>
    if !digits.isEmpty && digits.length ≤ 7 &&
        digits.all Text.isDigit then
      some (Char.ofNat (Text.numeralValue 10 digits))
    else
      none

/- The character between an ampersand and a semicolon. -/
def referredCharacter? (name : Text) : Option Char :=
  match name with
  | '#' :: digits => numberedCharacter? digits
  | _ => (namedCharacters.lookup name)

/- The character may follow a backslash that escapes it. -/
def isEscapable (c : Char) : Bool :=
  let n := c.toNat
  (0x21 ≤ n && n ≤ 0x2f) || (0x3a ≤ n && n ≤ 0x40) ||
    (0x5b ≤ n && n ≤ 0x60) || (0x7b ≤ n && n ≤ 0x7e)

/- A destination with its escapes resolved. -/
def unescape :
    (fuel : Nat) →
    Text →
    Text
  | 0, text => text
  | _, [] => []
  | fuel + 1, '\\' :: c :: rest =>
    if isEscapable c then c :: unescape fuel rest
    else '\\' :: unescape fuel (c :: rest)
  | fuel + 1, '&' :: rest =>
    let name := rest.takeWhile (· ≠ ';')
    match rest.drop name.length, referredCharacter? name with
    | ';' :: after, some c => c :: unescape fuel after
    | _, _ => '&' :: unescape fuel rest
  | fuel + 1, c :: rest => c :: unescape fuel rest

/- Schemes that a destination must not have. -/
def unsafeSchemes : List Text :=
  ["vbscript:".toList, "javascript:".toList,
    "file:".toList, "data:".toList]

/- Beginnings of embedded images, which are harmless. -/
def imageSchemes : List Text :=
  ["data:image/gif;".toList, "data:image/png;".toList,
    "data:image/jpeg;".toList, "data:image/webp;".toList]

/- The destination may be linked to. -/
def isSafe (destination : Text) : Bool :=
  let url := Text.lowerAscii (Text.strip destination)
  if unsafeSchemes.any (Text.startsWith url) then
    imageSchemes.any (Text.startsWith url)
  else
    true

------------------------------------------------------------
-- Parts Of A Definition
------------------------------------------------------------

/-
  The label up to its closing bracket, with what follows the
  bracket. An unescaped bracket cannot open inside.
-/
def label? : Text → Option (Text × Text)
  | [] => none
  | '\\' :: c :: rest =>
    (label? rest).map
      fun (label, after) => ('\\' :: c :: label, after)
  | c :: rest =>
    if c = '[' then none
    else if c = ']' then some ([], rest)
    else
      (label? rest).map
        fun (label, after) => (c :: label, after)

/- The character separates parts of a definition. -/
def separates (c : Char) : Bool :=
  isSpaceOrTab c || c == '\n'

/- A destination between angle brackets, and what follows. -/
def bracketed? : Text → Option (Text × Text)
  | [] => none
  | '\\' :: c :: rest =>
    (bracketed? rest).map
      fun (url, after) => ('\\' :: c :: url, after)
  | c :: rest =>
    if c = '\n' ∨ c = '<' then none
    else if c = '>' then some ([], rest)
    else
      (bracketed? rest).map
        fun (url, after) => (c :: url, after)

/-
  A destination without brackets, and what follows. Its
  parentheses are balanced and at most 32 deep.
-/
def bare? : (depth : Nat) → Text → Option (Text × Text)
  | depth, [] => if depth = 0 then some ([], []) else none
  | depth, '\\' :: c :: rest =>
    if c = ' ' then
      if depth = 0 then some ([], '\\' :: c :: rest)
      else none
    else
      (bare? depth rest).map
        fun (url, after) => ('\\' :: c :: url, after)
  | depth, c :: rest =>
    let stops : Bool := c.toNat ≤ 0x20 || c.toNat == 0x7f
    if stops || (c == ')' && depth == 0) then
      if depth = 0 then some ([], c :: rest) else none
    else if c = '(' then
      if depth ≥ 32 then none
      else
        (bare? (depth + 1) rest).map
          fun (url, after) => (c :: url, after)
    else
      (bare?
          (if c = ')' then depth - 1 else depth) rest).map
        fun (url, after) => (c :: url, after)

/- The destination of a definition, and what follows. -/
def destination? : Text → Option (Text × Text)
  | '<' :: rest => bracketed? rest
  | text =>
    match bare? 0 text with
    | some (c :: url, after) => some (c :: url, after)
    | _ => none

/- What follows the mark that closes a title. -/
def afterTitle? (closing : Char) : Text → Option Text
  | [] => none
  | '\\' :: _ :: rest => afterTitle? closing rest
  | c :: rest =>
    if c = closing then some rest
    else if c = '(' ∧ closing = ')' then none
    else afterTitle? closing rest

/- What follows a title, and whether the title is empty. -/
def title? : Text → Option (Bool × Text)
  | c :: rest =>
    if c = '"' ∨ c = '\'' then
      (afterTitle? c rest).map fun after =>
        (rest.head? == some c, after)
    else if c = '(' then
      (afterTitle? ')' rest).map fun after =>
        (rest.head? == some ')', after)
    else
      none
  | [] => none

------------------------------------------------------------
-- Definitions
------------------------------------------------------------

/- Only blanks are left on the line. -/
def endsLine (text : Text) : Bool :=
  match text.dropWhile isSpaceOrTab with
  | [] => true
  | c :: _ => c == '\n'

/-
  What follows a definition after its destination: the title
  belongs to it if its line ends there.
-/
def afterDestination? (after : Text) : Option Text :=
  let rest := after.dropWhile separates
  let titled : Option Text :=
    if rest.length = after.length then none
    else
      match title? rest with
      | some (isEmpty, tail) =>
        if endsLine tail then some tail
        else if isEmpty then some tail
        else none
      | none => none
  match titled with
  | some tail => if endsLine tail then some tail else none
  | none => if endsLine after then some after else none

/- The number of line feeds in a text. -/
def countLineFeeds (text : Text) : Nat :=
  text.countP (· == '\n')

/-
  The number of line feeds inside the definition that a text
  begins with. Those that a backslash escapes inside the
  destination are not counted.
-/
def lineFeeds? (text : Text) : Option Nat := do
  let (label, afterLabel) ←
    match text with
    | '[' :: rest => label? rest
    | _ => none
  let afterColon ← Text.stripPrefix? [':'] afterLabel
  let (url, after) ←
    destination? (afterColon.dropWhile separates)
  if !isSafe (unescape url.length url) then
    none
  let tail ← afterDestination? after
  if (Text.strip label).isEmpty then
    none
  let taken := text.take (text.length - tail.length)
  some (countLineFeeds taken - countLineFeeds url)

end Reference

end Markdown

end ScriptWorkspace
