/-
  Texts and the operations on them that the rest of the
  library needs.

  A text is the list of its characters, so offsets and
  lengths count characters. A string literal is accepted
  wherever a text is expected.

  Key definitions include:
    * `Text`
    * `Text.splitOn`
    * `Text.joinWith`
    * `Text.stripPrefix?`
    * `Text.endsWith`
    * `Text.contains`
    * `Text.rawLines`
    * `Text.ofNat`
    * `Text.ofInt`
-/

namespace ScriptWorkspace

/- A text is the list of its characters. -/
abbrev Text := List Char

instance : Coe String Text := ⟨String.toList⟩

namespace Text

------------------------------------------------------------
-- Cutting And Joining
------------------------------------------------------------

/-
  The pieces of a text between the occurrences of a
  separator; there is always one piece more than there are
  separators.
-/
def splitOn (separator : Char) : Text → List Text
  | [] => [[]]
  | c :: rest =>
    if c = separator then
      [] :: splitOn separator rest
    else
      match splitOn separator rest with
      | [] => [[c]]
      | piece :: pieces => (c :: piece) :: pieces

/- The pieces of a list put together with a separator. -/
def joinWith
    (separator : Text) :
    List Text → Text
  | [] => []
  | [piece] => piece
  | piece :: pieces =>
    piece ++ separator ++ joinWith separator pieces

/- What follows a given beginning, if the text has it. -/
def stripPrefix? : Text → Text → Option Text
  | [], text => some text
  | _ :: _, [] => none
  | p :: beginning, c :: text =>
    if p = c then stripPrefix? beginning text else none

/- The text begins with the given one. -/
def startsWith
    (text beginning : Text) : Bool :=
  beginning.isPrefixOf text

/- The text ends with the given one. -/
def endsWith
    (text ending : Text) : Bool :=
  ending.isSuffixOf text

/- The text holds the given one somewhere. -/
def contains
    (wanted : Text) : Text → Bool
  | [] => wanted.isEmpty
  | c :: text =>
    wanted.isPrefixOf (c :: text) || contains wanted text

/- The text without the characters of a class at its end. -/
def dropRightWhile
    (p : Char → Bool)
    (text : Text) : Text :=
  (text.reverse.dropWhile p).reverse

/-
  Split around the first occurrence of a character, which
  belongs to neither part.
-/
def splitFirst?
    (separator : Char) :
    Text → Option (Text × Text)
  | [] => none
  | c :: rest =>
    if c = separator then
      some ([], rest)
    else
      (splitFirst? separator rest).map
        fun (before, after) => (c :: before, after)

/- Each occurrence of a character replaced by another. -/
def replaceChar
    (old new : Char)
    (text : Text) : Text :=
  text.map fun c => if c = old then new else c

/-
  The lines of a text, each with the line feed that ends it;
  only the last one may lack it.
-/
def rawLines : Text → List Text
  | [] => []
  | c :: rest =>
    if c = '\n' then
      ['\n'] :: rawLines rest
    else
      match rawLines rest with
      | [] => [[c]]
      | line :: lines => (c :: line) :: lines

------------------------------------------------------------
-- Numerals
------------------------------------------------------------

/- The decimal numeral of a natural number. -/
def ofNat (n : Nat) : Text :=
  Nat.toDigits 10 n

/- The decimal numeral of an integer. -/
def ofInt : Int → Text
  | .ofNat n => ofNat n
  | .negSucc n => '-' :: ofNat (n + 1)

/- A numeral filled with zeros on the left to a width. -/
def padZero
    (width : Nat)
    (numeral : Text) : Text :=
  List.replicate (width - numeral.length) '0' ++ numeral

/- The value of a hexadecimal digit. -/
def hexDigit? (c : Char) : Option Nat :=
  if '0' ≤ c ∧ c ≤ '9' then
    some (c.toNat - '0'.toNat)
  else if 'a' ≤ c ∧ c ≤ 'f' then
    some (c.toNat - 'a'.toNat + 10)
  else if 'A' ≤ c ∧ c ≤ 'F' then
    some (c.toNat - 'A'.toNat + 10)
  else
    none

/- The hexadecimal numeral of a number, of a given width. -/
def hex
    (width n : Nat) : Text :=
  padZero width (Nat.toDigits 16 n)

/- The number that a list of digits stands for in a base. -/
def numeralValue
    (base : Nat)
    (digits : Text) : Nat :=
  digits.foldl
    (fun value c => value * base + (hexDigit? c).getD 0)
    0

/- The character is one of the ten decimal digits. -/
def isDigit (c : Char) : Bool :=
  decide ('0' ≤ c ∧ c ≤ '9')

/- The character is an unaccented Latin letter. -/
def isLetter (c : Char) : Bool :=
  decide (('a' ≤ c ∧ c ≤ 'z') ∨ ('A' ≤ c ∧ c ≤ 'Z'))

/- The text in unaccented lower case letters. -/
def lowerAscii (text : Text) : Text :=
  text.map Char.toLower

end Text

end ScriptWorkspace
