import ScriptWorkspace.Toml.Layout.Basic
import ScriptWorkspace.Toml.Scalar

/-
  Reading the scalars of a document with their spelling.

  Here a line may end in a carriage return and a line feed,
  and a number is all that comes before the next delimiter.
  The number is read freely: a sign may stand before a point,
  and infinity may be written out.

  Key definitions include:
    * `Layout.Clash`
    * `Layout.LayoutFault`
    * `Layout.looseString?`
    * `Layout.looseNumber?`
    * `Layout.looseMoment?`
-/

namespace ScriptWorkspace

namespace Toml

namespace Layout

------------------------------------------------------------
-- Faults
------------------------------------------------------------

/- How an entry clashes with the entries before it. -/
inductive Clash
  | repeatedKey
  | reopenedTable
deriving DecidableEq, Repr

/-
  Why a text cannot be read with its layout: it is no TOML
  document, or two entries of the document or of one of its
  tables clash.
-/
inductive LayoutFault
  | grammar
  | atTop (clash : Clash)
  | inTable (clash : Clash)
deriving DecidableEq, Repr

------------------------------------------------------------
-- Characters
------------------------------------------------------------

/- The character ends a line or is part of its end. -/
def isLineEnd (c : Char) : Bool :=
  c == '\n' || c == '\r'

/- The character is a blank or part of the end of a line. -/
def isLayout (c : Char) : Bool :=
  isSpace c || isLineEnd c

/- The character ends a number. -/
def isDelimiter (c : Char) : Bool :=
  isLayout c || c == '#' || c == ',' || c == ']' ||
    c == '\x7d'

/- The beginning of a text that comes before its rest. -/
def consumed (text rest : Text) : Text :=
  text.take (text.length - rest.length)

------------------------------------------------------------
-- Strings
------------------------------------------------------------

/-
  The rest of a string in three quotes. Up to five quotes may
  end it, of which the first two belong to it.
-/
def readMultiline
    (quote : Char)
    (escapes : Bool) :
    (fuel : Nat) →
    Text →
    Except Fault (Text × Text)
  | 0, _ => .error .grammar
  | _, [] => .error .grammar
  | fuel + 1, c :: rest => do
    if c = quote then
      let quotes := (c :: rest).takeWhile (· == quote)
      let rest := (c :: rest).drop quotes.length
      if quotes.length ≥ 6 then
        throw .grammar
      else if quotes.length ≥ 3 then
        return (quotes.drop 3, rest)
      else
        let (text, rest) ←
          readMultiline quote escapes fuel rest
        return (quotes ++ text, rest)
    else if escapes && c == '\\' then
      let folded := rest.takeWhile isLayout
      if folded.isEmpty then
        let (escaped, rest) ← readEscape rest
        let (text, rest) ←
          readMultiline quote escapes fuel rest
        return (escaped :: text, rest)
      else if folded.any (· == '\n') then
        readMultiline quote escapes fuel
          (rest.drop folded.length)
      else
        throw .grammar
    else if isControl c && !isLineEnd c then
      throw .grammar
    else
      let (text, rest) ←
        readMultiline quote escapes fuel rest
      return (c :: text, rest)

/- The text without the end of a line in front. -/
def dropLineEnd : Text → Text
  | '\n' :: rest => rest
  | '\r' :: '\n' :: rest => rest
  | text => text

/- A string, from its opening quotes on. -/
def looseString? :
    Text → Option (Except Fault (Text × Text))
  | '"' :: '"' :: '"' :: rest =>
    let body := dropLineEnd rest
    some (readMultiline '"' true (body.length + 1) body)
  | '\'' :: '\'' :: '\'' :: rest =>
    let body := dropLineEnd rest
    some (readMultiline '\'' false (body.length + 1) body)
  | text => readShortString? text

------------------------------------------------------------
-- Numbers
------------------------------------------------------------

/- A numeral without the underscores between its digits. -/
def dropUnderscores (p : Char → Bool) : Text → Text
  | a :: '_' :: b :: rest =>
    if p a && p b then
      a :: dropUnderscores p (b :: rest)
    else
      a :: '_' :: dropUnderscores p (b :: rest)
  | c :: rest => c :: dropUnderscores p rest
  | [] => []

/- The number of a written power of ten. -/
def looseExponent? : Text → Option Int
  | [] => some 0
  | 'e' :: rest =>
    let (negative, digits) :=
      match rest with
      | '-' :: digits => (true, digits)
      | '+' :: digits => (false, digits)
      | digits => (false, digits)
    if digits.isEmpty || !digits.all Text.isDigit then
      none
    else
      let value : Int := Text.numeralValue 10 digits
      some (if negative then -value else value)
  | _ => none

/- A floating point number in lower case, after its sign. -/
def looseFloat?
    (negative : Bool)
    (text : Text) : Option Binary64 :=
  if text = "inf" ∨ text = "infinity" then
    some (Binary64.infinity negative)
  else if text = "nan" then
    some (Binary64.nan negative)
  else
    let whole := text.takeWhile Text.isDigit
    let rest := text.drop whole.length
    let (places, rest) :=
      match rest with
      | '.' :: after =>
        let places := after.takeWhile Text.isDigit
        (places, after.drop places.length)
      | _ => ([], rest)
    if whole.isEmpty && places.isEmpty then
      none
    else
      (looseExponent? rest).map fun power =>
        Binary64.ofDecimal negative
          (Text.numeralValue 10 (whole ++ places))
          (power - places.length)

/- The base that a prefix of a numeral announces. -/
def announcedBase : Text → Nat
  | '0' :: 'x' :: _ => 16
  | '0' :: 'o' :: _ => 8
  | '0' :: 'b' :: _ => 2
  | _ => 10

/- The character is a digit of a base. -/
def isDigitOf (base : Nat) (c : Char) : Bool :=
  ((Text.hexDigit? c).map fun n => decide (n < base)).getD
    false

/- The numeral has a zero in front that may not be there. -/
def hasLeadingZero : Text → Bool
  | '0' :: c :: _ =>
    !(c == '.' || c == 'o' || c == 'x' || c == 'b' ||
      c == 'e')
  | _ => false

/- A number, all of it. -/
def looseNumber? (text : Text) : Option Toml :=
  let (signed, negative, body) :=
    match text with
    | '+' :: rest => (true, false, rest)
    | '-' :: rest => (true, true, rest)
    | rest => (false, false, rest)
  let base := announcedBase body
  if hasLeadingZero body || (signed && base != 10) then
    none
  else
    let clean :=
      Text.lowerAscii (dropUnderscores (isDigitOf base) body)
    let head := clean.takeWhile (· != 'e')
    if clean.any (· == '_') || clean.getLast? == some '.' ||
        (base != 16 && head.getLast? == some '.') then
      none
    else if base != 10 then
      let digits := clean.drop 2
      if digits.isEmpty || !digits.all (isDigitOf base) then
        none
      else
        some (.int (Text.numeralValue base digits))
    else if !clean.isEmpty && clean.all Text.isDigit &&
        decide (clean.length ≤ maxDigits) then
      let value : Int := Text.numeralValue 10 clean
      some (.int (if negative then -value else value))
    else
      (looseFloat? negative clean).map .float

------------------------------------------------------------
-- Dates And Times
------------------------------------------------------------

/- A date that is in the calendar, and no more. -/
def looseDate? (text : Text) : Option Date :=
  match readDate? text with
  | some (day, []) => if day.exists then some day else none
  | _ => none

/- A date with a time, or a time alone, and no more. -/
def looseMoment? (text : Text) : Option Toml :=
  match readDate? text with
  | some (day, rest) =>
    match readTimeAfter? rest with
    | some (clock, rest) =>
      let (offset, rest) := readOffset rest
      if rest.isEmpty && day.exists then
        some (.dateTime day clock offset)
      else
        none
    | none => none
  | none =>
    match readTime? text with
    | some (clock, []) => some (.time clock)
    | _ => none

end Layout

end Toml

end ScriptWorkspace
