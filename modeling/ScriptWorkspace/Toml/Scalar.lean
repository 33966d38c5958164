import ScriptWorkspace.Toml.Value

/-
  Reading the scalars of TOML: strings, numbers, dates and
  times.

  Each reader takes the text from the scalar on and answers
  with the value and the rest of the text. Line ends are a
  single line feed here.

  Key definitions include:
    * `Toml.Fault`
    * `Toml.readString?`
    * `Toml.readMoment?`
    * `Toml.readNumber?`
-/

namespace ScriptWorkspace

namespace Toml

------------------------------------------------------------
-- Faults
------------------------------------------------------------

/-
  Why a text is no TOML document. A date outside the calendar
  and a decimal numeral that is too long are kept apart from
  the other faults.
-/
inductive Fault
  | grammar
  | calendar
  | longNumeral
deriving DecidableEq, Repr

/- The most digits that a decimal numeral may have. -/
def maxDigits : Nat := 4300

------------------------------------------------------------
-- Characters
------------------------------------------------------------

/- The character is a blank. -/
def isSpace (c : Char) : Bool :=
  c == ' ' || c == '\t'

/- The character is a blank or ends a line. -/
def isSpaceOrNewline (c : Char) : Bool :=
  isSpace c || c == '\n'

/- The character is a control character other than a tab. -/
def isControl (c : Char) : Bool :=
  (c.toNat < 0x20 && c != '\t') || c.toNat == 0x7f

/- The character can stand in a bare key. -/
def isBareKeyChar (c : Char) : Bool :=
  Text.isLetter c || Text.isDigit c || c == '-' || c == '_'

------------------------------------------------------------
-- Strings
------------------------------------------------------------

/- The character of an escape with hexadecimal digits. -/
def readCodePoint
    (digits : Nat)
    (text : Text) : Except Fault (Char × Text) :=
  let numeral := text.take digits
  let value := Text.numeralValue 16 numeral
  if numeral.length = digits &&
      (numeral.all fun c => (Text.hexDigit? c).isSome) &&
      decide value.isValidChar then
    .ok (Char.ofNat value, text.drop digits)
  else
    .error .grammar

/- The character of an escape of one letter. -/
def simpleEscape? : Char → Option Char
  | 'b' => some '\x08'
  | 't' => some '\t'
  | 'n' => some '\n'
  | 'f' => some '\x0c'
  | 'r' => some '\r'
  | '"' => some '"'
  | '\\' => some '\\'
  | _ => none

/- The character of an escape, after its backslash. -/
def readEscape : Text → Except Fault (Char × Text)
  | 'u' :: rest => readCodePoint 4 rest
  | 'U' :: rest => readCodePoint 8 rest
  | c :: rest =>
    match simpleEscape? c with
    | some escaped => .ok (escaped, rest)
    | none => .error .grammar
  | [] => .error .grammar

/-
  What follows a backslash at the end of a line: all blanks
  and line ends up to the next other character go with it.
-/
def skipFolded (text : Text) : Except Fault Text :=
  match text.dropWhile isSpace with
  | [] => .ok []
  | '\n' :: rest => .ok (rest.dropWhile isSpaceOrNewline)
  | _ => .error .grammar

/- The rest of a string in double quotes on one line. -/
def readBasic : (fuel : Nat) → Text → Except Fault (Text × Text)
  | 0, _ => .error .grammar
  | _, [] => .error .grammar
  | _ + 1, '"' :: rest => .ok ([], rest)
  | fuel + 1, '\\' :: rest => do
    let (c, rest) ← readEscape rest
    let (text, rest) ← readBasic fuel rest
    return (c :: text, rest)
  | fuel + 1, c :: rest => do
    if isControl c then throw .grammar
    let (text, rest) ← readBasic fuel rest
    return (c :: text, rest)

/- The rest of a string in single quotes on one line. -/
def readLiteral : Text → Except Fault (Text × Text)
  | [] => .error .grammar
  | '\'' :: rest => .ok ([], rest)
  | c :: rest => do
    if isControl c then throw .grammar
    let (text, rest) ← readLiteral rest
    return (c :: text, rest)

/-
  Up to two quotes that directly follow the end of a string
  of several lines belong to it.
-/
def takeExtraQuotes (quote : Char) : Text → Text × Text
  | a :: b :: rest =>
    if a = quote then
      if b = quote then ([a, b], rest) else ([a], b :: rest)
    else
      ([], a :: b :: rest)
  | [a] => if a = quote then ([a], []) else ([], [a])
  | [] => ([], [])

/- The rest of a string in three double quotes. -/
def readMultilineBasic :
    (fuel : Nat) →
    Text →
    Except Fault (Text × Text)
  | 0, _ => .error .grammar
  | _, [] => .error .grammar
  | _ + 1, '"' :: '"' :: '"' :: rest =>
    .ok (takeExtraQuotes '"' rest)
  | fuel + 1, '\\' :: rest =>
    match rest with
    | c :: _ =>
      if isSpaceOrNewline c then do
        readMultilineBasic fuel (← skipFolded rest)
      else do
        let (c, rest) ← readEscape rest
        let (text, rest) ← readMultilineBasic fuel rest
        return (c :: text, rest)
    | [] => .error .grammar
  | fuel + 1, c :: rest => do
    if isControl c && c != '\n' then throw .grammar
    let (text, rest) ← readMultilineBasic fuel rest
    return (c :: text, rest)

/- The rest of a string in three single quotes. -/
def readMultilineLiteral : Text → Except Fault (Text × Text)
  | [] => .error .grammar
  | '\'' :: '\'' :: '\'' :: rest =>
    .ok (takeExtraQuotes '\'' rest)
  | c :: rest => do
    if isControl c && c != '\n' then throw .grammar
    let (text, rest) ← readMultilineLiteral rest
    return (c :: text, rest)

/- The text without a line end in front. -/
def dropNewline : Text → Text
  | '\n' :: rest => rest
  | text => text

/- A string on one line, from its opening quote on. -/
def readShortString? : Text → Option (Except Fault (Text × Text))
  | '"' :: rest => some (readBasic (rest.length + 1) rest)
  | '\'' :: rest => some (readLiteral rest)
  | _ => none

/- A string, from its opening quotes on. -/
def readString? : Text → Option (Except Fault (Text × Text))
  | '"' :: '"' :: '"' :: rest =>
    let body := dropNewline rest
    some (readMultilineBasic (body.length + 1) body)
  | '\'' :: '\'' :: '\'' :: rest =>
    some (readMultilineLiteral (dropNewline rest))
  | text => readShortString? text

------------------------------------------------------------
-- Dates And Times
------------------------------------------------------------

/- A number of an exact count of digits within a range. -/
def readField?
    (digits least greatest : Nat)
    (text : Text) : Option (Nat × Text) :=
  let numeral := text.take digits
  let value := Text.numeralValue 10 numeral
  if numeral.length = digits && numeral.all Text.isDigit &&
      decide (least ≤ value ∧ value ≤ greatest) then
    some (value, text.drop digits)
  else
    none

/- A character that has to come next. -/
def expect? (c : Char) : Text → Option Text
  | d :: rest => if c = d then some rest else none
  | [] => none

/- A date, which need not be in the calendar. -/
def readDate? (text : Text) : Option (Date × Text) := do
  let (year, text) ← readField? 4 0 9999 text
  let (month, text) ← readField? 2 1 12 (← expect? '-' text)
  let (day, text) ← readField? 2 1 31 (← expect? '-' text)
  return ({ year, month, day }, text)

/- Digits after a point as millionths, if there are any. -/
def readMillionths (text : Text) : Nat × Text :=
  match text with
  | '.' :: rest =>
    let digits := rest.takeWhile Text.isDigit
    if digits.isEmpty then
      (0, text)
    else
      let places := digits.take 6
      (Text.numeralValue 10
          (places ++
            List.replicate (6 - places.length) '0'),
        rest.drop digits.length)
  | _ => (0, text)

/- A time of day. -/
def readTime? (text : Text) : Option (TimeOfDay × Text) := do
  let (hour, text) ← readField? 2 0 23 text
  let (minute, text) ← readField? 2 0 59 (← expect? ':' text)
  let (second, text) ← readField? 2 0 59 (← expect? ':' text)
  let (microsecond, text) := readMillionths text
  return ({ hour, minute, second, microsecond }, text)

/- An offset from universal time, if there is one. -/
def readOffset (text : Text) : Option Int × Text :=
  let hours (negative : Bool) (rest : Text) :=
    match (do
      let (hour, rest) ← readField? 2 0 23 rest
      let (minute, rest) ←
        readField? 2 0 59 (← expect? ':' rest)
      let minutes : Int := hour * 60 + minute
      return (if negative then -minutes else minutes, rest) :
        Option (Int × Text)) with
    | some (minutes, rest) => (some minutes, rest)
    | none => (none, text)
  match text with
  | 'Z' :: rest | 'z' :: rest => (some 0, rest)
  | '+' :: rest => hours false rest
  | '-' :: rest => hours true rest
  | _ => (none, text)

/- A time that a date and a separator come before. -/
def readTimeAfter? : Text → Option (TimeOfDay × Text)
  | c :: rest =>
    if c = 'T' ∨ c = 't' ∨ c = ' ' then
      readTime? rest
    else
      none
  | [] => none

/- A date, a time, or a date with a time. -/
def readMoment? (text : Text) : Option (Except Fault (Toml × Text)) :=
  match readDate? text with
  | some (day, rest) =>
    if !day.exists then
      some (.error .calendar)
    else
      match readTimeAfter? rest with
      | some (clock, rest) =>
        let (offset, rest) := readOffset rest
        some (.ok (.dateTime day clock offset, rest))
      | none => some (.ok (.date day, rest))
  | none =>
    (readTime? text).map fun (clock, rest) =>
      .ok (.time clock, rest)

------------------------------------------------------------
-- Numbers
------------------------------------------------------------

/-
  Digits in a row; a single underscore may stand between two
  of them and is left out.
-/
def digitRun (p : Char → Bool) : Text → Text × Text
  | [] => ([], [])
  | c :: '_' :: d :: rest =>
    if p c && p d then
      let (digits, final) := digitRun p (d :: rest)
      (c :: digits, final)
    else if p c then
      ([c], '_' :: d :: rest)
    else
      ([], c :: '_' :: d :: rest)
  | c :: rest =>
    if p c then
      let (digits, final) := digitRun p rest
      (c :: digits, final)
    else
      ([], c :: rest)

/- Digits of a base after a zero and a letter. -/
def readBased?
    (base : Nat)
    (text : Text) : Option (Toml × Text) :=
  let isBaseDigit (c : Char) : Bool :=
    ((Text.hexDigit? c).map fun n => decide (n < base)).getD
      false
  let (digits, rest) := digitRun isBaseDigit text
  if digits.isEmpty then none
  else some (.int (Text.numeralValue base digits), rest)

/- Digits after a point, if there are any. -/
def readPlaces (text : Text) : Text × Text :=
  match text with
  | '.' :: rest =>
    let (digits, after) := digitRun Text.isDigit rest
    if digits.isEmpty then ([], text) else (digits, after)
  | _ => ([], text)

/- An exponent, if there is one. -/
def readExponent (text : Text) : Option Int × Text :=
  let read (negative : Bool) (rest : Text) :=
    let (digits, after) := digitRun Text.isDigit rest
    if digits.isEmpty then
      (none, text)
    else
      let value : Int := Text.numeralValue 10 digits
      (some (if negative then -value else value), after)
  match text with
  | 'e' :: '-' :: rest | 'E' :: '-' :: rest => read true rest
  | 'e' :: '+' :: rest | 'E' :: '+' :: rest => read false rest
  | 'e' :: rest | 'E' :: rest => read false rest
  | _ => (none, text)

/- A decimal number after its sign. -/
def readDecimal?
    (negative : Bool)
    (text : Text) : Option (Except Fault (Toml × Text)) :=
  let (whole, rest) :=
    match text with
    | '0' :: rest => (['0'], rest)
    | _ => digitRun Text.isDigit text
  if whole.isEmpty then
    none
  else
    let (places, rest) := readPlaces rest
    let (power, rest) := readExponent rest
    if places.isEmpty && power.isNone then
      if whole.length > maxDigits then
        some (.error .longNumeral)
      else
        let value : Int := Text.numeralValue 10 whole
        some
          (.ok
            (.int (if negative then -value else value), rest))
    else
      some
        (.ok
          (.float
            (Binary64.ofDecimal negative
              (Text.numeralValue 10 (whole ++ places))
              (power.getD 0 - places.length)), rest))

/- Infinity or no number, after the sign. -/
def readSpecial?
    (negative : Bool) :
    Text → Option (Except Fault (Toml × Text))
  | 'i' :: 'n' :: 'f' :: rest =>
    some (.ok (.float (Binary64.infinity negative), rest))
  | 'n' :: 'a' :: 'n' :: rest =>
    some (.ok (.float (Binary64.nan negative), rest))
  | _ => none

/- A number after its sign. -/
def readSigned?
    (negative : Bool)
    (text : Text) : Option (Except Fault (Toml × Text)) :=
  (readDecimal? negative text).or
    (readSpecial? negative text)

/- A number. -/
def readNumber? : Text → Option (Except Fault (Toml × Text))
  | '+' :: rest => readSigned? false rest
  | '-' :: rest => readSigned? true rest
  | '0' :: letter :: rest =>
    let based :=
      match letter with
      | 'x' => readBased? 16 rest
      | 'o' => readBased? 8 rest
      | 'b' => readBased? 2 rest
      | _ => none
    match based with
    | some found => some (.ok found)
    | none => readSigned? false ('0' :: letter :: rest)
  | text => readSigned? false text

end Toml

end ScriptWorkspace
