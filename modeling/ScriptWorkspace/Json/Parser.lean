import ScriptWorkspace.Json.Value

/-
  Reading JSON.

  The grammar is the standard one with three further numbers:
  `NaN`, `Infinity` and `-Infinity`. A control character
  cannot stand in a string as it is. When a key of an object
  is repeated its last value counts.

  Each reader answers with what it read and with the rest of
  the text, or with nothing if the text is not well-formed.

  Key definitions include:
    * `Json.parseString?`
    * `Json.parseNumber?`
    * `Json.parseValue?`
    * `Json.parse?`
-/

namespace ScriptWorkspace

namespace Json

------------------------------------------------------------
-- Strings
------------------------------------------------------------

/- The text without JSON white space in front. -/
def skipBlank (text : Text) : Text :=
  text.dropWhile fun c =>
    c == ' ' || c == '\t' || c == '\n' || c == '\r'

/- The number that four hexadecimal digits stand for. -/
def unit? : Text → Option (Nat × Text)
  | a :: b :: c :: d :: rest =>
    if [a, b, c, d].all fun x => (Text.hexDigit? x).isSome
    then some (Text.numeralValue 16 [a, b, c, d], rest)
    else none
  | _ => none

/- The number is the first half of a surrogate pair. -/
def isHighHalf (n : Nat) : Bool :=
  0xd800 ≤ n && n < 0xdc00

/- The number is the second half of a surrogate pair. -/
def isLowHalf (n : Nat) : Bool :=
  0xdc00 ≤ n && n < 0xe000

/- The character that follows a backslash in a string. -/
def simpleEscape? : Char → Option Char
  | '"' => some '"'
  | '\\' => some '\\'
  | '/' => some '/'
  | 'b' => some '\x08'
  | 'f' => some '\x0c'
  | 'n' => some '\n'
  | 'r' => some '\r'
  | 't' => some '\t'
  | _ => none

/-
  The rest of a string after its opening quote. The text is
  missing if half of a surrogate pair stands alone.
-/
def parseString? :
    (fuel : Nat) →
    Text →
    Option (Option Text × Text)
  | 0, _ => none
  | _, [] => none
  | _ + 1, '"' :: rest => some (some [], rest)
  | fuel + 1, '\\' :: 'u' :: rest =>
    match unit? rest with
    | none => none
    | some (n, after) =>
      if isHighHalf n then
        match after with
        | '\\' :: 'u' :: second =>
          match unit? second with
          | none => none
          | some (m, tail) =>
            if isLowHalf m then
              (parseString? fuel tail).map
                fun (text, final) =>
                  (text.map
                    (Char.ofNat
                      (0x10000 + (n - 0xd800) * 0x400 +
                        (m - 0xdc00)) :: ·), final)
            else
              (parseString? fuel after).map
                fun (_, final) => (none, final)
        | _ =>
          (parseString? fuel after).map
            fun (_, final) => (none, final)
      else if isLowHalf n then
        (parseString? fuel after).map
          fun (_, final) => (none, final)
      else
        (parseString? fuel after).map
          fun (text, final) =>
            (text.map (Char.ofNat n :: ·), final)
  | fuel + 1, '\\' :: c :: rest =>
    match simpleEscape? c with
    | none => none
    | some escaped =>
      (parseString? fuel rest).map
        fun (text, final) => (text.map (escaped :: ·), final)
  | fuel + 1, c :: rest =>
    if c.toNat < 0x20 ∨ c = '\\' then none
    else
      (parseString? fuel rest).map
        fun (text, final) => (text.map (c :: ·), final)

------------------------------------------------------------
-- Numbers
------------------------------------------------------------

/- Digits after a point, if there are any. -/
def fraction (text : Text) : Text × Text :=
  match text with
  | '.' :: rest =>
    let digits := rest.takeWhile Text.isDigit
    if digits.isEmpty then ([], text)
    else (digits, rest.drop digits.length)
  | _ => ([], text)

/- An exponent, if there is one. -/
def exponent (text : Text) : Option Int × Text :=
  let read (negative : Bool) (rest : Text) :=
    let digits := rest.takeWhile Text.isDigit
    if digits.isEmpty then (none, text)
    else
      let value : Int := Text.numeralValue 10 digits
      (some (if negative then -value else value),
        rest.drop digits.length)
  match text with
  | 'e' :: '-' :: rest | 'E' :: '-' :: rest => read true rest
  | 'e' :: '+' :: rest | 'E' :: '+' :: rest => read false rest
  | 'e' :: rest | 'E' :: rest => read false rest
  | _ => (none, text)

/- A number that begins with a digit. -/
def parseNumber?
    (negative : Bool)
    (text : Text) : Option (Json × Text) :=
  let whole :=
    match text with
    | '0' :: _ => ['0']
    | _ => text.takeWhile Text.isDigit
  if whole.isEmpty then none
  else
    let (places, rest) := fraction (text.drop whole.length)
    let (power, rest) := exponent rest
    if places.isEmpty && power.isNone then
      let value : Int := Text.numeralValue 10 whole
      some (.int (if negative then -value else value), rest)
    else
      some
        (.float
          (Binary64.ofDecimal negative
            (Text.numeralValue 10 (whole ++ places))
            (power.getD 0 - places.length)), rest)

------------------------------------------------------------
-- Values
------------------------------------------------------------

mutual

/- A value, with at most `fuel` levels and items to read. -/
def parseValue? :
    (fuel : Nat) →
    Text →
    Option (Json × Text)
  | 0, _ => none
  | fuel + 1, text =>
    match text with
    | '"' :: rest =>
      (parseString? (rest.length + 1) rest).map
        fun (text, after) => (.string text, after)
    | '[' :: rest =>
      match skipBlank rest with
      | ']' :: after => some (.array [], after)
      | items =>
        (parseItems? fuel items).map
          fun (items, after) => (.array items, after)
    | '\x7b' :: rest =>
      match skipBlank rest with
      | '\x7d' :: after => some (.object [], after)
      | members =>
        (parseMembers? fuel [] members).map
          fun (members, after) => (.object members, after)
    | 'n' :: 'u' :: 'l' :: 'l' :: rest => some (.null, rest)
    | 't' :: 'r' :: 'u' :: 'e' :: rest =>
      some (.bool true, rest)
    | 'f' :: 'a' :: 'l' :: 's' :: 'e' :: rest =>
      some (.bool false, rest)
    | 'N' :: 'a' :: 'N' :: rest =>
      some (.float (Binary64.nan false), rest)
    | '-' :: rest =>
      match Text.stripPrefix? "Infinity" rest with
      | some after =>
        some (.float (Binary64.infinity true), after)
      | none => parseNumber? true rest
    | _ =>
      match Text.stripPrefix? "Infinity" text with
      | some after =>
        some (.float (Binary64.infinity false), after)
      | none => parseNumber? false text

/- The items of an array from the first one on. -/
def parseItems? :
    (fuel : Nat) →
    Text →
    Option (List Json × Text)
  | 0, _ => none
  | fuel + 1, text =>
    match parseValue? fuel (skipBlank text) with
    | none => none
    | some (item, rest) =>
      match skipBlank rest with
      | ']' :: after => some ([item], after)
      | ',' :: after =>
        (parseItems? fuel after).map
          fun (items, final) => (item :: items, final)
      | _ => none

/- The members of an object from the first one on. -/
def parseMembers? :
    (fuel : Nat) →
    List (Option Text × Json) →
    Text →
    Option (List (Option Text × Json) × Text)
  | 0, _, _ => none
  | fuel + 1, members, text =>
    match skipBlank text with
    | '"' :: rest =>
      match parseString? (rest.length + 1) rest with
      | none => none
      | some (key, afterKey) =>
        match skipBlank afterKey with
        | ':' :: afterColon =>
          match parseValue? fuel (skipBlank afterColon) with
          | none => none
          | some (value, afterValue) =>
            let members := setMember key value members
            match skipBlank afterValue with
            | '\x7d' :: after => some (members, after)
            | ',' :: after =>
              parseMembers? fuel members after
            | _ => none
        | _ => none
    | _ => none

end

/- The value that a text holds. -/
def parse? (text : Text) : Option Json :=
  match parseValue? (2 * text.length + 2) (skipBlank text) with
  | some (value, rest) =>
    if (skipBlank rest).isEmpty then some value else none
  | none => none

end Json

end ScriptWorkspace
