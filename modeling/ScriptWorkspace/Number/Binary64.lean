import ScriptWorkspace.Text.Basic

/-
  Binary floating point numbers of 64 bits.

  A number is kept as its bit pattern, so equality is decided
  and every pattern is equal to itself. Reading rounds a
  decimal to the nearest number, a tie to the even one.
  Writing takes the fewest digits that read back, and of
  those the nearest to the number.

  Key definitions include:
    * `Binary64`
    * `Binary64.ofDecimal`
    * `Binary64.shortest`
    * `Binary64.render`
-/

namespace ScriptWorkspace

/- A binary floating point number as its bit pattern. -/
structure Binary64 where
  bits : Nat
deriving DecidableEq, Repr

namespace Binary64

------------------------------------------------------------
-- Bit Patterns
------------------------------------------------------------

/- The sign bit. -/
def signBit : Nat := Nat.pow 2 63

/- The pattern of infinity. -/
def infinityBits : Nat := 0x7ff * Nat.pow 2 52

/- The pattern of a number that is none. -/
def nanBits : Nat := infinityBits + Nat.pow 2 51

/- A pattern with a sign. -/
def withSign (negative : Bool) (bits : Nat) : Binary64 :=
  ⟨if negative then signBit + bits else bits⟩

/- Infinity with a sign. -/
def infinity (negative : Bool) : Binary64 :=
  withSign negative infinityBits

/- A number that is none, with a sign. -/
def nan (negative : Bool) : Binary64 :=
  withSign negative nanBits

/- The number is negative. -/
def isNegative (x : Binary64) : Bool :=
  decide (signBit ≤ x.bits)

/- The pattern without its sign. -/
def magnitude (x : Binary64) : Nat :=
  x.bits % signBit

/-
  The mantissa and the binary exponent of a finite pattern,
  so that the number is their product.
-/
def mantissaExponent (bits : Nat) : Nat × Int :=
  let exponent : Nat := bits / Nat.pow 2 52
  let fraction : Nat := bits % Nat.pow 2 52
  if exponent = 0 then (fraction, -1074)
  else (fraction + Nat.pow 2 52, Int.ofNat exponent - 1075)

------------------------------------------------------------
-- Reading
------------------------------------------------------------

/- A quotient rounded to the nearest integer, ties to even. -/
def roundQuotient (num den : Nat) : Nat :=
  let quotient := num / den
  let rest := num % den
  if 2 * rest > den then quotient + 1
  else if 2 * rest = den ∧ quotient % 2 = 1 then quotient + 1
  else quotient

/- A quotient of two numbers times a power of two. -/
def scaled (num den : Nat) (exponent : Int) : Nat × Nat :=
  if exponent ≥ 0 then (num * Nat.pow 2 exponent.toNat, den)
  else (num, den * Nat.pow 2 (-exponent).toNat)

/-
  The pattern nearest to a positive quotient. The binary
  exponent is chosen so that the mantissa has 53 bits, or
  fewer at the lower end.
-/
def ofQuotient (num den : Nat) : Nat :=
  let guess : Int :=
    (Nat.log2 num : Int) - (Nat.log2 den : Int) - 52
  let (top, bottom) := scaled num den (-guess)
  let exponent : Int :=
    max (-1074)
      (if top < bottom * Nat.pow 2 52 then guess - 1 else guess)
  let (num', den') := scaled num den (-exponent)
  let mantissa := roundQuotient num' den'
  let bits :=
    if mantissa < Nat.pow 2 52 then mantissa
    else (exponent + 1074).toNat * Nat.pow 2 52 + mantissa
  min bits infinityBits

/-
  The number nearest to a decimal, whose digits are followed
  by so many zeros, or preceded by a point if negative.
-/
def ofDecimal
    (negative : Bool)
    (digits : Nat)
    (exponent : Int) : Binary64 :=
  let size : Int := (Text.ofNat digits).length + exponent
  if digits = 0 ∨ size < -330 then withSign negative 0
  else if size > 310 then infinity negative
  else if exponent ≥ 0 then
    withSign negative
      (ofQuotient (digits * Nat.pow 10 exponent.toNat) 1)
  else
    withSign negative
      (ofQuotient digits (Nat.pow 10 (-exponent).toNat))

------------------------------------------------------------
-- Writing
------------------------------------------------------------

/- A decimal, whose digits are followed by so many zeros. -/
structure Decimal where
  digits : Nat
  exponent : Int
deriving DecidableEq, Repr

/- The decimal reads back as the pattern. -/
def readsBack (bits : Nat) (decimal : Decimal) : Bool :=
  (ofDecimal false decimal.digits decimal.exponent).bits ==
    bits

/-
  The two neighbours of a pattern among the decimals with a
  given exponent, the nearer one first.
-/
def neighbours (bits : Nat) (exponent : Int) : List Decimal :=
  let (mantissa, power) := mantissaExponent bits
  let (num, den) := scaled mantissa 1 power
  let (num, den) :=
    if exponent ≥ 0 then (num, den * Nat.pow 10 exponent.toNat)
    else (num * Nat.pow 10 (-exponent).toNat, den)
  let below := num / den
  let rest := num % den
  let low : Decimal := ⟨below, exponent⟩
  let high : Decimal := ⟨below + 1, exponent⟩
  if 2 * rest < den ∨ (2 * rest = den ∧ below % 2 = 0) then
    [low, high]
  else
    [high, low]

/-
  The shortest decimal that reads back, from an exponent
  downwards.
-/
def shortestFrom (bits : Nat) :
    (fuel : Nat) →
    (exponent : Int) →
    Decimal
  | 0, exponent => ⟨0, exponent⟩
  | fuel + 1, exponent =>
    match (neighbours bits exponent).find?
        (readsBack bits) with
    | some decimal => decimal
    | none => shortestFrom bits fuel (exponent - 1)

/- The decimal exponent of the first digit, or one above. -/
def leadingExponent (bits : Nat) : Int :=
  let (mantissa, power) := mantissaExponent bits
  let binary : Int := (Nat.log2 mantissa : Int) + power + 1
  -- The logarithm of two lies below 0.30103.
  if binary ≥ 0 then binary * 30103 / 100000 + 1
  else binary * 30102 / 100000 + 1

/- The shortest decimal that reads back as a pattern. -/
def shortest (bits : Nat) : Decimal :=
  shortestFrom bits 25 (leadingExponent bits)

/- A decimal without zeros at the end of its digits. -/
def Decimal.trim :
    (fuel : Nat) →
    Decimal →
    Decimal
  | 0, decimal => decimal
  | fuel + 1, decimal =>
    if decimal.digits ≠ 0 ∧ decimal.digits % 10 = 0 then
      trim fuel ⟨decimal.digits / 10, decimal.exponent + 1⟩
    else
      decimal

/-
  Digits with a point: positional from four places behind it
  up to sixteen before it, otherwise with an exponent of at
  least two digits.
-/
def renderDecimal (decimal : Decimal) : Text :=
  let digits := Text.ofNat decimal.digits
  let point : Int := digits.length + decimal.exponent
  if -4 < point ∧ point ≤ 16 then
    if point ≤ 0 then
      "0." ++ List.replicate (-point).toNat '0' ++ digits
    else if decimal.exponent ≥ 0 then
      digits ++
        List.replicate decimal.exponent.toNat '0' ++ ".0"
    else
      digits.take point.toNat ++ "." ++
        digits.drop point.toNat
  else
    let fraction := digits.drop 1
    let exponent := point - 1
    digits.take 1 ++
      (if fraction.isEmpty then [] else '.' :: fraction) ++
      ['e', if exponent < 0 then '-' else '+'] ++
      Text.padZero 2 (Text.ofNat exponent.natAbs)

/- The text of a number. -/
def render (x : Binary64) : Text :=
  let bits := x.magnitude
  if bits > infinityBits then "nan"
  else
    let sign : Text := if x.isNegative then ['-'] else []
    if bits = infinityBits then sign ++ "inf"
    else if bits = 0 then sign ++ "0.0"
    else
      sign ++ renderDecimal ((shortest bits).trim 400)

end Binary64

end ScriptWorkspace
