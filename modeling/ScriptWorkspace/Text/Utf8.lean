import ScriptWorkspace.Text.Basic

/-
  The UTF-8 encoding: decoding of bytes with a report of the
  first fault, and the number of bytes of a text.

  A fault names the bytes that cannot be decoded by their
  position and number. Of a sequence that breaks off, only
  the bytes that could still begin a character are counted.

  Key definitions include:
    * `Utf8.Fault`
    * `Utf8.Fault.message`
    * `Utf8.next`
    * `Utf8.decode`
    * `Utf8.encode`
    * `Utf8.width`
-/

namespace ScriptWorkspace

namespace Utf8

------------------------------------------------------------
-- Faults
------------------------------------------------------------

/- Why bytes are no UTF-8 text. -/
inductive FaultKind
  | invalidStart
  | invalidContinuation
  | unexpectedEnd
deriving DecidableEq, Repr

/- A run of bytes that cannot be decoded. -/
structure Fault where
  kind : FaultKind
  position : Nat
  length : Nat
  first : UInt8
deriving DecidableEq, Repr

/- The wording for a kind of fault. -/
def FaultKind.message : FaultKind → Text
  | .invalidStart => "invalid start byte"
  | .invalidContinuation => "invalid continuation byte"
  | .unexpectedEnd => "unexpected end of data"

/- The wording for a fault. -/
def Fault.message (fault : Fault) : Text :=
  let subject : Text :=
    if fault.length ≤ 1 then
      "byte 0x" ++ Text.hex 2 fault.first.toNat ++
        " in position " ++ Text.ofNat fault.position
    else
      "bytes in position " ++ Text.ofNat fault.position ++
        "-" ++ Text.ofNat
          (fault.position + fault.length - 1)
  "'utf-8' codec can't decode " ++ subject ++ ": " ++
    fault.kind.message

------------------------------------------------------------
-- Decoding
------------------------------------------------------------

/- The first character of some bytes, or why there is none. -/
inductive Head
  | char (c : Char) (rest : List UInt8)
  | fault
      (kind : FaultKind)
      (length : Nat)
      (first : UInt8)
      (rest : List UInt8)
  | done

/- The byte continues a character. -/
def isContinuation (b : UInt8) : Bool :=
  0x80 ≤ b && b < 0xc0

/- The six bits that a continuation byte carries. -/
def payload (b : UInt8) : Nat :=
  b.toNat % 0x40

/-
  The second byte of a character is in range for its first
  one: no overlong form, no surrogate and nothing above the
  last code point.
-/
def secondFits (first second : UInt8) : Bool :=
  isContinuation second &&
    !(first == 0xe0 && second < 0xa0) &&
    !(first == 0xed && second ≥ 0xa0) &&
    !(first == 0xf0 && second < 0x90) &&
    !(first == 0xf4 && second ≥ 0x90)

/- The number of bytes that a first byte announces. -/
def announced? (b : UInt8) : Option Nat :=
  if b < 0x80 then some 1
  else if b < 0xc2 then none
  else if b < 0xe0 then some 2
  else if b < 0xf0 then some 3
  else if b < 0xf5 then some 4
  else none

/- The first character of some bytes. -/
def next : List UInt8 → Head
  | [] => .done
  | b :: rest =>
    match announced? b with
    | none => .fault .invalidStart 1 b rest
    | some 1 => .char (Char.ofNat b.toNat) rest
    | some size =>
      match rest with
      | [] => .fault .unexpectedEnd 1 b []
      | b2 :: rest2 =>
        if !secondFits b b2 then
          .fault .invalidContinuation 1 b rest
        else if size == 2 then
          .char
            (Char.ofNat
              ((b.toNat - 0xc0) * 0x40 + payload b2))
            rest2
        else
          match rest2 with
          | [] => .fault .unexpectedEnd 2 b []
          | b3 :: rest3 =>
            if !isContinuation b3 then
              .fault .invalidContinuation 2 b rest2
            else if size == 3 then
              .char
                (Char.ofNat
                  ((b.toNat - 0xe0) * 0x1000 +
                    payload b2 * 0x40 + payload b3))
                rest3
            else
              match rest3 with
              | [] => .fault .unexpectedEnd 3 b []
              | b4 :: rest4 =>
                if !isContinuation b4 then
                  .fault .invalidContinuation 3 b rest3
                else
                  .char
                    (Char.ofNat
                      ((b.toNat - 0xf0) * 0x40000 +
                        payload b2 * 0x1000 +
                        payload b3 * 0x40 + payload b4))
                    rest4

/- Decoding with at most `fuel` characters left to read. -/
def decodeFrom :
    (fuel : Nat) →
    (position : Nat) →
    List UInt8 →
    Except Fault Text
  | 0, _, _ => .ok []
  | fuel + 1, position, bytes =>
    match next bytes with
    | .done => .ok []
    | .fault kind length first _ =>
      .error { kind, position, length, first }
    | .char c rest =>
      match decodeFrom fuel
          (position + (bytes.length - rest.length))
          rest with
      | .ok text => .ok (c :: text)
      | .error fault => .error fault

/- The text that some bytes encode. -/
def decode (bytes : List UInt8) : Except Fault Text :=
  decodeFrom (bytes.length + 1) 0 bytes

------------------------------------------------------------
-- Encoding
------------------------------------------------------------

/- A byte that continues a character, with six bits. -/
def continuation (bits : Nat) : UInt8 :=
  UInt8.ofNat (0x80 + bits % 0x40)

/- The bytes of a character. -/
def encodeChar (c : Char) : List UInt8 :=
  let n := c.toNat
  if n < 0x80 then
    [UInt8.ofNat n]
  else if n < 0x800 then
    [UInt8.ofNat (0xc0 + n / 0x40), continuation n]
  else if n < 0x10000 then
    [UInt8.ofNat (0xe0 + n / 0x1000),
      continuation (n / 0x40), continuation n]
  else
    [UInt8.ofNat (0xf0 + n / 0x40000),
      continuation (n / 0x1000), continuation (n / 0x40),
      continuation n]

/- The bytes of a text. -/
def encode (text : Text) : List UInt8 :=
  text.flatMap encodeChar

/- The number of bytes of a character. -/
def width (c : Char) : Nat :=
  if c.toNat < 0x80 then 1
  else if c.toNat < 0x800 then 2
  else if c.toNat < 0x10000 then 3
  else 4

end Utf8

end ScriptWorkspace
