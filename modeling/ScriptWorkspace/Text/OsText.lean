import ScriptWorkspace.Text.Utf8

/-
  Texts of the operating system.

  The name of a file is a string of bytes that need not be
  UTF-8. A system text keeps the characters that can be
  decoded and each other byte as it is, so nothing of a name
  is lost when it is shown in a message.

  Key definitions include:
    * `OsChar`
    * `OsText`
    * `OsText.ofBytes`
    * `OsText.toText?`
    * `OsText.width`
-/

namespace ScriptWorkspace

/- A character, or a byte that belongs to none. -/
inductive OsChar
  | char (c : Char)
  | byte (b : UInt8)
deriving DecidableEq, Repr

/- A text of the operating system. -/
abbrev OsText := List OsChar

instance : Coe Text OsText := ⟨List.map OsChar.char⟩

instance : Coe String OsText :=
  ⟨fun s => s.toList.map OsChar.char⟩

namespace OsText

------------------------------------------------------------
-- Conversions
------------------------------------------------------------

/- Decoding with at most `fuel` steps left. -/
def ofBytesFrom :
    (fuel : Nat) →
    List UInt8 →
    OsText
  | 0, _ => []
  | fuel + 1, bytes =>
    match Utf8.next bytes with
    | .done => []
    | .char c rest => .char c :: ofBytesFrom fuel rest
    | .fault _ length _ _ =>
      (bytes.take length).map OsChar.byte ++
        ofBytesFrom fuel (bytes.drop length)

/- The system text of some bytes. -/
def ofBytes (bytes : List UInt8) : OsText :=
  ofBytesFrom (bytes.length + 1) bytes

/- The text, if every byte of it belongs to a character. -/
def toText? : OsText → Option Text
  | [] => some []
  | .char c :: rest => (toText? rest).map (c :: ·)
  | .byte _ :: _ => none

/- The number of bytes of a system text. -/
def width (text : OsText) : Nat :=
  text.foldl
    (fun total unit =>
      match unit with
      | .char c => total + Utf8.width c
      | .byte _ => total + 1)
    0

/- The order of system texts, unit by unit. -/
def compareKey : OsChar → Nat
  | .char c => c.toNat
  | .byte b => 0xdc00 + b.toNat

end OsText

end ScriptWorkspace
