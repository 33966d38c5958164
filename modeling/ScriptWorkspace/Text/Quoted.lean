import ScriptWorkspace.Text.OsText
import ScriptWorkspace.Text.Printable

/-
  The quoted form of a name in a message.

  A name stands between single quotes, or between double
  quotes if it holds a single quote and no double one. The
  quote itself, the backslash and everything unprintable is
  escaped, so the quoted form is always printable.

  Key definitions include:
    * `OsText.quoted`
    * `Text.quoted`
-/

namespace ScriptWorkspace

------------------------------------------------------------
-- Escapes
------------------------------------------------------------

/- A character as it stands between a pair of quotes. -/
def Text.escapeChar (quote c : Char) : Text :=
  if c = quote ∨ c = '\\' then ['\\', c]
  else if c = '\t' then ['\\', 't']
  else if c = '\n' then ['\\', 'n']
  else if c = '\r' then ['\\', 'r']
  else if Text.isPrintable c then [c]
  else if c.toNat ≤ 0xff then
    '\\' :: 'x' :: Text.hex 2 c.toNat
  else if c.toNat ≤ 0xffff then
    '\\' :: 'u' :: Text.hex 4 c.toNat
  else
    '\\' :: 'U' :: Text.hex 8 c.toNat

/- A unit as it stands between a pair of quotes. -/
def OsText.escapeUnit (quote : Char) : OsChar → Text
  | .char c => Text.escapeChar quote c
  | .byte b =>
    '\\' :: 'u' :: Text.hex 4 (0xdc00 + b.toNat)

------------------------------------------------------------
-- Quoting
------------------------------------------------------------

/- The quotes that a name is put between. -/
def OsText.quoteOf (text : OsText) : Char :=
  if text.contains (.char '\'') &&
      !text.contains (.char '"') then
    '"'
  else
    '\''

/- A name in quotes. -/
def OsText.quoted (text : OsText) : Text :=
  let quote := quoteOf text
  quote :: text.flatMap (escapeUnit quote) ++ [quote]

/- A name in quotes. -/
def Text.quoted (text : Text) : Text :=
  OsText.quoted text

end ScriptWorkspace
