import ScriptWorkspace.Text.Quoted
import ScriptWorkspace.Toml.Value

/-
  TOML values in messages.

  A message shows a value in the manner of a program text:
  strings in quotes, arrays in brackets and tables in braces.

  Key definitions include:
    * `Toml.described`
    * `Toml.describedOr`
-/

namespace ScriptWorkspace

namespace Toml

------------------------------------------------------------
-- Dates And Times
------------------------------------------------------------

/- A name with arguments in parentheses. -/
def call (name : Text) (arguments : List Text) : Text :=
  name ++ '(' :: Text.joinWith [',', ' '] arguments ++ [')']

/- The numbers of a date. -/
def dateNumbers (day : Date) : List Text :=
  [day.year, day.month, day.day].map Text.ofNat

/- The numbers of a time; zeros at its end are left out. -/
def timeNumbers (clock : TimeOfDay) : List Text :=
  let shown :=
    if clock.microsecond ≠ 0 then
      [clock.second, clock.microsecond]
    else if clock.second ≠ 0 then
      [clock.second]
    else
      []
  ([clock.hour, clock.minute] ++ shown).map Text.ofNat

/- A span of time; one before zero counts from a day less. -/
def describedSpan (seconds : Int) : Text :=
  if seconds < 0 then
    call "datetime.timedelta"
      ["days=-1", "seconds=" ++ Text.ofInt (seconds + 86400)]
  else
    call "datetime.timedelta"
      ["seconds=" ++ Text.ofInt seconds]

/- The offset of a time, as an argument. -/
def offsetArguments : Option Int → List Text
  | none => []
  | some 0 => ["tzinfo=datetime.timezone.utc"]
  | some minutes =>
    ["tzinfo=" ++
      call "datetime.timezone" [describedSpan (minutes * 60)]]

------------------------------------------------------------
-- Values
------------------------------------------------------------

mutual

/- A value as a message shows it. -/
def described : Toml → Text
  | .string content => content.quoted
  | .int n => Text.ofInt n
  | .float x => x.render
  | .bool true => "True"
  | .bool false => "False"
  | .date day => call "Date" (dateNumbers day)
  | .time clock => call "Time" (timeNumbers clock)
  | .dateTime day clock offset =>
    call "DateTime"
      (dateNumbers day ++ timeNumbers clock ++
        offsetArguments offset)
  | .array items =>
    '[' :: Text.joinWith [',', ' '] (describedItems items) ++
      [']']
  | .table members =>
    '\x7b' ::
      Text.joinWith [',', ' '] (describedMembers members) ++
        ['\x7d']

/- Items as a message shows them. -/
def describedItems : List Toml → List Text
  | [] => []
  | item :: items => described item :: describedItems items

/- Members as a message shows them. -/
def describedMembers : List (Text × Toml) → List Text
  | [] => []
  | (key, value) :: members =>
    (Text.quoted key ++ [':', ' '] ++ described value) ::
      describedMembers members

end

/- A value that may be missing, as a message shows it. -/
def describedOr
    (missing : Text)
    (value : Option Toml) : Text :=
  (value.map described).getD missing

end Toml

end ScriptWorkspace
