import ScriptWorkspace.Text.OsText

/-
  Log records.

  A record has a level and a message. A log shows the records
  from its lowest level on.

  Key definitions include:
    * `Level`
    * `Level.lowest`
    * `LogRecord`
    * `LogRecord.isShown`
-/

namespace ScriptWorkspace

------------------------------------------------------------
-- Levels
------------------------------------------------------------

/- How serious a record is. -/
inductive Level
  | debug
  | info
  | warning
  | error
  | critical
deriving DecidableEq, Repr

/- The number that orders the levels. -/
def Level.number : Level → Nat
  | .debug => 10
  | .info => 20
  | .warning => 30
  | .error => 40
  | .critical => 50

/- The name of a level. -/
def Level.name : Level → Text
  | .debug => "DEBUG"
  | .info => "INFO"
  | .warning => "WARNING"
  | .error => "ERROR"
  | .critical => "CRITICAL"

/-
  The lowest level that a log shows: quiet counts for more
  than any verbosity.
-/
def Level.lowest (quiet : Bool) (verbosity : Int) : Level :=
  if quiet then .warning
  else if verbosity ≥ 1 then .debug
  else .info

------------------------------------------------------------
-- Records
------------------------------------------------------------

/- A message with its level. -/
structure LogRecord where
  level : Level
  message : OsText
deriving DecidableEq, Repr

/- The record is shown from a lowest level on. -/
def LogRecord.isShown
    (lowest : Level)
    (record : LogRecord) : Bool :=
  decide (lowest.number ≤ record.level.number)

end ScriptWorkspace
