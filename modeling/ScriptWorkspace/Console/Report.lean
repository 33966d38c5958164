import ScriptWorkspace.Console.Markup
import ScriptWorkspace.Console.Wrap
import ScriptWorkspace.Failure.Basic
import ScriptWorkspace.Session.Log

/-
  What commands print.

  A failure is printed on a line of its own, and each of its
  reasons on one more. What succeeded in a dry run is marked.

  Key definitions include:
    * `Console.printed?`
    * `Console.errorLine`
    * `Console.successLine`
    * `Console.report`
    * `Console.failureReport`
    * `Console.logLines`
-/

namespace ScriptWorkspace

namespace Console

------------------------------------------------------------
-- Printing
------------------------------------------------------------

/- A unit of a system text as a console shows it. -/
def shownUnit : OsChar → Text
  | .char c => [c]
  | .byte b => '\\' :: 'u' :: Text.hex 4 (0xdc00 + b.toNat)

/- A system text as a console shows it. -/
def shownText (text : OsText) : Text :=
  text.flatMap shownUnit

/- Lines, each one ended. -/
def ended (lines : List Text) : Text :=
  lines.flatMap fun line => line ++ ['\n']

/- What is printed for a marked-up message. -/
def printed?
    (width : Option Nat)
    (markup : Text) : Option Text :=
  (Markup.shown? markup).map fun text =>
    ended (layOut width text)

/- What is printed for a message that is known to be sound. -/
def printed
    (width : Option Nat)
    (markup : Text) : Text :=
  (printed? width markup).getD []

------------------------------------------------------------
-- Messages
------------------------------------------------------------

/- The line for a failure. -/
def errorLine (width : Option Nat) (message : Text) : Text :=
  printed width
    (("[red]Error:[/red] " : Text) ++ Markup.escape message)

/- The line for a reason. -/
def causeLine (width : Option Nat) (message : Text) : Text :=
  printed width
    (("[red]Caused by:[/red] " : Text) ++
      Markup.escape message)

/- The line for what succeeded. -/
def successLine
    (width : Option Nat)
    (dryRun : Bool)
    (message : Text) : Text :=
  let mark : Text :=
    if dryRun then "[cyan][DRY RUN][/cyan] " else ""
  printed width
    (mark ++ "[green]" ++ Markup.escape message ++ "[/green]")

/- The lines for a failure with its reasons. -/
def report
    (width : Option Nat)
    (message : Text)
    (causes : List Text) : Text :=
  errorLine width message ++
    causes.flatMap (causeLine width)

/- The lines for a failure, if it has a wording. -/
def failureReport
    (width : Option Nat)
    (failure : Failure) : Option Text :=
  failure.message?.map fun message =>
    report width (shownText message)
      (failure.reasons.map Reason.message)

------------------------------------------------------------
-- Logs
------------------------------------------------------------

/- How many cells the name of a level is given. -/
def levelWidth : Nat := 8

/- The name of a level, filled to its width. -/
def levelColumn (level : Level) : Text :=
  level.name ++
    List.replicate (levelWidth - level.name.length) ' '

/- Lines with something else before the first one. -/
def prefixed (first other : Text) : List Text → List Text
  | [] => []
  | line :: lines =>
    (first ++ line) :: lines.map fun line => other ++ line

/- The lines for a record, with no blanks at their ends. -/
def logLines (record : LogRecord) : List Text :=
  let other := List.replicate (levelWidth + 1) ' '
  (prefixed (levelColumn record.level ++ [' ']) other
    (layOut none (shownText record.message))).map
      Text.stripRight

/- The lines for the records from a lowest level on. -/
def shownLog
    (lowest : Level)
    (records : List LogRecord) : List Text :=
  (records.filter (LogRecord.isShown lowest)).flatMap logLines

end Console

end ScriptWorkspace
