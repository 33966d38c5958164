import ScriptWorkspace.Cargo.Command
import ScriptWorkspace.Cargo.Metadata
import ScriptWorkspace.Json.Parser
import ScriptWorkspace.Session.Basic
import ScriptWorkspace.Text.Blank

/-
  Calling the build tool.

  Every call is logged. Asking for metadata changes nothing,
  so it is done in a dry run as well; any other call is only
  logged then.

  Key definitions include:
    * `Cargo.usualTimeout`
    * `Cargo.program`
    * `Cargo.metadata`
    * `Cargo.run`
-/

namespace ScriptWorkspace

namespace Cargo

variable {ω : Type}

/- How many seconds asking for metadata may usually take. -/
def usualTimeout : Int := 120

/- The program that is the build tool. -/
def program : Action ω OsText := do
  return (← Action.environment "CARGO").getD "cargo"

/- The words of a command, with the program in front. -/
def command
    (arguments : List OsText) : Action ω (List OsText) := do
  return (← program) :: arguments

/- Log a command that is about to be called. -/
def logCommand
    (dryRun : Bool)
    (words : List OsText) : Action ω Unit :=
  Action.logInfo
    [Action.dryMark dryRun, "Running `", commandLine words,
      "`"]

/- The name of the program of a command. -/
def programOf (words : List OsText) : OsText :=
  words.headD []

/- The metadata that an output of the build tool describes. -/
def readMetadata (output : Text) : Except Failure Metadata :=
  match (Json.parse? output).filter (!·.hasBrokenString) with
  | none => .error (.cargo .metadataShape)
  | some value =>
    match Metadata.ofJson? value with
    | none => .error (.cargo .metadataShape)
    | some metadata =>
      if (metadata.resolve.bind Resolve.root).isSome then
        .error (.workspace .packageAtRoot)
      else
        .ok metadata

/-
  The metadata of the workspace of a manifest, or of the one
  that a directory belongs to.
-/
def metadata
    (manifest : Option Path)
    (color : Text)
    (directory : Path)
    (timeout : Option Int) : Action ω Metadata := do
  let words ←
    command
      (metadataArguments color
        (manifest.map directory.append))
  logCommand false words
  let seconds :=
    match timeout with
    | none => usualTimeout
    | some n => if n = 0 then usualTimeout else n
  let outcome ←
    Action.call
      { command := words, directory := some directory
        timeout := some seconds }
  match outcome with
  | .notFound =>
    throw (.cargo (.commandNotFound (programOf words)))
  | .timedOut => throw (.cargo (.timeout words seconds))
  | .finished code output errorOutput =>
    if code ≠ 0 then
      throw
        (.cargo (.metadataExit code (Text.strip errorOutput)))
    Action.ofExcept (readMetadata output)

/- Call the build tool, which may have to succeed. -/
def run
    (arguments : List OsText)
    (directory : Option Path)
    (mustSucceed dryRun : Bool) : Action ω Int := do
  let words ← command arguments
  logCommand dryRun words
  if dryRun then
    return 0
  let outcome ←
    Action.call
      { command := words, directory, timeout := none }
  match outcome with
  | .notFound =>
    throw (.cargo (.commandNotFound (programOf words)))
  | .timedOut => throw (.unexpected .timedOut)
  | .finished code _ _ =>
    if mustSucceed && code ≠ 0 then
      throw (.cargo (.exit (commandLine words) code))
    return code

end Cargo

end ScriptWorkspace
