import ScriptWorkspace.CommandLine.Management

/-
  Carrying out what a command line asks for.

  A program ends with a code: nought for success, one for a
  failure, which is reported, and two for a command line that
  makes no sense. Running a script ends with the code of the
  script.

  Key definitions include:
    * `CommandLine.ExitCode`
    * `CommandLine.RunRequest.perform`
    * `CommandLine.reported`
    * `CommandLine.Request.perform`
    * `CommandLine.lowestLevel`
    * `CommandLine.carryOut`
-/

namespace ScriptWorkspace

namespace CommandLine

variable {ω : Type}

------------------------------------------------------------
-- Exit Codes
------------------------------------------------------------

/- The code that a program ends with. -/
abbrev ExitCode := Int

/- All went well. -/
def ExitCode.success : ExitCode := 0

/- Something failed. -/
def ExitCode.failure : ExitCode := 1

/- The command line makes no sense. -/
def ExitCode.usage : ExitCode := 2

------------------------------------------------------------
-- Running Scripts
------------------------------------------------------------

/- The manifest of the workspace that scripts are kept in. -/
def scriptWorkspace
    (request : RunRequest)
    (settings : Settings) : Action ω Path := do
  match request.manifest, settings.default with
  | some given, _ =>
    let manifest ← placed given
    if manifest.name = (Manifest.fileName : OsText) then
      return manifest
    else
      throw (.workspace .notManifestPath)
  | none, some root =>
    return Workspace.manifestIn
      (Path.expand root (← homeDirectory))
  | none, none =>
    throw
      (.settings
        (.workspaceMissing (← settingsPath request.config)))

/- The manifest inside a script that is to be run. -/
def manifestInside (script : Text) : Except Failure Text :=
  match Script.extract script with
  | .ok manifest => .ok manifest
  | .error fault => .error (.ofScript manifestMissing fault)

/- Keep a script in a workspace and run it there. -/
def RunRequest.perform (request : RunRequest) :
    Action ω ExitCode := do
  let script ← readScript request.file
  let manifest ← Action.ofExcept (manifestInside script)
  let settings ← loadSettings request.config false
  let workspace ← scriptWorkspace request settings
  unless ← Files.pathExists workspace.parent do
    Workspace.create workspace.parent false
  let found ← metadata request.color (some workspace)
  Workspace.requireVirtual found.root
  let package ←
    Workspace.registerScript found manifest script
      request.options.binary false
  Cargo.run
    (Cargo.runArguments package workspace request.arguments
      request.options)
    none false false

------------------------------------------------------------
-- Reports
------------------------------------------------------------

/- What is said about a failure. -/
def failureText (failure : Failure) : Text :=
  match failure with
  | .unexpected .aborted => "Aborted.\n"
  | _ => (Console.failureReport none failure).getD []

/- An operation where a failure is reported. -/
def reported (action : Action ω ExitCode) :
    Action ω ExitCode :=
  tryCatch action fun failure => do
    Action.writeError (failureText failure)
    return ExitCode.failure

------------------------------------------------------------
-- Requests
------------------------------------------------------------

/- Carry out a request. -/
def Request.perform : Request → Action ω ExitCode
  | .showVersion runner => do
    Action.write (versionLine runner)
    return .success
  | .manage globals command =>
    reported do
      command.perform globals
      return .success
  | .runScript request => reported request.perform

/- Carry out a request, if there is one. -/
def carryOut : Option Request → Action ω ExitCode
  | none => return .usage
  | some request => request.perform

/- The lowest level of the records that are shown. -/
def lowestLevel : Option Request → Level
  | some (.manage globals _) =>
    .lowest globals.quiet globals.verbosity
  | _ => .info

/- What the words for a program ask for. -/
def request?
    (program : Program)
    (words : List OsText) : Action ω (Option Request) := do
  let config ← Action.environment "BIKECASE_CONFIG"
  let given := config.filter fun text => !text.isEmpty
  return read? program (given.map Path.ofText) words

end CommandLine

end ScriptWorkspace
