import ScriptWorkspace.Cargo.Call
import ScriptWorkspace.CommandLine.Request
import ScriptWorkspace.Console.Report
import ScriptWorkspace.Session.Files
import ScriptWorkspace.Settings.Store

/-
  What every command needs to know and to say.

  A path on a command line leads on from the working
  directory. Messages are for the second output, so that the
  first one can hold a script.

  Key definitions include:
    * `CommandLine.placed`
    * `CommandLine.settingsPath`
    * `CommandLine.loadSettings`
    * `CommandLine.metadata`
    * `CommandLine.readScript`
    * `CommandLine.ask`
    * `CommandLine.succeed`
-/

namespace ScriptWorkspace

namespace CommandLine

variable {ω : Type}

------------------------------------------------------------
-- Paths
------------------------------------------------------------

/- Where a path on a command line leads to. -/
def placed (path : Path) : Action ω Path := do
  return (← read).directory.append path

/- The home directory. -/
def homeDirectory : Action ω Path := do
  return (← read).home

------------------------------------------------------------
-- Settings
------------------------------------------------------------

/- The path of the settings: a given one, or the usual one. -/
def settingsPath (given : Option Path) : Action ω Path :=
  match given with
  | some path => return path
  | none => Settings.usualPath

/- The settings, which are made if there are none. -/
def loadSettings
    (given : Option Path)
    (dryRun : Bool) : Action ω Settings := do
  Settings.loadOrCreate (← settingsPath given)
    (← homeDirectory) dryRun

/- Keep settings for the next time. -/
def saveSettings
    (globals : Globals)
    (settings : Settings) : Action ω Unit := do
  Settings.save settings (← settingsPath globals.config)
    globals.dryRun

/-
  The key of the workspace at a root, what is set for it, and
  the settings with it.
-/
def workspaceEntry
    (settings : Settings)
    (root : Path) :
    Action ω (Text × WorkspaceSettings × Settings) := do
  match settings.withWorkspace? root (← homeDirectory) with
  | some entry => return entry
  | none => throw (.pathNotText root.text)

------------------------------------------------------------
-- Workspaces And Scripts
------------------------------------------------------------

/- The workspace that a command is about. -/
def metadata
    (color : ColorChoice)
    (manifest : Option Path) : Action ω Cargo.Metadata := do
  Cargo.metadata manifest color.word (← read).directory none

/- The script in a file, or else the one in the input. -/
def readScript (file : Option Path) : Action ω Text := do
  match file with
  | none => Action.readInput
  | some path => Files.read (← placed path)

------------------------------------------------------------
-- Questions
------------------------------------------------------------

/- Show what is asked for. -/
def showQuestion (label : Text) : Action ω Unit :=
  Action.write (label ++ (": \n" : Text))

/-
  The first line that is not blank, where the question is
  shown again after a blank one.
-/
def awaitAnswer (label : Text) : List Text → Action ω Text
  | [] => do
    Action.write ['\n']
    throw (.unexpected .aborted)
  | line :: lines => do
    Action.setInput lines.flatten
    let answer := line.filter (· != '\n')
    if answer.isEmpty then
      showQuestion label
      awaitAnswer label lines
    else
      return answer

/- Ask for a text that is not shown while it is typed. -/
def ask (label : Text) : Action ω Text := do
  showQuestion label
  awaitAnswer label (Text.rawLines (← Action.remainingInput))

------------------------------------------------------------
-- Messages
------------------------------------------------------------

/- Say what succeeded. -/
def succeed
    (globals : Globals)
    (parts : List OsText) : Action ω Unit :=
  Action.writeError
    (Console.successLine none globals.dryRun
      (Console.shownText parts.flatten))

/- Say that there was nothing to do. -/
def sayNothingToDo : Action ω Unit :=
  Action.writeError (Console.printed none "Nothing to do")

end CommandLine

end ScriptWorkspace
