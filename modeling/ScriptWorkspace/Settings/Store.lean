import ScriptWorkspace.Session.Files
import ScriptWorkspace.Settings.Template
import ScriptWorkspace.Text.Blank
import ScriptWorkspace.Toml.Printer

/-
  Keeping settings in a file.

  The file is made with the usual settings when they are
  needed for the first time. The token for the store of gists
  is in a file of its own; it is asked for when that file is
  missing.

  Key definitions include:
    * `Settings.usualPath`
    * `Settings.usual`
    * `Settings.load`
    * `Settings.save`
    * `Settings.loadOrCreate`
    * `TokenFile.loadOrAsk`
-/

namespace ScriptWorkspace

variable {ω : Type}

/- The form of a path in settings. -/
def compressed (path home : Path) : Except Failure Text :=
  match path.compress? home with
  | some text => .ok text
  | none => .error (.pathNotText path.text)

namespace Settings

------------------------------------------------------------
-- Places
------------------------------------------------------------

/- The path of the settings of a user. -/
def usualPath : Action ω Path := do
  let base ←
    match ← Action.environment "XDG_CONFIG_HOME" with
    | some text => pure (Path.ofText text)
    | none => do
      let home := (← read).home
      pure (home.join ".config")
  return (base.join "bikecase").join "config.toml"

/-
  The usual settings: the files are in the directory of the
  settings themselves.
-/
def usual
    (directory home : Path) : Except Failure Settings := do
  let workspace ←
    compressed (directory.join "default-workspace") home
  let token ←
    compressed (directory.join "github-token") home
  return { default := some workspace
           token := some { path := token }
           workspaces := [(workspace, .empty)]
           template := Template.usual }

------------------------------------------------------------
-- Loading And Saving
------------------------------------------------------------

/- The settings in a text. -/
def parse (path : Path) (text : Text) :
    Except Failure Settings :=
  let malformed (reasons : List Reason) : Failure :=
    .settings (.malformed path reasons)
  match Toml.parse text with
  | .error .longNumeral => .error (.unexpected .longNumeral)
  | .error fault => .error (malformed (tomlReasons fault))
  | .ok members =>
    match ofToml? members with
    | some settings => .ok settings
    | none => .error (malformed [.wrongShape])

/- The settings in a file. -/
def load (path : Path) : Action ω Settings := do
  Action.requireUsable path
  let found :=
    Storage.Calls.readFile (← Action.tree)
      (← Action.directory) path
  match found with
  | .error fault =>
    throw (.settings (.unreadable path fault))
  | .ok content =>
    match content.toText with
    | .error fault => throw (.unexpected (.encoding fault))
    | .ok text => Action.ofExcept (parse path text)

/- Write settings to a file. -/
def save
    (settings : Settings)
    (path : Path)
    (dryRun : Bool) : Action ω Unit := do
  Files.makeDirectories path.parent dryRun
  Files.write path (Toml.render settings.toToml) dryRun

/- The settings in a file, which is made if there is none. -/
def loadOrCreate
    (path home : Path)
    (dryRun : Bool) : Action ω Settings := do
  if ← Files.pathExists path then
    load path
  else
    let settings ← Action.ofExcept (usual path.parent home)
    Action.logInfo
      ["Creating a new config file: ", path.text]
    save settings path dryRun
    return settings

end Settings

------------------------------------------------------------
-- Tokens
------------------------------------------------------------

/-
  The token in a file. If there is no file the token is asked
  for, and kept for the next time.
-/
def TokenFile.loadOrAsk
    (token : TokenFile)
    (ask : Text → Action ω Text)
    (home : Path)
    (dryRun : Bool) : Action ω Text := do
  let path := Path.expand token.path home
  if ← Files.pathExists path then
    return Text.strip (← Files.read path)
  else
    let answer := Text.strip (← ask "GitHub token")
    Files.makeDirectories path.parent dryRun
    Files.write path answer dryRun
    return answer

end ScriptWorkspace
