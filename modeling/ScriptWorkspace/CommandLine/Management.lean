import ScriptWorkspace.CommandLine.Surroundings
import ScriptWorkspace.Gist.Sync
import ScriptWorkspace.Workspace.Creation

/-
  Carrying out the commands on a workspace.

  A command that fails says nothing: whoever asked for it
  reports the failure. One that succeeds says so at its end,
  if there is anything to say.

  Key definitions include:
    * `CommandLine.packageDirectory`
    * `CommandLine.changeMembership`
    * `CommandLine.Command.perform`
-/

namespace ScriptWorkspace

namespace CommandLine

variable {ω : Type}

------------------------------------------------------------
-- Packages
------------------------------------------------------------

/-
  The directory for a new package: a given one, or one of the
  name of the package at the root of the workspace.
-/
def packageDirectory
    (given : Option Path)
    (root : Path) : Action ω (Text → Path) := do
  match given with
  | some path =>
    let directory ← placed path
    return fun _ => directory
  | none => return fun name => root.join name

/- Make a workspace in a directory. -/
def initWorkspace
    (globals : Globals)
    (path : Path) : Action ω Unit := do
  let directory ← placed path
  let settings ← loadSettings globals.config globals.dryRun
  let template ←
    Workspace.initWorkspace directory globals.dryRun
  let (key, workspace, settings) ←
    workspaceEntry settings directory
  let templatePackage ←
    Action.ofExcept (compressed template (← homeDirectory))
  let workspace :=
    { workspace with templatePackage := some templatePackage }
  saveSettings globals (settings.put key workspace)
  succeed globals ["Initialized a workspace: ", directory.text]

/- The template package that is set for a workspace. -/
def templatePackage
    (settings : Settings)
    (root : Path) : Action ω (Option Path) := do
  let home ← homeDirectory
  let found := do
    (← settings.workspace? root home).templatePackage
  return found.map fun text =>
    root.append (Path.expand text home)

/- Make a package from a template. -/
def newPackage
    (globals : Globals)
    (path : Path)
    (name : Option OsText)
    (manifest : Option Path) : Action ω Unit := do
  let directory ← placed path
  let found ← metadata globals.color manifest
  let settings ← loadSettings globals.config globals.dryRun
  let template ← templatePackage settings found.root
  let name ←
    Workspace.newPackage found.root directory
      settings.template name template globals.dryRun
  succeed globals ["Created `", name, "`: ", directory.text]

/- Take a package out of its workspace and delete it. -/
def removePackage
    (globals : Globals)
    (package : Text)
    (manifest : Option Path) : Action ω Unit := do
  let found ← metadata globals.color manifest
  let target ← Action.ofExcept (found.findPackage package)
  let _ ←
    Membership.modify found.root
      (.removal target.directory) globals.dryRun
  Files.removeTree target.directory globals.dryRun

/- Change which paths belong to a workspace. -/
def changeMembership
    (globals : Globals)
    (change : Path → Membership.Change)
    (path : Path)
    (manifest : Option Path) : Action ω Unit := do
  let directory ← placed path
  let found ← metadata globals.color manifest
  let report ←
    Membership.modify found.root (change directory)
      globals.dryRun
  unless report.changed do
    sayNothingToDo

------------------------------------------------------------
-- Scripts
------------------------------------------------------------

/- Make a package of a script. -/
def importScript
    (globals : Globals)
    (file path manifest : Option Path) : Action ω Unit := do
  let found ← metadata globals.color manifest
  let script ← readScript file
  let name ←
    Workspace.importScript found.root script
      (← packageDirectory path found.root) globals.dryRun
  succeed globals ["Imported `", name, "`"]

/- Write a package to the output as a script. -/
def exportPackage
    (globals : Globals)
    (package : Text)
    (manifest : Option Path) : Action ω Unit := do
  let found ← metadata globals.color manifest
  let target ← Action.ofExcept (found.findPackage package)
  Action.write (← Workspace.exported target)

------------------------------------------------------------
-- Gists
------------------------------------------------------------

/- Make a package of a gist. -/
def cloneGist
    (globals : Globals)
    (gistId : Text)
    (path manifest : Option Path) : Action ω Unit := do
  let found ← metadata globals.color manifest
  let settings ← loadSettings globals.config globals.dryRun
  let (key, workspace, settings) ←
    workspaceEntry settings found.root
  let (name, gistIds) ←
    Sync.clone .anonymous gistId found.root workspace.gistIds
      (← packageDirectory path found.root) globals.dryRun
  saveSettings globals
    (settings.put key { workspace with gistIds })
  succeed globals ["Cloned `", gistId, "` as `", name, "`"]

/- The gist that is set for a package of a workspace. -/
def gistIdOf
    (settings : Settings)
    (root : Path)
    (package : Text) : Action ω Text := do
  let home ← homeDirectory
  let found := do
    (← settings.workspace? root home).gistIds.find? package
  match found with
  | some gistId => return gistId
  | none => throw (.settings (.gistIdMissing package))

/- Bring a package up to date with its gist. -/
def pullGist
    (globals : Globals)
    (package : Text)
    (manifest : Option Path) : Action ω Unit := do
  let found ← metadata globals.color manifest
  let target ← Action.ofExcept (found.findPackage package)
  let settings ← loadSettings globals.config globals.dryRun
  let gistId ← gistIdOf settings found.root target.name
  let written ←
    Sync.pull .anonymous gistId target globals.dryRun
  if written.isEmpty then
    succeed globals ["Already up to date"]

/- A client with the token that the settings name. -/
def authorizedClient
    (globals : Globals)
    (settings : Settings) : Action ω GistClient := do
  match settings.token with
  | none =>
    throw
      (.settings
        (.tokenMissing (← settingsPath globals.config)))
  | some token =>
    let found ←
      token.loadOrAsk ask (← homeDirectory) globals.dryRun
    Action.ofExcept (GistClient.withToken (some found))

/- What a push did, by how things were before it. -/
def pushMessage (package : Text) : RemoteState → List OsText
  | .upToDate => ["Up to date"]
  | .forward gistId _ => ["Updated `", gistId, "`"]
  | .absent => ["Created a gist for `", package, "`"]

/- Bring a gist up to date with its package. -/
def pushGist
    (globals : Globals)
    (package : Text)
    (options : Sync.PushOptions)
    (manifest : Option Path) : Action ω Unit := do
  let found ← metadata globals.color manifest
  let settings ← loadSettings globals.config globals.dryRun
  let target ← Action.ofExcept (found.findPackage package)
  let script ← Workspace.exported target
  let (key, workspace, settings) ←
    workspaceEntry settings found.root
  let client ← authorizedClient globals settings
  let (state, gistIds) ←
    Sync.push client workspace.gistIds package script options
      globals.dryRun
  saveSettings globals
    (settings.put key { workspace with gistIds })
  succeed globals (pushMessage package state)

------------------------------------------------------------
-- All Commands
------------------------------------------------------------

/- Carry out a command on a workspace. -/
def Command.perform (globals : Globals) :
    Command → Action ω Unit
  | .initWorkspace path =>
    CommandLine.initWorkspace globals path
  | .new path name manifest =>
    newPackage globals path name manifest
  | .remove package manifest =>
    removePackage globals package manifest
  | .include path manifest =>
    changeMembership globals .include path manifest
  | .exclude path manifest =>
    changeMembership globals .exclusion path manifest
  | .import file path manifest =>
    importScript globals file path manifest
  | .export package manifest =>
    exportPackage globals package manifest
  | .gistClone gistId path manifest =>
    cloneGist globals gistId path manifest
  | .gistPull package manifest =>
    pullGist globals package manifest
  | .gistPush package options manifest =>
    pushGist globals package options manifest

end CommandLine

end ScriptWorkspace
