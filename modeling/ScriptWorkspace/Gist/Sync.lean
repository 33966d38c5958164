import ScriptWorkspace.Diff
import ScriptWorkspace.Gist.Client
import ScriptWorkspace.Workspace.Scripts

/-
  Keeping packages and gists the same.

  The gist of a package holds what the package would be as a
  script, or something else, or there is no gist. Pushing and
  pulling act on which of these it is.

  Key definitions include:
    * `RemoteState`
    * `Sync.determineState`
    * `Sync.logDiff`
    * `Sync.push`
    * `Sync.pull`
    * `Sync.clone`
-/

namespace ScriptWorkspace

/- How a gist compares to a local script. -/
inductive RemoteState
  | upToDate
  | forward (gistId : Text) (remote : RemoteScript)
  | absent
deriving DecidableEq, Repr

namespace Sync

variable {ω : Type}

------------------------------------------------------------
-- States
------------------------------------------------------------

/- How a script that was retrieved compares to a local one. -/
def compare
    (remote : RemoteScript)
    (script : Text)
    (description : Option Text) : RemoteState :=
  let sameDescription :=
    description.isNone || description == some remote.description
  if remote.content = script ∧ sameDescription then
    .upToDate
  else
    .forward remote.gistId remote

/- How the gist of a package compares to a local script. -/
def determineState
    (client : GistClient)
    (gistId : Option Text)
    (script : Text)
    (description : Option Text) : Action ω RemoteState := do
  match gistId with
  | none => return .absent
  | some gistId =>
    let remote ← client.retrieve gistId
    return compare remote script description

------------------------------------------------------------
-- Differences
------------------------------------------------------------

/- Log how two versions of a file differ, if they do. -/
def logDiff
    (label : OsText)
    (old new : Text) : Action ω Bool := do
  if old = new then
    Action.logInfo ["No changes: ", label]
    return false
  else
    Action.logInfo ["`", label, "`:"]
    for line in Diff.lines old new do
      Action.logInfo ["│", line]
    return true

/-
  The files of the package that a script makes. A script that
  makes none counts as a source without a manifest.
-/
def packageForm
    (script : Text) : Except Failure Script.PackageFiles :=
  match Script.split script with
  | .ok files => .ok files
  | .error (.header _) =>
    .ok { manifest := [], source := script }
  | .error .noManifest =>
    .ok { manifest := [], source := script }
  | .error fault => .error (.ofScript manifestMissing fault)

/- Log how the files of two scripts differ. -/
def logChanges
    (remote : RemoteScript)
    (script : Text) : Action ω Unit := do
  let old ← Action.ofExcept (packageForm remote.content)
  let new ← Action.ofExcept (packageForm script)
  let _ ←
    logDiff Manifest.fileName old.manifest new.manifest
  let _ ← logDiff remote.filename old.source new.source

------------------------------------------------------------
-- Pushing
------------------------------------------------------------

/- What is asked for when a script is pushed. -/
structure PushOptions where
  setUpstream : Bool
  isPrivate : Bool
  description : Option Text
deriving DecidableEq, Repr

/- Make a gist for a package that has none. -/
def createGist
    (client : GistClient)
    (gistIds : GistIds)
    (package script : Text)
    (options : PushOptions)
    (dryRun : Bool) : Action ω GistIds := do
  if !options.setUpstream then
    throw (.gist .noUpstream)
  if dryRun then
    Action.logInfo [Action.dryMark dryRun, "POST gists"]
    return gistIds
  else
    let gistId ←
      client.create (package ++ (".rs" : Text)) script
        (options.description.getD []) (!options.isPrivate)
    Action.logInfo
      ["`gist_ids.", package, "`: None → Some(",
        gistId.quoted, ")"]
    return GistIds.put package gistId gistIds

/- Put a local script into the gist of its package. -/
def push
    (client : GistClient)
    (gistIds : GistIds)
    (package script : Text)
    (options : PushOptions)
    (dryRun : Bool) : Action ω (RemoteState × GistIds) := do
  let state ←
    determineState client (GistIds.find? package gistIds)
      script options.description
  match state with
  | .upToDate =>
    Action.logInfo ["Up to date"]
    return (state, gistIds)
  | .forward gistId remote =>
    if dryRun then
      Action.logInfo
        [Action.dryMark dryRun, "PATCH gists/", gistId]
    else
      client.update gistId remote.filename script
        (options.description.getD remote.description)
    logChanges remote script
    return (state, gistIds)
  | .absent =>
    let gistIds ←
      createGist client gistIds package script options dryRun
    return (state, gistIds)

------------------------------------------------------------
-- Pulling
------------------------------------------------------------

/- The files whose content is another one now. -/
def changedFiles :
    List (Path × Text × Text) →
    Action ω (List (Path × Text))
  | [] => return []
  | (path, old, new) :: files => do
    let changed ← logDiff path.text old new
    let others ← changedFiles files
    if changed then
      return (path, new) :: others
    else
      return others

/- Put the script of a gist into a local package. -/
def pull
    (client : GistClient)
    (gistId : Text)
    (package : Cargo.Package)
    (dryRun : Bool) : Action ω (List Path) := do
  let remote ← client.retrieve gistId
  let files ←
    match Script.split remote.content with
    | .ok files => pure files
    | .error fault =>
      throw (.ofScript manifestMissing fault)
  let (source, manifest) ← Workspace.defaultBinary package
  let changed ←
    changedFiles
      [(source, ← Files.read source, files.source),
        (package.manifest, manifest, files.manifest)]
  let changed := Workspace.distinctFiles changed
  unless changed.isEmpty do
    Files.writeAll changed dryRun
  return changed.map Prod.fst

------------------------------------------------------------
-- Cloning
------------------------------------------------------------

/- Make a package of a gist, and keep which gist it is. -/
def clone
    (client : GistClient)
    (gistId : Text)
    (root : Path)
    (gistIds : GistIds)
    (directoryFor : Text → Path)
    (dryRun : Bool) : Action ω (Text × GistIds) := do
  let remote ← client.retrieve gistId
  let name ←
    Workspace.importScript root remote.content directoryFor
      dryRun
  let old : Text :=
    match GistIds.find? name gistIds with
    | some old => old.quoted
    | none => "None"
  Action.logInfo
    ["`gist_ids.", name, "`: ", old, " → ", gistId.quoted]
  return (name, GistIds.put name gistId gistIds)

end Sync

end ScriptWorkspace
