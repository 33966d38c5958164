import ScriptWorkspace.Session.Basic
import ScriptWorkspace.Toml.Parser

/-
  Reading and writing files.

  Every operation that changes files can be run dry: then it
  logs what it would have done and changes nothing. A failed
  operation names itself and its path.

  Several files are replaced together: each is written to a
  temporary file beside it first, and only when all of them
  are written are they moved into place.

  Key definitions include:
    * `Files.read`
    * `Files.readToml`
    * `Files.write`
    * `Files.writeAll`
    * `Files.copy`
    * `Files.makeDirectories`
    * `Files.removeTree`
-/

namespace ScriptWorkspace

namespace Files

open ScriptWorkspace.Action

variable {ω : Type}

------------------------------------------------------------
-- Reading
------------------------------------------------------------

/- There is something at a path. -/
def pathExists (path : Path) : Action ω Bool := do
  if path.names.any (·.any (· == .char '\x00')) then
    return false
  match Storage.Calls.pathExists (← tree) (← directory) path
    with
  | .ok found => return found
  | .error fault => throw (.unexpected (.system fault))

/- The text of a file. -/
def read (path : Path) : Action ω Text := do
  requireUsable path
  match Storage.Calls.readFile (← tree) (← directory) path
    with
  | .error fault => throw (.file (.read path fault))
  | .ok content =>
    match content.toText with
    | .ok text => return text
    | .error fault => throw (.file (.encoding path fault))

/- The table of a TOML file. -/
def readToml (path : Path) : Action ω Toml.Table := do
  match Toml.parse (← read path) with
  | .ok members => return members
  | .error .longNumeral => throw (.unexpected .longNumeral)
  | .error fault =>
    throw (.file (.notToml path (tomlReasons fault)))

------------------------------------------------------------
-- Writing
------------------------------------------------------------

/- Write a text to a file. -/
def write
    (path : Path)
    (content : Text)
    (dryRun : Bool) : Action ω Unit := do
  unless dryRun do
    requireUsable path
    match
      Storage.Calls.writeFile (← tree) (← directory) path
        (.text content) with
    | .ok written => setTree written
    | .error fault => throw (.file (.write path fault))
  logInfo [dryMark dryRun, "Wrote ", path.text]

/-
  Write a content that may not be a text. Only a dry run can
  do without one: otherwise the file is left empty.
-/
def writeIfText
    (path : Path)
    (content : Option Text)
    (dryRun : Bool) : Action ω Unit := do
  match content with
  | some text => write path text dryRun
  | none =>
    if dryRun then
      write path [] dryRun
    else
      requireUsable path
      match
        Storage.Calls.writeFile (← tree) (← directory) path
          (.text []) with
      | .ok written =>
        setTree written
        throw (.unexpected .notText)
      | .error fault => throw (.file (.write path fault))

/- A file that was written beside its place. -/
structure Staged where
  temporary : Path
  path : Path
deriving DecidableEq, Repr

/- Remove temporary files. -/
def unstage (staged : List Staged) : Action ω Unit := do
  let place ← directory
  setTree
    (staged.foldl
      (fun tree file =>
        Storage.Calls.removeFile tree place file.temporary)
      (← tree))

/-
  Write files beside their places. A path that cannot be used
  at all ends this without removing what was written.
-/
def stageAll
    (count : Nat) :
    List Staged →
    List (Path × Text) →
    Action ω (List Staged)
  | staged, [] => return staged.reverse
  | staged, (path, content) :: files => do
    requireUsable path
    match
      Storage.Calls.stage (← tree) (← directory) path
        (.text content) with
    | .ok (written, temporary) =>
      setTree written
      stageAll count ({ temporary, path } :: staged) files
    | .error fault =>
      unstage staged
      throw (.file (.stage count fault))

/- Move files to their places. -/
def moveAll : List Staged → Action ω Unit
  | [] => return
  | file :: files => do
    match
      Storage.Calls.moveFile (← tree) (← directory)
        file.temporary file.path with
    | .ok moved =>
      setTree moved
      logInfo ["Wrote ", file.path.text]
      moveAll files
    | .error fault =>
      unstage (file :: files)
      throw (.file (.write file.path fault))

/- Replace several files together. -/
def writeAll
    (files : List (Path × Text))
    (dryRun : Bool) : Action ω Unit := do
  if dryRun then
    for (path, _) in files do
      logInfo [dryMark dryRun, "Wrote ", path.text]
  else
    moveAll (← stageAll files.length [] files)

/- Copy a file. -/
def copy
    (source target : Path)
    (dryRun : Bool) : Action ω Unit := do
  unless dryRun do
    requireUsable source
    requireUsable target
    match
      Storage.Calls.copyFile (← tree) (← directory) source
        target with
    | .ok copied => setTree copied
    | .error fault =>
      throw (.file (.copy source target fault))
  logInfo
    [dryMark dryRun, "Copied ", source.text, " to ",
      target.text]

------------------------------------------------------------
-- Directories
------------------------------------------------------------

/- Make a directory and those above it. -/
def makeDirectories
    (path : Path)
    (dryRun : Bool) : Action ω Unit := do
  unless dryRun do
    requireUsable path
    let (made, faults) :=
      Storage.Calls.makeDirectories (← tree) (← directory)
        path
    setTree made
    unless faults.isEmpty do
      throw (.file (.makeDirectory path faults))

/- Remove a directory with everything inside it. -/
def removeTree
    (path : Path)
    (dryRun : Bool) : Action ω Unit := do
  unless dryRun do
    requireUsable path
    let (removed, fault) :=
      Storage.Calls.removeTree (← tree) (← directory) path
    setTree removed
    if let some fault := fault then
      throw (.file (.remove path fault))
  logInfo [dryMark dryRun, "Removed ", path.text]

end Files

end ScriptWorkspace
