import ScriptWorkspace.Toml.Layout.Printer
import ScriptWorkspace.Workspace.Manifest

/-
  The members of a workspace.

  The manifest of a workspace lists the paths that belong to
  it and the paths that are excluded. Two paths are the same
  entry if they lead to the same place from the root of the
  workspace, however they are spelled.

  Adding a path that is listed and removing one that is not
  change nothing.

  Key definitions include:
    * `Membership.relativeToRoot`
    * `Membership.isSamePath`
    * `Membership.Listing`
    * `Membership.Change`
    * `Membership.Report`
    * `Membership.modify`
-/

namespace ScriptWorkspace

namespace Membership

open Toml.Layout (Document Group)

variable {ω : Type}

------------------------------------------------------------
-- Paths
------------------------------------------------------------

/-
  A path as an entry of a workspace: what leads to it from
  the root, or all of it if it is not below the root.
-/
def relativeToRoot
    (root path : Path) : Except Failure Text :=
  let entry := ((path.relativeTo? root).getD path).text
  match entry.toText? with
  | some text => .ok text
  | none => .error (.pathNotText entry)

/- Two entries lead to the same path from the root. -/
def isSamePath
    (root : Path)
    (entry target : Text) : Bool :=
  root.join entry == root.join target

/- The value is an entry that leads to the target. -/
def isEntryFor
    (root : Path)
    (target : Text)
    (value : Toml) : Bool :=
  match value.text? with
  | some entry => isSamePath root entry target
  | none => false

------------------------------------------------------------
-- Changes And Reports
------------------------------------------------------------

/- The two lists of a workspace. -/
inductive Listing
  | members
  | exclude
deriving DecidableEq, Repr

/- The key of a list. -/
def Listing.key : Listing → Text
  | .members => "members"
  | .exclude => "exclude"

/- The paths to be added to a list and removed from it. -/
structure ListChange where
  add : Option Path
  remove : Option Path
deriving DecidableEq, Repr

/- No change of a list. -/
def ListChange.none : ListChange :=
  { add := Option.none, remove := Option.none }

/- The changes of both lists. -/
structure Change where
  members : ListChange
  exclude : ListChange
deriving DecidableEq, Repr

/- The change that adds a member. -/
def Change.addMember (path : Path) : Change :=
  { members := { ListChange.none with add := some path }
    exclude := .none }

/- The change that makes a path a member. -/
def Change.include (path : Path) : Change :=
  { members := { ListChange.none with add := some path }
    exclude := { ListChange.none with remove := some path } }

/- The change that excludes a path. -/
def Change.exclusion (path : Path) : Change :=
  { members := { ListChange.none with remove := some path }
    exclude := { ListChange.none with add := some path } }

/- The change that removes a path from both lists. -/
def Change.removal (path : Path) : Change :=
  { members := { ListChange.none with remove := some path }
    exclude := { ListChange.none with remove := some path } }

/- Entries of the two lists. -/
structure Entries where
  members : List Text
  exclude : List Text
deriving DecidableEq, Repr

namespace Entries

/- No entries. -/
def none : Entries := { members := [], exclude := [] }

/- The entries with one more of a list. -/
def add
    (listing : Listing)
    (entry : Text)
    (entries : Entries) : Entries :=
  match listing with
  | .members =>
    { entries with members := entries.members ++ [entry] }
  | .exclude =>
    { entries with exclude := entries.exclude ++ [entry] }

/- There are no entries. -/
def isEmpty (entries : Entries) : Bool :=
  entries.members.isEmpty && entries.exclude.isEmpty

end Entries

/- What was changed in the manifest of a workspace. -/
structure Report where
  manifest : Path
  added : Entries
  removed : Entries
deriving DecidableEq, Repr

/- Something was changed. -/
def Report.changed (report : Report) : Bool :=
  !report.added.isEmpty || !report.removed.isEmpty

------------------------------------------------------------
-- Lists In Documents
------------------------------------------------------------

/- The document with an empty list, if it lacks the list. -/
def withList
    (listing : Listing)
    (document : Document) : Document :=
  Toml.Layout.setIn "workspace" listing.key (.array [])
    document

/- The array of a list, if the document has one. -/
def groups?
    (listing : Listing)
    (document : Document) :
    Except Failure (Option (List Group)) := do
  let workspace ←
    Manifest.orClash
      (Toml.Layout.lookup "workspace" document)
  match workspace with
  | .missing => return none
  | found =>
    if !found.isTable then
      throw (.manifest .workspaceNotTable)
    let list ← Manifest.orClash (found.find listing.key)
    match list with
    | .missing => return none
    | .cell (.array groups) => return some groups
    | _ => throw (.manifest (.listNotArray listing.key))

/- The document with a table for the workspace. -/
def withWorkspace (document : Document) : Document :=
  if document.any (Toml.Layout.Entry.isNamed "workspace") then
    document
  else
    Toml.Layout.addTable "workspace" document

/-
  The array of a list and the document with it. The array is
  made if there is none and it is to be made.
-/
def openList
    (listing : Listing)
    (create : Bool)
    (document : Document) :
    Except Failure (Option (List Group × Document)) := do
  match ← groups? listing document with
  | some groups => return some (groups, document)
  | none =>
    if create then
      pure <| some
        ([], withList listing (withWorkspace document))
    else
      return none

/- The document with another array for a list. -/
def putList
    (listing : Listing)
    (groups : List Group)
    (document : Document) : Document :=
  Toml.Layout.setIn "workspace" listing.key (.array groups)
    document

/- Where an array has the entry for a target. -/
def indexOf?
    (root : Path)
    (target : Text)
    (groups : List Group) : Option Nat :=
  let values :=
    (Toml.Layout.arrayItems groups).map
      Toml.Layout.Item.value
  values.findIdx? (isEntryFor root target)

------------------------------------------------------------
-- Modification
------------------------------------------------------------

/- A document under change, and what was changed so far. -/
structure Progress where
  document : Document
  added : Entries
  removed : Entries

/- Add a path to a list. -/
def addTo
    (root : Path)
    (listing : Listing)
    (dryRun : Bool)
    (path : Path)
    (groups : List Group)
    (progress : Progress) :
    Action ω (List Group × Progress) := do
  let target ← Action.ofExcept (relativeToRoot root path)
  match indexOf? root target groups with
  | some _ =>
    Action.logInfo
      [target.quoted, " is already in `workspace.",
        listing.key, "`"]
    return (groups, progress)
  | none =>
    Action.logInfo
      [Action.dryMark dryRun, "Added ", target.quoted,
        " to `workspace.", listing.key, "`"]
    pure
      (Toml.Layout.appendItem
          (Toml.Layout.quotedItem target) groups,
        { progress with
          added := progress.added.add listing target })

/- Remove a path from a list. -/
def removeFrom
    (root : Path)
    (listing : Listing)
    (dryRun : Bool)
    (path : Path)
    (groups : List Group)
    (progress : Progress) :
    Action ω (List Group × Progress) := do
  let target ← Action.ofExcept (relativeToRoot root path)
  match indexOf? root target groups with
  | none =>
    Action.logDebug
      [target.quoted, " is not in `workspace.", listing.key,
        "`"]
    return (groups, progress)
  | some index =>
    Action.logInfo
      [Action.dryMark dryRun, "Removed ", target.quoted,
        " from `workspace.", listing.key, "`"]
    pure
      (Toml.Layout.removeItem index groups,
        { progress with
          removed := progress.removed.add listing target })

/- Change one list of a workspace. -/
def changeList
    (root : Path)
    (listing : Listing)
    (dryRun : Bool)
    (change : ListChange)
    (progress : Progress) : Action ω Progress := do
  if change = .none then
    return progress
  let opened ←
    Action.ofExcept
      (openList listing change.add.isSome progress.document)
  match opened with
  | none => return progress
  | some (groups, document) => do
    let progress := { progress with document }
    let (groups, progress) ←
      match change.add with
      | none => pure (groups, progress)
      | some path =>
        addTo root listing dryRun path groups progress
    let (groups, progress) ←
      match change.remove with
      | none => pure (groups, progress)
      | some path =>
        removeFrom root listing dryRun path groups progress
    pure
      { progress with
        document := putList listing groups progress.document }

/- Change the lists of the workspace at a root. -/
def modify
    (root : Path)
    (change : Change)
    (dryRun : Bool) : Action ω Report := do
  let manifest := root.join Manifest.fileName
  let original ← Files.read manifest
  let document ←
    Action.ofExcept
      (Manifest.editable
        (fun reasons =>
          .manifest (.notEditable manifest reasons))
        original)
  let start : Progress :=
    { document, added := .none, removed := .none }
  let progress ←
    changeList root .members dryRun change.members start
  let progress ←
    changeList root .exclude dryRun change.exclude progress
  let updated := Toml.Layout.render progress.document
  if updated = original then
    Action.logInfo [manifest.text, " is up to date"]
  else
    Files.write manifest updated dryRun
  pure
    { manifest, added := progress.added
      removed := progress.removed }

end Membership

end ScriptWorkspace
