import ScriptWorkspace.Cargo.Call
import ScriptWorkspace.Settings.Basic
import ScriptWorkspace.Toml.Described
import ScriptWorkspace.Workspace.Scripts

/-
  New packages and new workspaces.

  A new package is made from a template: from a package that
  is one, or from the table of files in the settings. Only
  its name is changed. A new workspace has such a package.

  Key definitions include:
    * `Workspace.templateSources`
    * `Workspace.newPackage`
    * `Workspace.initWorkspace`
-/

namespace ScriptWorkspace

namespace Workspace

open Toml.Layout (Document Target)

variable {ω : Type}

------------------------------------------------------------
-- Templates
------------------------------------------------------------

/- The directories that are no part of a template. -/
def skippedDirectories : List OsText := ["target", ".git"]

/- The names belong to a file that is part of a template. -/
def isTemplatePart (names : List OsText) : Bool :=
  match names with
  | [] => false
  | first :: _ =>
    !skippedDirectories.contains first &&
      names != [(Manifest.fileName : OsText)]

/- The files of a template, with what leads to them. -/
def templateSources
    (base : Path) : Action ω (List (Path × List OsText)) := do
  let files :=
    Storage.Calls.filesBelow (← Action.tree)
      (← Action.directory) base
  let parts :=
    files.map fun file =>
      (file, file.names.drop base.names.length)
  return parts.filter fun (_, names) => isTemplatePart names

/- Copy the files of a template package. -/
def copyTemplate
    (base directory : Path)
    (dryRun : Bool) : Action ω Unit := do
  for (source, names) in ← templateSources base do
    let target :=
      { directory with names := directory.names ++ names }
    Files.makeDirectories target.parent dryRun
    Files.copy source target dryRun

/- Write the files of a template in the settings. -/
def writeTemplate
    (template : Toml.Table)
    (directory : Path)
    (dryRun : Bool) : Action ω Unit := do
  let files ←
    Action.ofExcept (Template.files directory template)
  for (path, content) in files do
    if path ≠ manifestIn directory then
      Files.makeDirectories path.parent dryRun
      Files.write path content dryRun

/- The manifest of a template in the settings. -/
def templateDocument
    (template : Toml.Table) : Except Failure Document := do
  let text ← Template.manifest template
  Manifest.editable
    (fun reasons => .manifest (.templateNotEditable reasons))
    text

------------------------------------------------------------
-- Packages
------------------------------------------------------------

/- The name for a package in a directory, if none is given. -/
def nameFor
    (directory : Path)
    (name : Option OsText) : Except Failure OsText :=
  let found := name.getD directory.name
  if found.isEmpty then
    .error (.workspace (.noNameFrom directory))
  else
    .ok found

/- The files of a new package, and its manifest. -/
def layOut
    (template : Toml.Table)
    (templatePackage : Option Path)
    (directory : Path)
    (dryRun : Bool) : Action ω Document := do
  match templatePackage with
  | some base =>
    copyTemplate base directory dryRun
    Manifest.readDocument (manifestIn base)
  | none =>
    writeTemplate template directory dryRun
    Action.ofExcept (templateDocument template)

/- Make a package from a template. -/
def newPackage
    (root directory : Path)
    (template : Toml.Table)
    (name : Option OsText)
    (templatePackage : Option Path)
    (dryRun : Bool) : Action ω OsText := do
  let name ← Action.ofExcept (nameFor directory name)
  let document ←
    layOut template templatePackage directory dryRun
  let renamed ← Manifest.renamePackage document name
  Files.makeDirectories directory dryRun
  Files.writeIfText (manifestIn directory)
    (renamed.map Toml.Layout.render) dryRun
  let _ ←
    Membership.modify root (.addMember directory) dryRun
  return name

------------------------------------------------------------
-- Workspaces
------------------------------------------------------------

/- The table of the package in a document. -/
def packageTable (document : Document) :
    Except Failure Target := do
  match ← Manifest.packageTarget document with
  | .missing => throw (.unexpected .missingKey)
  | found => return found

/- Set a value of the package of a manifest. -/
def setPackageValue
    (key : Text)
    (missing : Text)
    (shown : Text)
    (item : Toml.Layout.Item)
    (document : Document) : Action ω Document := do
  let old ←
    Action.ofExcept do
      let package ← packageTable document
      Manifest.orClash (package.find key)
  Action.logInfo
    ["`package.", key, "`: ",
      Toml.describedOr missing old.value?, " → ", shown]
  return Toml.Layout.setIn "package" key (.plain item) document

/- The version of a template. -/
def templateVersion : Text := "0.0.0"

/- Give a package what the manifest of a template has. -/
def markTemplate (manifest : Path) : Action ω Unit := do
  let document ← Manifest.readDocument manifest
  let document ←
    setPackageValue "version" (Text.quoted [])
      templateVersion.quoted
      (Toml.Layout.quotedItem templateVersion) document
  let document ←
    setPackageValue "publish" "None" "False"
      { spelled := "false", value := .bool false } document
  Files.write manifest (Toml.Layout.render document) false

/- Make a workspace with a template package. -/
def initWorkspace
    (directory : Path)
    (dryRun : Bool) : Action ω Path := do
  let template := directory.join "template"
  Files.makeDirectories directory dryRun
  Files.write (manifestIn directory)
    Template.workspaceManifest dryRun
  let _ ←
    Cargo.run ["new", "--vcs", "none", template.text] none
      true dryRun
  unless dryRun do
    markTemplate (manifestIn template)
  let sources := template.join "src"
  Files.makeDirectories sources dryRun
  Files.write (sources.join "main.rs") Template.script dryRun
  return template

end Workspace

end ScriptWorkspace
