import ScriptWorkspace.Cargo.Metadata
import ScriptWorkspace.Script.Package
import ScriptWorkspace.Settings.Template
import ScriptWorkspace.Workspace.Membership

/-
  Scripts as packages of a workspace.

  A script that is run is registered: it becomes a member of
  a workspace, or its member is brought up to date. A script
  that is imported is split into the files of a package.

  Key definitions include:
    * `Workspace.create`
    * `Workspace.requireVirtual`
    * `Workspace.defaultBinary`
    * `Workspace.writeUnlessCurrent`
    * `Workspace.registerScript`
    * `Workspace.importScript`
    * `Workspace.exported`
-/

namespace ScriptWorkspace

namespace Workspace

variable {ω : Type}

------------------------------------------------------------
-- Workspaces
------------------------------------------------------------

/- The manifest of a directory. -/
def manifestIn (directory : Path) : Path :=
  directory.join Manifest.fileName

/- Make a directory that is an empty workspace. -/
def create
    (directory : Path)
    (dryRun : Bool) : Action ω Unit := do
  Files.makeDirectories directory dryRun
  Files.write (manifestIn directory) Template.virtualManifest
    dryRun
  Action.logInfo
    ["Created a new workspace: ", directory.text]

/- The manifest at the root of a workspace has no package. -/
def requireVirtual (root : Path) : Action ω Unit := do
  let manifest := manifestIn root
  let members ← Files.readToml manifest
  if (Toml.find? "package" members).isSome then
    throw (.workspace (.notVirtual manifest))

------------------------------------------------------------
-- Binaries
------------------------------------------------------------

/- What a manifest says about the binary to run. -/
def defaultRun? (members : Toml.Table) : Option Toml := do
  let package ← Toml.find? "package" members
  Toml.find? "default-run" (← package.table?)

/- The binary of a package that its manifest asks for. -/
def chooseBinary
    (package : Cargo.Package)
    (members : Toml.Table) :
    Except Failure Cargo.BuildTarget :=
  match defaultRun? members with
  | none => package.defaultBinary none
  | some (.string name) => package.defaultBinary (some name)
  | some _ => .error (.package (.noBinary package.name))

/- The source of a package, and its manifest. -/
def defaultBinary
    (package : Cargo.Package) : Action ω (Path × Text) := do
  let manifest ← Files.read package.manifest
  let members ←
    Action.ofExcept
      (Manifest.read (.notTomlAt package.manifest) manifest)
  let target ← Action.ofExcept (chooseBinary package members)
  return (target.source, manifest)

/- The wording for a source that lacks a manifest. -/
def manifestMissingIn (source : Path) : OsText :=
  wording
    ["could not find the `cargo` code block: ", source.text]

/- The script that a package makes. -/
def exported (package : Cargo.Package) : Action ω Text := do
  let (source, manifest) ← defaultBinary package
  match Script.embed (← Files.read source) manifest with
  | .ok script => return script
  | .error fault =>
    throw (.ofScript (manifestMissingIn source) fault)

------------------------------------------------------------
-- Registration
------------------------------------------------------------

/- Write a file that does not have the content already. -/
def writeUnlessCurrent
    (path : Path)
    (content : Text)
    (dryRun : Bool) : Action ω Bool := do
  let current ←
    if ← Files.pathExists path then
      pure ((← Files.read path) == content)
    else
      pure false
  if current then
    Action.logInfo [path.text, " is up to date"]
    return false
  else
    Files.write path content dryRun
    return true

/- Make a place for a new member in a workspace. -/
def addPackage
    (root : Path)
    (name : Text)
    (dryRun : Bool) : Action ω Path := do
  let directory := root.join name
  if ← Files.pathExists directory then
    throw (.workspace (.directoryExists directory))
  let _ ←
    Membership.modify root (.include directory) dryRun
  return manifestIn directory

/- The source of a binary beside a manifest. -/
def sourceBeside
    (manifest : Path)
    (binary : Option OsText) : Path :=
  let sources := manifest.parent.join "src"
  match binary with
  | none => sources.join "main.rs"
  | some name =>
    if name.isEmpty then
      sources.join "main.rs"
    else
      (sources.join "bin").join (wording [name, ".rs"])

/- Keep a script as a member of a workspace. -/
def registerScript
    (metadata : Cargo.Metadata)
    (manifest script : Text)
    (binary : Option OsText)
    (dryRun : Bool) : Action ω Text := do
  let name ← Action.ofExcept (Manifest.packageName manifest)
  let path ←
    match metadata.findMember? name with
    | some member => do
      Action.logInfo
        ["`", name, "` already exists: ", metadata.root.text]
      pure member.manifest
    | none => addPackage metadata.root name dryRun
  let source := sourceBeside path binary
  Files.makeDirectories source.parent dryRun
  let _ ← writeUnlessCurrent path manifest dryRun
  let _ ← writeUnlessCurrent source script dryRun
  return name

------------------------------------------------------------
-- Import
------------------------------------------------------------

/- Files of which a later one replaces an earlier one. -/
def distinctFiles (files : List (Path × Text)) :
    List (Path × Text) :=
  files.foldl
    (fun found (path, content) =>
      Template.putFile path content found)
    []

/-
  Make a package of a script. The directory of the package is
  given for the name of the package.
-/
def importScript
    (root : Path)
    (script : Text)
    (directoryFor : Text → Path)
    (dryRun : Bool) : Action ω Text := do
  let files ←
    match Script.split script with
    | .ok files => pure files
    | .error fault =>
      throw (.ofScript manifestMissing fault)
  let name ←
    Action.ofExcept (Manifest.packageName files.manifest)
  let directory := directoryFor name
  let sources := directory.join "src"
  Files.makeDirectories sources dryRun
  Files.writeAll
    [(manifestIn directory, files.manifest),
      (sources.join "main.rs", files.source)]
    dryRun
  let _ ←
    Membership.modify root (.addMember directory) dryRun
  return name

end Workspace

end ScriptWorkspace
