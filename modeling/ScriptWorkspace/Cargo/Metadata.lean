import ScriptWorkspace.Failure.Basic
import ScriptWorkspace.Json.Shape

/-
  What the build tool knows about a workspace.

  Only what is asked for is kept: the packages with their
  targets, which of them are members, the root directory and
  the package at the root, if there is one.

  Key definitions include:
    * `Cargo.BuildTarget`
    * `Cargo.Package`
    * `Cargo.Metadata`
    * `Cargo.Metadata.ofJson?`
    * `Cargo.Package.defaultBinary`
    * `Cargo.Metadata.findPackage`
    * `Cargo.Metadata.findMember?`
-/

namespace ScriptWorkspace

namespace Cargo

------------------------------------------------------------
-- Types
------------------------------------------------------------

/- A target of a package: what is built from a source. -/
structure BuildTarget where
  name : Text
  kinds : List Text
  source : Path
deriving DecidableEq, Repr

/- A package. -/
structure Package where
  id : Text
  name : Text
  manifest : Path
  targets : List BuildTarget
deriving DecidableEq, Repr

/- The dependencies of a workspace: only their root counts. -/
structure Resolve where
  root : Option Text
deriving DecidableEq, Repr

/- A workspace as the build tool describes it. -/
structure Metadata where
  packages : List Package
  members : List Text
  root : Path
  resolve : Option Resolve
deriving DecidableEq, Repr

------------------------------------------------------------
-- Reading
------------------------------------------------------------

/- The path that a string names. -/
def path? (value : Json) : Option Path :=
  value.text?.map fun text => Path.ofText text

/- A target of a package. -/
def BuildTarget.ofJson? (value : Json) : Option BuildTarget :=
  do
  let name ← value.required? "name" Json.text?
  let kinds ← value.optional? "kind" [] Json.textList?
  let source ← value.required? "src_path" path?
  return { name, kinds, source }

/- A package. -/
def Package.ofJson? (value : Json) : Option Package := do
  let id ← value.required? "id" Json.text?
  let name ← value.required? "name" Json.text?
  let manifest ← value.required? "manifest_path" path?
  let targets ←
    value.optional? "targets" []
      (Json.listOf? BuildTarget.ofJson?)
  return { id, name, manifest, targets }

/- The dependencies of a workspace. -/
def Resolve.ofJson? (value : Json) : Option Resolve := do
  if !value.isObject then
    none
  let root ←
    value.optional? "root" none (Json.nullable? Json.text?)
  return { root }

/- A workspace. -/
def Metadata.ofJson? (value : Json) : Option Metadata := do
  let packages ←
    value.optional? "packages" []
      (Json.listOf? Package.ofJson?)
  let members ←
    value.optional? "workspace_members" [] Json.textList?
  let root ← value.required? "workspace_root" path?
  let resolve ←
    value.optional? "resolve" none
      (Json.nullable? Resolve.ofJson?)
  return { packages, members, root, resolve }

------------------------------------------------------------
-- Packages
------------------------------------------------------------

namespace Package

/- The directory of a package. -/
def directory (package : Package) : Path :=
  package.manifest.parent

/- The binaries of a package, all or those of a name. -/
def binaries
    (package : Package)
    (name : Option Text) : List BuildTarget :=
  package.targets.filter fun target =>
    target.kinds.contains ("bin" : Text) &&
      (name.isNone || name == some target.name)

/- The only binary of a package, or the only one of a name. -/
def defaultBinary
    (package : Package)
    (name : Option Text) : Except Failure BuildTarget :=
  match package.binaries name with
  | [] => .error (.package (.noBinary package.name))
  | [target] => .ok target
  | _ => .error (.package (.manyBinaries package.name))

end Package

namespace Metadata

/- The path of the manifest of a workspace. -/
def manifest (metadata : Metadata) : Path :=
  metadata.root.join "Cargo.toml"

/- The first package of a name. -/
def findPackage
    (metadata : Metadata)
    (name : Text) : Except Failure Package :=
  match metadata.packages.find? (·.name == name) with
  | some package => .ok package
  | none => .error (.package (.unknown name))

/- The first member of a name. -/
def findMember?
    (metadata : Metadata)
    (name : Text) : Option Package :=
  metadata.packages.find? fun package =>
    metadata.members.contains package.id &&
      package.name == name

end Metadata

end Cargo

end ScriptWorkspace
