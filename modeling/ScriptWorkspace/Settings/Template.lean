import ScriptWorkspace.Failure.Basic
import ScriptWorkspace.Settings.Basic

/-
  Templates for new packages and workspaces.

  The template in the settings is a table of files: a string
  is the content of a file, and a table is a directory with
  more of them. The files come level by level.

  Key definitions include:
    * `Template.virtualManifest`
    * `Template.workspaceManifest`
    * `Template.packageManifest`
    * `Template.source`
    * `Template.script`
    * `Template.files`
    * `Template.manifest`
-/

namespace ScriptWorkspace

namespace Template

------------------------------------------------------------
-- Texts
------------------------------------------------------------

/- Lines, each one ended. -/
def lines (texts : List String) : Text :=
  texts.flatMap fun text => text.toList ++ ['\n']

/- The manifest of a workspace that is new and empty. -/
def virtualManifest : Text :=
  lines ["[workspace]", "members = []", "exclude = []"]

/- The manifest of a workspace with a template package. -/
def workspaceManifest : Text :=
  lines
    ["[workspace]", "members = [\"template\"]",
      "exclude = []"]

/- The manifest of the usual template. -/
def packageManifest : Text :=
  lines
    ["[package]", "name = \"template\"",
      "version = \"0.0.0\"", "edition = \"2018\"",
      "publish = false", "", "[dependencies]"]

/- The source of the usual template. -/
def source : Text :=
  lines
    ["//! ```cargo", "//! # Leave blank.", "//! ```", "",
      "fn main() \x7b", "    todo!();", "\x7d"]

/- The source of the usual template, ready to be run. -/
def script : Text :=
  lines ["#!/usr/bin/env bikecase"] ++ source

/- The usual template. -/
def usual : Toml.Table :=
  [("Cargo.toml", .string packageManifest),
    ("src", .table [("main.rs", .string source)])]

------------------------------------------------------------
-- Files
------------------------------------------------------------

mutual

/- How many tables a value has inside one another. -/
def depth : Toml → Nat
  | .table members => depthOf members + 1
  | _ => 0

/- The depth of the deepest member. -/
def depthOf : List (Text × Toml) → Nat
  | [] => 0
  | (_, value) :: members => max (depth value) (depthOf members)

end

/- Files with another content for a path. -/
def putFile
    (path : Path)
    (content : Text) :
    List (Path × Text) → List (Path × Text)
  | [] => [(path, content)]
  | (place, old) :: files =>
    if place = path then (place, content) :: files
    else (place, old) :: putFile path content files

/- The values of a table with their paths. -/
def under
    (directory : Path)
    (members : Toml.Table) : List (Path × Toml) :=
  members.map fun (key, value) => (directory.join key, value)

/- The failure for a value that is no file. -/
def notAFile (directory path : Path) : Failure :=
  match path.relativeTo? directory with
  | some place => .settings (.templateEntry place)
  | none => .unexpected .pathNotBelow

/- Files with those of a level, and the next level. -/
def addLevel
    (directory : Path) :
    List (Path × Toml) →
    List (Path × Text) →
    Except Failure (List (Path × Text) × List (Path × Toml))
  | [], files => .ok (files, [])
  | (path, .string content) :: values, files =>
    addLevel directory values (putFile path content files)
  | (path, .table members) :: values, files => do
    let (files, next) ← addLevel directory values files
    return (files, under path members ++ next)
  | (path, _) :: _, _ => .error (notAFile directory path)

/- Files with those of a number of levels. -/
def addLevels
    (directory : Path) :
    (count : Nat) →
    List (Path × Toml) →
    List (Path × Text) →
    Except Failure (List (Path × Text))
  | 0, _, files => .ok files
  | count + 1, values, files => do
    let (files, next) ← addLevel directory values files
    addLevels directory count next files

/- The files of a template under a directory. -/
def files
    (directory : Path)
    (template : Toml.Table) :
    Except Failure (List (Path × Text)) :=
  addLevels directory (depthOf template + 1)
    (under directory template) []

/- The manifest of a template. -/
def manifest (template : Toml.Table) : Except Failure Text :=
  match Toml.find? "Cargo.toml" template with
  | none => .error (.settings .templateManifestMissing)
  | some (.string text) => .ok text
  | some _ => .error (.settings .templateManifestNotText)

end Template

end ScriptWorkspace
