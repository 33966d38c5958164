import ScriptWorkspace.Session.Files
import ScriptWorkspace.Text.Quoted
import ScriptWorkspace.Toml.Layout.Document
import ScriptWorkspace.Toml.Layout.Edit

/-
  The manifests of packages and workspaces.

  A manifest is only read for the name of its package. It is
  changed as a document with its layout, so that all of it
  but the changed value stays as it was written.

  Key definitions include:
    * `Manifest.fileName`
    * `Manifest.packageName`
    * `Manifest.editable`
    * `Manifest.readDocument`
    * `Manifest.renamed`
    * `Manifest.renamePackage`
-/

namespace ScriptWorkspace

namespace Manifest

open Toml.Layout (Document Target)

variable {ω : Type}

/- The name of the file that holds a manifest. -/
def fileName : Text := "Cargo.toml"

------------------------------------------------------------
-- Reading
------------------------------------------------------------

/- The table of a manifest. -/
def read
    (fault : Toml.Fault → ManifestFault)
    (manifest : Text) : Except Failure Toml.Table :=
  match Toml.parse manifest with
  | .ok members => .ok members
  | .error .longNumeral => .error (.unexpected .longNumeral)
  | .error found => .error (.manifest (fault found))

/- The name in the table of a package. -/
def nameIn? (members : Toml.Table) : Option Text := do
  let package ← Toml.find? "package" members
  let name ← Toml.find? "name" (← package.table?)
  name.text?

/- The name of the package of a manifest. -/
def packageName
    (manifest : Text) : Except Failure Text := do
  let members ← read .notToml manifest
  match nameIn? members with
  | some name => return name
  | none => throw (.manifest .noPackageName)

------------------------------------------------------------
-- Documents
------------------------------------------------------------

/- The reason that a clash in a document is. -/
def clashReason : Toml.Layout.Clash → Reason
  | .repeatedKey => .repeatedKey
  | .reopenedTable => .reopenedTable

/- A clash that is met where none is expected. -/
def clashFailure : Toml.Layout.Clash → Failure
  | .repeatedKey => .unexpected .repeatedKey
  | .reopenedTable => .unexpected .reopenedTable

/- The result of looking into a document. -/
def orClash {α : Type} :
    Except Toml.Layout.Clash α → Except Failure α
  | .ok result => .ok result
  | .error clash => .error (clashFailure clash)

/- The document of a text, or a failure with its reasons. -/
def editable
    (failure : List Reason → Failure)
    (text : Text) : Except Failure Document :=
  match Toml.Layout.parse text with
  | .ok document => .ok document
  | .error .grammar => .error (failure [.notEditable])
  | .error (.atTop clash) =>
    .error (failure [.notEditable, clashReason clash])
  | .error (.inTable clash) => .error (clashFailure clash)

/- The document in a file. -/
def readDocument (path : Path) : Action ω Document := do
  let text ← Files.read path
  Action.ofExcept
    (editable (fun reasons => .file (.notToml path reasons))
      text)

------------------------------------------------------------
-- Changes
------------------------------------------------------------

/-
  What `package` leads to in a document, if other keys can be
  looked up in it.
-/
def packageTarget (document : Document) :
    Except Failure Target := do
  let package ←
    orClash (Toml.Layout.lookup "package" document)
  match package with
  | .missing => return .missing
  | found =>
    if found.isTable then return found
    else throw (.unexpected .notATable)

/- The cell of a string. -/
def stringCell (text : Text) : Toml.Layout.Cell :=
  .plain (Toml.Layout.quotedItem text)

/- The old name of a package, and the document with another. -/
def renamed
    (document : Document)
    (name : Text) : Except Failure (Text × Document) := do
  let package ← packageTarget document
  let old ← orClash (package.find "name")
  match old.value?.bind Toml.text? with
  | none => throw (.manifest .packageNameNotText)
  | some old =>
    pure
      (old,
        Toml.Layout.setIn "package" "name" (stringCell name)
          document)

/-
  Give the package of a manifest another name. There is no
  such manifest if the name is no text.
-/
def renamePackage
    (document : Document)
    (name : OsText) : Action ω (Option Document) := do
  let (old, changed) ←
    Action.ofExcept
      (renamed document (name.toText?.getD []))
  Action.logInfo
    ["`package.name`: ", old.quoted, " → ", name.quoted]
  return name.toText?.map fun _ => changed

end Manifest

end ScriptWorkspace
