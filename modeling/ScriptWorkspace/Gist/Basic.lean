import ScriptWorkspace.Failure.Basic
import ScriptWorkspace.Json.Shape

/-
  Gists.

  A gist holds files in an order. It can be a script if just
  one of them is a Rust file and the store sends all of it.

  Key definitions include:
    * `GistFile`
    * `Gist`
    * `RemoteScript`
    * `Gist.ofJson?`
    * `Gist.createdId?`
    * `Gist.rustFile`
-/

namespace ScriptWorkspace

------------------------------------------------------------
-- Types
------------------------------------------------------------

/- A file of a gist. -/
structure GistFile where
  filename : Text
  content : Text
  truncated : Bool
deriving DecidableEq, Repr

/- A gist as the store describes it. -/
structure Gist where
  id : Text
  description : Option Text
  files : List GistFile
deriving DecidableEq, Repr

/- The script that a gist holds. -/
structure RemoteScript where
  gistId : Text
  filename : Text
  content : Text
  description : Text
deriving DecidableEq, Repr

------------------------------------------------------------
-- Reading
------------------------------------------------------------

/- A file of a gist. -/
def GistFile.ofJson? (value : Json) : Option GistFile := do
  let filename ← value.required? "filename" Json.text?
  let content ← value.optional? "content" [] Json.text?
  let truncated ←
    value.optional? "truncated" false Json.truth?
  return { filename, content, truncated }

namespace Gist

/- A gist. -/
def ofJson? (value : Json) : Option Gist := do
  let id ← value.required? "id" Json.text?
  let description ←
    value.optional? "description" none
      (Json.nullable? Json.text?)
  let files ←
    value.optional? "files" []
      (Json.membersOf? GistFile.ofJson?)
  return { id, description, files := files.map Prod.snd }

/- The id of a gist that was created. -/
def createdId? (value : Json) : Option Text :=
  value.required? "id" Json.text?

------------------------------------------------------------
-- Rust Files
------------------------------------------------------------

/- The suffixes of Rust files. -/
def rustSuffixes : List OsText := [".rs", ".crs"]

/- The file is a Rust file. -/
def isRustFile (file : GistFile) : Bool :=
  rustSuffixes.contains
    (suffix (Path.ofText file.filename).name)

/- The only Rust file of a gist, all of it. -/
def rustFile (gist : Gist) : Except Failure GistFile :=
  match gist.files.filter isRustFile with
  | [] => .error (.gist (.noRustFile gist.id))
  | [file] =>
    if file.truncated then
      .error (.gist (.truncated file.filename))
    else
      .ok file
  | files =>
    .error
      (.gist
        (.manyRustFiles gist.id
          (files.map GistFile.filename)))

end Gist

end ScriptWorkspace
