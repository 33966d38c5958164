import ScriptWorkspace.Path.Basic
import ScriptWorkspace.Text.Quoted

/-
  Faults of the file system.

  Each kind of fault has its number and its wording, and a
  fault names the path that the operation was given.

  Key definitions include:
    * `FaultKind`
    * `StorageFault`
    * `StorageFault.message`
-/

namespace ScriptWorkspace

namespace Storage

/- Why an operation on files did not succeed. -/
inductive FaultKind
  | notFound
  | busy
  | alreadyExists
  | notDirectory
  | isDirectory
  | nameTooLong
  | notEmpty
deriving DecidableEq, Repr

/- The number of a kind of fault. -/
def FaultKind.number : FaultKind → Nat
  | .notFound => 2
  | .busy => 16
  | .alreadyExists => 17
  | .notDirectory => 20
  | .isDirectory => 21
  | .nameTooLong => 36
  | .notEmpty => 39

/- The wording for a kind of fault. -/
def FaultKind.wording : FaultKind → Text
  | .notFound => "No such file or directory"
  | .busy => "Device or resource busy"
  | .alreadyExists => "File exists"
  | .notDirectory => "Not a directory"
  | .isDirectory => "Is a directory"
  | .nameTooLong => "File name too long"
  | .notEmpty => "Directory not empty"

/- What an operation was about, as its fault shows it. -/
inductive Subject
  | path (path : Path)
  | move (source target : Path)
  | contents (path : Path)
deriving DecidableEq, Repr

/- A path with the name of its type, as some faults show. -/
def typedPath (path : Path) : Text :=
  "PosixPath(" ++ path.text.quoted ++ ")"

/- The wording for what an operation was about. -/
def Subject.wording : Subject → Text
  | .path subject => subject.text.quoted
  | .move source target =>
    source.text.quoted ++ " -> " ++ target.text.quoted
  | .contents subject => typedPath subject

/- A failed operation on files. -/
inductive StorageFault
  | call (kind : FaultKind) (subject : Subject)
  | sameFile (source target : Path)
deriving DecidableEq, Repr

/- The wording for a failed operation. -/
def StorageFault.message : StorageFault → Text
  | .call kind subject =>
    "[Errno " ++ Text.ofNat kind.number ++ "] " ++
      kind.wording ++ ": " ++ subject.wording
  | .sameFile source target =>
    typedPath source ++ " and " ++ typedPath target ++
      " are the same file"

end Storage

end ScriptWorkspace
