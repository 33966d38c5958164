import ScriptWorkspace.Storage.Tree

/-
  Operations on a tree of files.

  Each operation follows its paths from a working directory
  and answers with the changed tree or with its fault. An
  operation that fails half way has changed the tree before;
  its answer holds that tree.

  Key definitions include:
    * `Calls.readFile`
    * `Calls.writeFile`
    * `Calls.makeDirectory`
    * `Calls.makeDirectories`
    * `Calls.copyFile`
    * `Calls.removeTree`
    * `Calls.moveFile`
    * `Calls.stage`
    * `Calls.filesBelow`
-/

namespace ScriptWorkspace

namespace Storage

namespace Calls

/- A fault of a kind about a path. -/
def about (path : Path) (kind : FaultKind) : StorageFault :=
  .call kind (.path path)

------------------------------------------------------------
-- Files
------------------------------------------------------------

/- There is a node at the path. -/
def pathExists
    (tree : Tree)
    (directory : Location)
    (path : Path) : Except StorageFault Bool :=
  match tree.node directory path with
  | .ok _ => .ok true
  | .error .notFound => .ok false
  | .error .notDirectory => .ok false
  | .error kind => .error (about path kind)

/- There is a directory at the path. -/
def isDirectory
    (tree : Tree)
    (directory : Location)
    (path : Path) : Bool :=
  match tree.node directory path with
  | .ok .directory => true
  | _ => false

/- The content of a file. -/
def readFile
    (tree : Tree)
    (directory : Location)
    (path : Path) : Except StorageFault Content :=
  match tree.node directory path with
  | .ok (.file content) => .ok content
  | .ok .directory => .error (about path .isDirectory)
  | .error kind => .error (about path kind)

/-
  The tree with a content written to a file. It fails for the
  path and what is there, before the file is touched. A fault
  of the device that comes later, when the file is cut off
  already, is left out, here and in all that is told of trees.
-/
def writeFile
    (tree : Tree)
    (directory : Location)
    (path : Path)
    (content : Content) : Except StorageFault Tree :=
  match tree.resolve directory path with
  | .error kind => .error (about path kind)
  | .ok location =>
    match tree.find? location with
    | some .directory => .error (about path .isDirectory)
    | _ => .ok (tree.set location (.file content))

/- Two paths lead to the same node. -/
def isSameNode
    (tree : Tree)
    (directory : Location)
    (source target : Path) : Bool :=
  match tree.resolve directory source,
      tree.resolve directory target with
  | .ok left, .ok right =>
    left = right && (tree.find? left).isSome
  | _, _ => false

/- The tree with a file copied. -/
def copyFile
    (tree : Tree)
    (directory : Location)
    (source target : Path) : Except StorageFault Tree := do
  if isSameNode tree directory source target then
    throw (.sameFile source target)
  let content ← readFile tree directory source
  writeFile tree directory target content

------------------------------------------------------------
-- Directories
------------------------------------------------------------

/- The path ends in a name of its own, not in two dots. -/
def endsInName (path : Path) : Bool :=
  match path.names.getLast? with
  | none => false
  | some name => name != Tree.parentName

/- The tree with a directory made. -/
def makeDirectory
    (tree : Tree)
    (directory : Location)
    (path : Path) : Except StorageFault Tree :=
  match tree.resolve directory path with
  | .error kind => .error (about path kind)
  | .ok location =>
    if !endsInName path || (tree.find? location).isSome then
      .error (about path .alreadyExists)
    else
      .ok (tree.set location .directory)

/-
  A fault of making a directory counts for nothing if there
  is one.
-/
def unlessDirectory
    (tree : Tree)
    (directory : Location)
    (path : Path)
    (faults : List StorageFault) :
    Tree × List StorageFault :=
  if isDirectory tree directory path then (tree, [])
  else (tree, faults)

/-
  Make a directory and those above it, with at most `fuel`
  of them. The answer lists the faults, the decisive one
  first and then those that led to it.
-/
def makeDirectoriesFrom
    (directory : Location) :
    (fuel : Nat) →
    Tree →
    Path →
    List StorageFault →
    Tree × List StorageFault
  | 0, tree, path, earlier =>
    (tree, about path .notFound :: earlier)
  | fuel + 1, tree, path, earlier =>
    match makeDirectory tree directory path with
    | .ok made => (made, [])
    | .error fault =>
      if fault = about path .notFound then
        if path.parent = path then
          (tree, fault :: earlier)
        else
          match makeDirectoriesFrom directory fuel tree
              path.parent (fault :: earlier) with
          | (tree, []) =>
            match makeDirectory tree directory path with
            | .ok made => (made, [])
            | .error second =>
              let faults := second :: fault :: earlier
              if second = about path .notFound then
                (tree, faults)
              else
                unlessDirectory tree directory path faults
          | failed => failed
      else
        unlessDirectory tree directory path
          (fault :: earlier)

/- Make a directory and those above it. -/
def makeDirectories
    (tree : Tree)
    (directory : Location)
    (path : Path) : Tree × List StorageFault :=
  makeDirectoriesFrom directory (path.names.length + 1) tree
    path []

/- Remove an empty directory. -/
def removeDirectory
    (tree : Tree)
    (directory : Location)
    (path : Path) : Except StorageFault Tree :=
  match tree.resolve directory path with
  | .error kind => .error (about path kind)
  | .ok location =>
    if !endsInName path then
      .error
        (about path
          (if path.names.isEmpty then .busy else .notEmpty))
    else if (tree.find? location).isNone then
      .error (about path .notFound)
    else
      .ok (tree.erase location)

/- Remove a directory and everything inside it. -/
def removeTree
    (tree : Tree)
    (directory : Location)
    (path : Path) : Tree × Option StorageFault :=
  match tree.resolve directory path with
  | .error kind => (tree, some (about path kind))
  | .ok location =>
    match tree.find? location with
    | none => (tree, some (about path .notFound))
    | some (.file _) =>
      (tree, some (.call .notDirectory (.contents path)))
    | some .directory =>
      let emptied := tree.eraseBelow location
      match removeDirectory emptied directory path with
      | .ok removed => (removed, none)
      | .error fault => (emptied, some fault)

/- The files below a directory, in the order of their paths. -/
def filesBelow
    (tree : Tree)
    (directory : Location)
    (path : Path) : List Path :=
  match tree.resolve directory path with
  | .error _ => []
  | .ok location =>
    let files :=
      (tree.below location).filterMap fun (place, node) =>
        match node with
        | .directory => none
        | .file _ =>
          some
            { path with
              names :=
                path.names ++ place.drop location.length }
    files.mergeSort Path.precedes

------------------------------------------------------------
-- Replacing Files
------------------------------------------------------------

/- A path without two dots that a name comes before. -/
def plainNames : List OsText → List OsText → List OsText
  | done, [] => done
  | done, name :: names =>
    if name = Tree.parentName then
      plainNames done.dropLast names
    else
      plainNames (done ++ [name]) names

/- The location that the names of a path spell. -/
def spelledLocation
    (directory : Location)
    (path : Path) : Location :=
  plainNames
    (if path.isAbsolute then [] else directory) path.names

/- The name of the temporary file of a number for a name. -/
def temporaryName (name : OsText) (n : Nat) : OsText :=
  let number := Text.padZero 8 (Text.ofNat n)
  let unit (c : Char) := OsChar.char c
  unit '.' :: name ++ unit '.' :: number.map unit ++
    [unit '.', unit 't', unit 'm', unit 'p']

/- The first number whose temporary file does not exist. -/
def freeNumber
    (tree : Tree)
    (parent : Location)
    (name : OsText) : (fuel : Nat) → Nat → Nat
  | 0, n => n
  | fuel + 1, n =>
    if (tree.find? (parent ++ [temporaryName name n])).isSome
    then freeNumber tree parent name fuel (n + 1)
    else n

/-
  Write a content to a new temporary file in the directory of
  a path.
-/
def stage
    (tree : Tree)
    (directory : Location)
    (path : Path)
    (content : Content) :
    Except StorageFault (Tree × Path) :=
  let parent := spelledLocation directory path.parent
  let number :=
    freeNumber tree parent path.name
      (tree.nodes.length + 1) 0
  let temporary : Path :=
    { anchor := .root
      names := parent ++ [temporaryName path.name number] }
  match writeFile tree directory temporary content with
  | .ok written => .ok (written, temporary)
  | .error fault => .error fault

/- Move a file, over another one if there is one. -/
def moveFile
    (tree : Tree)
    (directory : Location)
    (source target : Path) : Except StorageFault Tree :=
  let fault (kind : FaultKind) : StorageFault :=
    .call kind (.move source target)
  match tree.resolve directory source,
      tree.resolve directory target with
  | .error kind, _ => .error (fault kind)
  | _, .error kind => .error (fault kind)
  | .ok start, .ok goal =>
    if !endsInName target then
      .error (fault .busy)
    else
      match tree.find? start, tree.find? goal with
      | none, _ => .error (fault .notFound)
      | _, some .directory => .error (fault .isDirectory)
      | some node, _ =>
        .ok ((tree.erase start).set goal node)

/- Remove a file, if it is there. -/
def removeFile
    (tree : Tree)
    (directory : Location)
    (path : Path) : Tree :=
  match tree.resolve directory path with
  | .ok location => tree.erase location
  | .error _ => tree

end Calls

end Storage

end ScriptWorkspace
