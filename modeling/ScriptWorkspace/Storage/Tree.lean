import ScriptWorkspace.Storage.Fault
import ScriptWorkspace.Text.Utf8

/-
  Trees of files.

  A tree says which locations hold a directory and which hold
  a file, and what is in it. A location is the list of names
  from the root; the root is always a directory. A path leads
  to a location through directories that exist, and two dots
  lead back from one. There are no symbolic links, so each
  node has one location, and a path that leads to it spells
  this location.

  Key definitions include:
    * `Content`
    * `Node`
    * `Location`
    * `Tree`
    * `Tree.find?`
    * `Tree.set`
    * `Tree.below`
    * `Tree.resolve`
-/

namespace ScriptWorkspace

namespace Storage

------------------------------------------------------------
-- Contents
------------------------------------------------------------

/- What is in a file: a text, or bytes that are none. -/
inductive Content
  | text (text : Text)
  | binary (bytes : List UInt8) (fault : Utf8.Fault)
deriving DecidableEq, Repr

/- The content that some bytes are. -/
def Content.ofBytes (bytes : List UInt8) : Content :=
  match Utf8.decode bytes with
  | .ok decoded => .text decoded
  | .error fault => .binary bytes fault

/- The text of a file, or why it has none. -/
def Content.toText : Content → Except Utf8.Fault Text
  | .text decoded => .ok decoded
  | .binary _ fault => .error fault

------------------------------------------------------------
-- Trees
------------------------------------------------------------

/- The names from the root to a node. -/
abbrev Location := List OsText

/-
  A directory or a file. There are no symbolic links: what
  is told of trees of files is told of trees without them.
-/
inductive Node
  | directory
  | file (content : Content)
deriving DecidableEq, Repr

/- The nodes below the root, with their locations. -/
structure Tree where
  nodes : List (Location × Node)
deriving DecidableEq, Repr

namespace Tree

/- A tree of nothing but the root. -/
def empty : Tree := ⟨[]⟩

/- The node at a location. -/
def find? (tree : Tree) (location : Location) : Option Node :=
  if location.isEmpty then some .directory
  else tree.nodes.lookup location

/- A list of nodes with one put at a location. -/
def setNode
    (location : Location)
    (node : Node) :
    List (Location × Node) → List (Location × Node)
  | [] => [(location, node)]
  | (place, old) :: nodes =>
    if place = location then
      (place, node) :: nodes
    else
      (place, old) :: setNode location node nodes

/- The tree with a node put at a location. -/
def set
    (tree : Tree)
    (location : Location)
    (node : Node) : Tree :=
  ⟨setNode location node tree.nodes⟩

/- The tree without the node at a location. -/
def erase (tree : Tree) (location : Location) : Tree :=
  ⟨tree.nodes.filter fun (place, _) => place != location⟩

/- The location is inside a directory, however deep. -/
def isBelow (directory location : Location) : Bool :=
  directory.isPrefixOf location && directory != location

/- The nodes inside a directory, however deep. -/
def below
    (tree : Tree)
    (directory : Location) : List (Location × Node) :=
  tree.nodes.filter fun (place, _) => isBelow directory place

/- The tree without what is inside a directory. -/
def eraseBelow (tree : Tree) (directory : Location) : Tree :=
  ⟨tree.nodes.filter fun (place, _) =>
    !isBelow directory place⟩

------------------------------------------------------------
-- Resolution
------------------------------------------------------------

/- The name that leads back to the directory above. -/
def parentName : OsText := [.char '.', .char '.']

/- The most bytes that a name may have. -/
def maxNameWidth : Nat := 255

/- Follow one name from a location. -/
def step
    (tree : Tree)
    (location : Location)
    (name : OsText) : Except FaultKind Location :=
  match tree.find? location with
  | none => .error .notFound
  | some (.file _) => .error .notDirectory
  | some .directory =>
    if name.width > maxNameWidth then
      .error .nameTooLong
    else if name = parentName then
      .ok location.dropLast
    else
      .ok (location ++ [name])

/-
  The location that a path leads to from a directory. There
  need not be a node at it.
-/
def resolve
    (tree : Tree)
    (directory : Location)
    (path : Path) : Except FaultKind Location :=
  let start := if path.isAbsolute then [] else directory
  path.names.foldlM tree.step start

/- The node that a path leads to from a directory. -/
def node
    (tree : Tree)
    (directory : Location)
    (path : Path) : Except FaultKind Node := do
  let location ← tree.resolve directory path
  match tree.find? location with
  | some node => return node
  | none => throw .notFound

end Tree

end Storage

end ScriptWorkspace
