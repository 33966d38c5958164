import ScriptWorkspace.Storage.Tree

/-
  Making trees, and how two trees differ.

  Key definitions include:
    * `Tree.put`
    * `Tree.lost`
    * `Tree.gained`
-/

namespace ScriptWorkspace

namespace Storage

/- The two nodes are both directories, or both files. -/
def Node.isLike : Node → Node → Bool
  | .directory, .directory => true
  | .file _, .file _ => true
  | _, _ => false

namespace Tree

------------------------------------------------------------
-- Making Trees
------------------------------------------------------------

/- The tree with a directory, where nothing is yet. -/
def ensure (tree : Tree) (location : Location) : Tree :=
  match tree.find? location with
  | none => tree.set location .directory
  | some _ => tree

/- The locations that lead to a location. -/
def ancestors (location : Location) : List Location :=
  (List.range location.length).map location.take

/- The tree with a node, and with what leads to it. -/
def put
    (location : Location)
    (node : Node)
    (tree : Tree) : Tree :=
  ((ancestors location).foldl ensure tree).set location node

------------------------------------------------------------
-- Differences
------------------------------------------------------------

/- The nodes that are gone, or are of another sort now. -/
def lost (before after : Tree) : List (Location × Node) :=
  before.nodes.filter fun (location, node) =>
    match after.find? location with
    | some found => !node.isLike found
    | none => true

/- The nodes that are new, or have another content now. -/
def gained (before after : Tree) : List (Location × Node) :=
  after.nodes.filter fun (location, node) =>
    before.find? location ≠ some node

end Tree

end Storage

end ScriptWorkspace
