import ScriptWorkspace.Text.OsText

/-
  Paths.

  A path is an anchor and the names that lead on from it.
  Reading one drops empty names and names of a single dot;
  two dots are kept, because what they lead to depends on
  the files. Exactly two slashes in front are an anchor of
  their own.

  Key definitions include:
    * `Anchor`
    * `Path`
    * `Path.ofText`
    * `Path.text`
    * `Path.join`
    * `Path.parent`
    * `Path.name`
    * `Path.relativeTo?`
    * `suffix`
    * `Path.precedes`
-/

namespace ScriptWorkspace

/- Where a path begins. -/
inductive Anchor
  | relative
  | root
  | doubleRoot
deriving DecidableEq, Repr

/- The slashes in front of a path. -/
def Anchor.text : Anchor → OsText
  | .relative => []
  | .root => [.char '/']
  | .doubleRoot => [.char '/', .char '/']

/- An anchor and the names that lead on from it. -/
structure Path where
  anchor : Anchor
  names : List OsText
deriving DecidableEq, Repr

namespace Path

------------------------------------------------------------
-- Reading
------------------------------------------------------------

/- The unit separates two names. -/
def isSeparator (unit : OsChar) : Bool :=
  unit == .char '/'

/- The pieces of a text between its slashes. -/
def pieces : OsText → List OsText
  | [] => [[]]
  | unit :: rest =>
    if isSeparator unit then
      [] :: pieces rest
    else
      match pieces rest with
      | [] => [[unit]]
      | piece :: more => (unit :: piece) :: more

/- The piece names something: it is not empty nor a dot. -/
def isName (piece : OsText) : Bool :=
  !piece.isEmpty && piece != [.char '.']

/- The anchor of a text. -/
def anchorOf (text : OsText) : Anchor :=
  match (text.takeWhile isSeparator).length with
  | 0 => .relative
  | 2 => .doubleRoot
  | _ => .root

/- The path that a text stands for. -/
def ofText (text : OsText) : Path :=
  { anchor := anchorOf text
    names := (pieces text).filter isName }

------------------------------------------------------------
-- Writing
------------------------------------------------------------

/- Names with a slash between each two. -/
def joinNames : List OsText → OsText
  | [] => []
  | [name] => name
  | name :: names => name ++ .char '/' :: joinNames names

/- The path as a text; the empty path is a dot. -/
def text (path : Path) : OsText :=
  match path.anchor, path.names with
  | .relative, [] => [.char '.']
  | anchor, names => anchor.text ++ joinNames names

------------------------------------------------------------
-- Operations
------------------------------------------------------------

/- The path names the same from every directory. -/
def isAbsolute (path : Path) : Bool :=
  path.anchor != .relative

/- Follow one path from another; an absolute one restarts. -/
def append (path other : Path) : Path :=
  if other.isAbsolute then
    other
  else
    { path with names := path.names ++ other.names }

/- Follow the path of a text from another path. -/
def join (path : Path) (text : OsText) : Path :=
  path.append (ofText text)

/- The path without its last name, if it has any. -/
def parent (path : Path) : Path :=
  { path with names := path.names.dropLast }

/- The last name of a path, or nothing. -/
def name (path : Path) : OsText :=
  path.names.getLast?.getD []

/- What leads from one path to another below it. -/
def relativeTo? (path base : Path) : Option Path :=
  if path.anchor = base.anchor &&
      base.names.isPrefixOf path.names then
    some
      { anchor := .relative
        names := path.names.drop base.names.length }
  else
    none

/- The order of paths, name by name. -/
def precedes (left right : Path) : Bool :=
  let key (path : Path) : List (List Nat) :=
    path.names.map fun name => name.map OsText.compareKey
  let before (left right : List Nat) : Bool :=
    left.lex right fun first second => decide (first < second)
  !(key right).lex (key left) before

end Path

------------------------------------------------------------
-- Suffixes
------------------------------------------------------------

/-
  The suffix of a name: its last dot and what follows, unless
  the dot is the first or the last character.
-/
def suffix (name : OsText) : OsText :=
  let ending := (name.reverse.takeWhile (· != .char '.')).reverse
  if ending.isEmpty || ending.length + 1 ≥ name.length then
    []
  else
    .char '.' :: ending

end ScriptWorkspace
