import ScriptWorkspace.Toml.Layout.Scalar

/-
  Putting the entries of a document together.

  The entries of one table may stand apart from each other.
  Such a table is kept as several entries of the same name,
  and its parts must not clash: putting all of them in one
  place has to succeed.

  Key definitions include:
    * `Layout.lastNamed?`
    * `Layout.fragments`
    * `Layout.joinFragments`
    * `Layout.appendEntry`
    * `Layout.checkBody`
    * `Layout.gathered`
-/

namespace ScriptWorkspace

namespace Toml

namespace Layout

------------------------------------------------------------
-- Bodies
------------------------------------------------------------

/- The entries in a table; other entries have none. -/
def Entry.body : Entry → List Entry
  | .table _ _ _ body => body
  | _ => []

/- The entry is one table, not an array of them. -/
def Entry.isOneTable : Entry → Bool
  | .table _ _ _ _ => true
  | _ => false

/- The entry has the given name. -/
def Entry.isNamed (name : Text) (entry : Entry) : Bool :=
  entry.name? == some name

/- The last entry with a name. -/
def lastNamed? (name : Text) (body : List Entry) :
    Option Entry :=
  body.reverse.find? (Entry.isNamed name)

/- A body with its last entry of a name changed. -/
def mapLast
    (name : Text)
    (change : Entry → Entry)
    (body : List Entry) : List Entry :=
  let later :=
    body.reverse.takeWhile fun entry => !entry.isNamed name
  match body.reverse.drop later.length with
  | [] => body
  | entry :: earlier =>
    earlier.reverse ++ change entry :: later.reverse

/- The tables of a name in a body. -/
def fragments
    (name : Text)
    (body : List Entry) : List Entry :=
  body.filter fun entry =>
    entry.isNamed name && entry.isOneTable

/- The last table of a body has the given name. -/
def endsWithTable
    (name : Text)
    (body : List Entry) : Bool :=
  match body.reverse.find? Entry.isOneTable with
  | none => false
  | some entry => entry.isNamed name

/- The names that several entries of a body have. -/
def repeatedNames (body : List Entry) : List Text :=
  let names := body.filterMap Entry.name?
  names.eraseDups.filter fun name =>
    decide (names.count name > 1)

mutual

/- How many tables stand inside one another. -/
def Entry.depth : Entry → Nat
  | .table _ _ _ body => depthOf body + 1
  | _ => 0

/- The depth of the deepest entry of a body. -/
def depthOf : List Entry → Nat
  | [] => 0
  | entry :: entries => max entry.depth (depthOf entries)

end

------------------------------------------------------------
-- Indentation
------------------------------------------------------------

/- The first spaces in the blanks before a header. -/
def indentSpaces (indent : Text) : Text :=
  (indent.dropWhile (· != ' ')).takeWhile (· == ' ')

/- Blanks with spaces put before the first space. -/
def withSpaces (spaces indent : Text) : Text :=
  let before := indent.takeWhile (· != ' ')
  before ++ spaces ++ indent.drop before.length

/- A heading with its indentation changed. -/
def Heading.mapIndent
    (change : Text → Text)
    (heading : Heading) : Heading :=
  let margin := heading.margin
  { heading with
    margin := { margin with indent := change margin.indent } }

/- An entry with its indentation changed. -/
def Entry.mapIndent (change : Text → Text) : Entry → Entry
  | .comment margin =>
    .comment { margin with indent := change margin.indent }
  | .pair label separator value margin =>
    .pair label separator value
      { margin with indent := change margin.indent }
  | .table label kind heading body =>
    .table label kind (heading.mapIndent change) body
  | entry => entry

------------------------------------------------------------
-- Fragments
------------------------------------------------------------

/-
  The entries of several tables in one body. Only a table may
  have the name of an entry before it.
-/
def joinFragments :
    (joined : List Entry) →
    List Entry →
    Except Clash (List Entry)
  | joined, [] => .ok joined
  | joined, entry :: entries =>
    match entry.name?.bind (lastNamed? · joined) with
    | none => joinFragments (joined ++ [entry]) entries
    | some found =>
      if found.isOneTable then
        joinFragments (joined ++ [entry]) entries
      else
        .error .repeatedKey

/-
  How closely an entry added beside tables of its name is
  looked at: not at all, only if all of them are spelled by
  nothing but the tables in them, or always.
-/
inductive Scrutiny
  | nothing
  | implied
  | everything
deriving DecidableEq, Repr

/-
  What checks have to know of bodies: that the tables of a
  name can be put in one place, and that they can be joined.
-/
structure Checks where
  fitting : Text → List Entry → Except Clash Unit
  joining : Text → List Entry → Except Clash Unit

/- A body after a check of the tables of a name in it. -/
def checked
    (checks : Checks)
    (scrutiny : Scrutiny)
    (implied : Bool)
    (name : Text)
    (body : List Entry) : Except Clash (List Entry) := do
  if implied && scrutiny != .nothing then
    checks.fitting name body
  if scrutiny = .everything then
    checks.joining name body
  return body

mutual

/- A body with one more entry, if it does not clash. -/
def appendWith
    (checks : Checks)
    (scrutiny : Scrutiny)
    (body : List Entry) :
    Entry → Except Clash (List Entry)
  | .table label kind heading inner =>
    let beside := body ++ [.table label kind heading inner]
    match lastNamed? label.name body with
    | none => .ok beside
    | some (.table _ current currentHeading currentBody) =>
      if current = .declared then
        if kind = .declared then .error .repeatedKey
        else
          checked checks scrutiny false label.name beside
      else if kind = .declared then
        if current = .dotted then .error .reopenedTable
        else
          checked checks scrutiny false label.name beside
      else if current = .dotted || kind = .dotted ||
          !endsWithTable label.name body then
        checked checks scrutiny true label.name beside
      else do
        let merged ←
          appendAllWith checks
            (indentSpaces currentHeading.margin.indent)
            currentBody inner
        return mapLast label.name
          (fun entry =>
            match entry with
            | .table label kind heading _ =>
              .table label kind heading merged
            | entry => entry)
          body
    | some _ => .error .repeatedKey
  | .elements label tables =>
    match lastNamed? label.name body with
    | none => .ok (body ++ [.elements label tables])
    | some (.elements _ _) =>
      .ok
        (mapLast label.name
          (fun entry =>
            match entry with
            | .elements label others =>
              .elements label (others ++ tables)
            | entry => entry)
          body)
    | some _ => .error .repeatedKey
  | .pair label separator value margin =>
    match lastNamed? label.name body with
    | none =>
      .ok (body ++ [.pair label separator value margin])
    | some _ => .error .repeatedKey
  | entry => .ok (body ++ [entry])

/-
  A body with more entries, which take over the spaces before
  the header of the table they are put in.
-/
def appendAllWith
    (checks : Checks)
    (spaces : Text)
    (body : List Entry) :
    List Entry → Except Clash (List Entry)
  | [] => .ok body
  | entry :: entries => do
    let longer ← appendWith checks .everything body entry
    let indent := Entry.mapIndent (withSpaces spaces)
    let longer :=
      match entry.name? with
      | some name => mapLast name indent longer
      | none => body ++ [indent entry]
    appendAllWith checks spaces longer entries

end

------------------------------------------------------------
-- Checks
------------------------------------------------------------

mutual

/- The tables of a name fit together, to a given depth. -/
def fitting
    (depth : Nat)
    (name : Text)
    (body : List Entry) : Except Clash Unit :=
  match depth with
  | 0 => .ok ()
  | depth + 1 => do
    let checks : Checks :=
      { fitting := fun name body => fitting depth name body
        joining := fun name body => joining depth name body }
    let entries := (fragments name body).flatMap Entry.body
    let together ←
      entries.foldlM (appendWith checks .nothing) []
    (repeatedNames together).forM fun name =>
      fitting depth name together

/- The tables of a name can be joined, to a given depth. -/
def joining
    (depth : Nat)
    (name : Text)
    (body : List Entry) : Except Clash Unit :=
  match depth with
  | 0 => .ok ()
  | depth + 1 => do
    let joined ←
      joinFragments []
        ((fragments name body).flatMap Entry.body)
    (repeatedNames joined).forM fun name =>
      fitting depth name joined

end

/- The checks for bodies that are no deeper than this. -/
def checksTo (depth : Nat) : Checks :=
  { fitting := fitting depth, joining := joining depth }

/- A body with one more entry, if it does not clash. -/
def appendEntry
    (scrutiny : Scrutiny)
    (body : List Entry)
    (entry : Entry) : Except Clash (List Entry) :=
  let depth := max (depthOf body) entry.depth
  appendWith (checksTo (depth + 1)) scrutiny body entry

/- Tables of one name in a body fit together. -/
def checkBody (body : List Entry) : Except Clash Unit :=
  (repeatedNames body).forM fun name =>
    fitting (depthOf body + 1) name body

/- The entries of the tables of a name, in one body. -/
def gathered
    (name : Text)
    (body : List Entry) : Except Clash (List Entry) := do
  let joined ←
    joinFragments []
      ((fragments name body).flatMap Entry.body)
  checkBody joined
  return joined

end Layout

end Toml

end ScriptWorkspace
