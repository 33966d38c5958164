import ScriptWorkspace.Toml.Layout.Assembly
import ScriptWorkspace.Toml.Layout.Statement

/-
  Reading a document with its layout.

  The pairs after a header belong to its table, and so do the
  tables of the headers that follow it at once, if their keys
  begin with the key of the header. A header of several new
  names makes a table in implied tables.

  Key definitions include:
    * `Layout.readBody`
    * `Layout.readTable`
    * `Layout.parse`
-/

namespace ScriptWorkspace

namespace Toml

namespace Layout

------------------------------------------------------------
-- Pairs
------------------------------------------------------------

/- The entry of a pair, inside tables if its key is dotted. -/
def pairEntry
    (separator : Text)
    (value : Value)
    (margin : Margin)
    (label : Label) :
    List Label → Entry
  | [] => .pair label separator value margin
  | next :: labels =>
    .table label .dotted { shown := none, margin := .line }
      [pairEntry separator value margin next labels]

/- The pairs up to the next header, and the statements after. -/
def readBody
    (fault : Clash → LayoutFault)
    (keys : List (List Label)) :
    List Statement →
    Except LayoutFault (List Entry × List Statement)
  | .blank text :: rest => do
    let (entries, rest) ← readBody fault keys rest
    return (.blank text :: entries, rest)
  | .comment margin :: rest => do
    let (entries, rest) ← readBody fault keys rest
    return (.comment margin :: entries, rest)
  | .pair labels separator value margin :: rest => do
    if keys.any fun key => keysClash key labels then
      throw (fault .repeatedKey)
    let (entries, rest) ←
      readBody fault (labels :: keys) rest
    match labels with
    | [] => return (entries, rest)
    | label :: more =>
      let entry := pairEntry separator value margin label more
      return (entry :: entries, rest)
  | .broken found :: _ => throw found
  | rest => return ([], rest)

------------------------------------------------------------
-- Tables
------------------------------------------------------------

/- A clash among the entries of a table. -/
def inTable {α : Type} :
    Except Clash α → Except LayoutFault α
  | .ok result => .ok result
  | .error clash => .error (.inTable clash)

/- A clash among the entries of the document. -/
def atTop {α : Type} :
    Except Clash α → Except LayoutFault α
  | .ok result => .ok result
  | .error clash => .error (.atTop clash)

/- The names of a key. -/
def namesOf (labels : List Label) : List Text :=
  labels.map Label.name

/- The key leads from a table to something inside it. -/
def isInside
    (outer : List Text)
    (labels : List Label) : Bool :=
  outer.isPrefixOf (namesOf labels) &&
    outer != namesOf labels

/- The innermost entry of a header, inside implied tables. -/
def impliedEntry
    (margin : Margin)
    (innermost : Label → Entry)
    (label : Label) :
    List Label → Entry
  | [] => innermost label
  | next :: labels =>
    .table label .implied { shown := none, margin }
      [impliedEntry margin innermost next labels]

/-
  The entry of a header whose names are new from a label on.
  What is written before the header stands before the
  innermost table, not before the first implied one.
-/
def headerEntry
    (margin : Margin)
    (innermost : Label → Entry)
    (label : Label) :
    List Label → Entry
  | [] => innermost label
  | next :: labels =>
    .table label .implied
      { shown := none, margin := { margin with indent := [] } }
      [impliedEntry margin innermost next labels]

mutual

/- What belongs to the table of a key. -/
def readSection :
    (fuel : Nat) →
    (key : List Text) →
    List Statement →
    Except LayoutFault (List Entry × List Statement)
  | 0, _, _ => .error .grammar
  | fuel + 1, key, statements => do
    let (body, rest) ← readBody .inTable [] statements
    let (body, rest) ← readInner fuel key body rest
    inTable (checkBody body)
    return (body, rest)

/- The tables inside the table of a key, after its body. -/
def readInner :
    (fuel : Nat) →
    (key : List Text) →
    List Entry →
    List Statement →
    Except LayoutFault (List Entry × List Statement)
  | 0, _, _, _ => .error .grammar
  | fuel + 1, key, body, statements =>
    match statements with
    | .header isElement labels margin :: rest =>
      if isInside key labels then do
        let (entry, rest) ←
          readTable fuel key isElement labels margin rest
        let body ← inTable (appendEntry .nothing body entry)
        readInner fuel key body rest
      else
        .ok (body, statements)
    | .broken fault :: _ => .error fault
    | _ => .ok (body, statements)

/-
  The entry of a header, with what belongs to its table. The
  elements of one array that follow each other make one entry.
-/
def readTable :
    (fuel : Nat) →
    (outer : List Text) →
    (isElement : Bool) →
    List Label →
    Margin →
    List Statement →
    Except LayoutFault (Entry × List Statement)
  | 0, _, _, _, _, _ => .error .grammar
  | fuel + 1, outer, isElement, labels, margin, statements =>
    do
    let heading : Heading :=
      { shown := some (spelledKey labels), margin }
    let (body, rest) ←
      readSection fuel (namesOf labels) statements
    match labels.drop outer.length with
    | [] => throw .grammar
    | label :: inner =>
      if !isElement then
        let innermost (label : Label) : Entry :=
          .table label .declared heading body
        return (headerEntry margin innermost label inner, rest)
      else
        let (tables, rest) ←
          if inner.isEmpty then
            readElements fuel (namesOf labels) rest
          else
            pure ([], rest)
        let innermost (label : Label) : Entry :=
          .elements label ((heading, body) :: tables)
        return (headerEntry margin innermost label inner, rest)

/- The elements of the array of a key that come next. -/
def readElements :
    (fuel : Nat) →
    (key : List Text) →
    List Statement →
    Except LayoutFault
      (List (Heading × List Entry) × List Statement)
  | 0, _, _ => .error .grammar
  | fuel + 1, key, statements =>
    match statements with
    | .header true labels margin :: rest =>
      if namesOf labels = key then do
        let heading : Heading :=
          { shown := some (spelledKey labels), margin }
        let (body, rest) ← readSection fuel key rest
        let (tables, rest) ← readElements fuel key rest
        return ((heading, body) :: tables, rest)
      else
        .ok ([], statements)
    | .broken fault :: _ => .error fault
    | _ => .ok ([], statements)

end

------------------------------------------------------------
-- Documents
------------------------------------------------------------

/- The tables of a document, after its body. -/
def readTables :
    (fuel : Nat) →
    List Entry →
    List Statement →
    Except LayoutFault Document
  | 0, _, _ => .error .grammar
  | fuel + 1, body, statements =>
    match statements with
    | .header isElement labels margin :: rest => do
      let (entry, rest) ←
        readTable fuel [] isElement labels margin rest
      let body ← atTop (appendEntry .implied body entry)
      readTables fuel body rest
    | .broken fault :: _ => .error fault
    | _ => .ok body

/- The document that a text spells. -/
def parse (text : Text) : Except LayoutFault Document := do
  let statements := statements text
  let (body, rest) ← readBody .atTop [] statements
  readTables (4 * statements.length + 4) body rest

end Layout

end Toml

end ScriptWorkspace
