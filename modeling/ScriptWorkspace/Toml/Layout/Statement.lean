import ScriptWorkspace.Toml.Layout.Scalar

/-
  The statements of a document, one after the other.

  Each statement keeps how it is written. Reading stops at
  the first fault, which then stands in the place of what
  could not be read.

  Key definitions include:
    * `Layout.Statement`
    * `Layout.readLabels`
    * `Layout.groupsOf`
    * `Layout.readValue`
    * `Layout.statements`
-/

namespace ScriptWorkspace

namespace Toml

namespace Layout

/- A reading of a scalar among the readings of a document. -/
def ofScalar {α : Type} :
    Except Fault (α × Text) → Except LayoutFault (α × Text)
  | .ok found => .ok found
  | .error _ => .error .grammar

------------------------------------------------------------
-- Keys
------------------------------------------------------------

/- A bare key with the blanks around it. -/
def readBareLabel
    (text : Text) : Except LayoutFault (Label × Text) :=
  let spelled :=
    text.takeWhile fun c => isBareKeyChar c || isSpace c
  let name :=
    Text.dropRightWhile isSpace (spelled.dropWhile isSpace)
  if name.isEmpty || name.any (· == ' ') then
    .error .grammar
  else
    .ok ({ spelled, name }, text.drop spelled.length)

/- One name of a key with the blanks around it. -/
def readLabel
    (text : Text) : Except LayoutFault (Label × Text) :=
  match readShortString? (text.dropWhile isSpace) with
  | none => readBareLabel text
  | some reading => do
    let (name, rest) ← ofScalar reading
    let rest := rest.dropWhile isSpace
    return ({ spelled := consumed text rest, name }, rest)

/- The names of a key. -/
def readLabels :
    (fuel : Nat) →
    Text →
    Except LayoutFault (List Label × Text)
  | 0, _ => .error .grammar
  | fuel + 1, text => do
    let (label, rest) ← readLabel text
    match rest with
    | '.' :: rest =>
      let (labels, rest) ← readLabels fuel rest
      return (label :: labels, rest)
    | _ => return ([label], rest)

/- A key, from the blanks before it on. -/
def readKeyLabels
    (text : Text) :
    Except LayoutFault (List Label × Text) :=
  readLabels (text.length + 1) text

/- An equals sign and the blanks after it. -/
def readSeparator
    (text : Text) : Except LayoutFault (Text × Text) :=
  match text with
  | '=' :: rest =>
    let spaces := rest.takeWhile isSpace
    let rest := rest.drop spaces.length
    if rest.head? == some '=' then .error .grammar
    else .ok ('=' :: spaces, rest)
  | _ => .error .grammar

------------------------------------------------------------
-- Comments And Line Ends
------------------------------------------------------------

/- A comment, and the text from the end of its line on. -/
def readComment
    (text : Text) : Except LayoutFault (Text × Text) :=
  let comment := text.takeWhile fun c => !isLineEnd c
  if comment.any isControl then .error .grammar
  else .ok (comment, text.drop comment.length)

/- The end of a line, if it comes next. -/
def readLineEnd : Text → Text × Text
  | '\r' :: '\n' :: rest => (['\r', '\n'], rest)
  | '\n' :: rest => (['\n'], rest)
  | '\r' :: rest => (['\r'], rest)
  | text => ([], text)

/- What stands after a statement, up to the end of its line. -/
def readTrail
    (indent : Text)
    (text : Text) : Except LayoutFault (Margin × Text) :=
  let gap :=
    text.takeWhile fun c => isSpace c || c == '\r'
  let rest := text.drop gap.length
  match rest with
  | [] =>
    .ok ({ indent, gap := [], comment := [], trail := gap },
      [])
  | '\n' :: rest =>
    .ok
      ({ indent, gap := [], comment := []
         trail := gap ++ ['\n'] }, rest)
  | '#' :: _ => do
    let (comment, rest) ← readComment rest
    let (trail, rest) := readLineEnd rest
    return ({ indent, gap, comment, trail }, rest)
  | _ => .error .grammar

------------------------------------------------------------
-- Arrays
------------------------------------------------------------

/- A part of an array as it is read. -/
inductive Piece
  | blank (text : Text)
  | comment (text : Text)
  | comma
  | item (item : Item)
deriving Repr

/- The slot of a group that a comma or comment takes. -/
def Slot.taken : Slot → Slot
  | .none => .vacant
  | slot => slot

/- One more part of an array: the groups done, and the last. -/
def addPiece :
    List Group × Group →
    Piece →
    List Group × Group
  | (groups, last), .blank text =>
    (last :: groups, { Group.empty with indent := some text })
  | (groups, last), .comment text =>
    (groups,
      { last with
        slot := last.slot.taken, comment := some text })
  | (groups, last), .comma =>
    (groups,
      { last with slot := last.slot.taken, comma := true })
  | (groups, last), .item found =>
    match last.slot with
    | .none => (groups, { last with slot := .item found })
    | _ =>
      (last :: groups,
        { Group.empty with slot := .item found })

/- The groups that the parts of an array make. -/
def groupsOf (pieces : List Piece) : List Group :=
  let (groups, last) := pieces.foldl addPiece ([], .empty)
  (last :: groups).reverse.filter Group.isPresent

------------------------------------------------------------
-- Values
------------------------------------------------------------

/- What was read of a value: blanks after it may be its own. -/
structure Reading (α : Type) where
  found : α
  gap : Text
  rest : Text

/- A value with its spelling and no blanks of its own. -/
def plainCell
    (text rest : Text)
    (value : Toml) : Reading Cell :=
  { found := .plain { spelled := consumed text rest, value }
    gap := []
    rest }

/-
  A value that begins with a date: the text up to the next
  delimiter other than a blank has to be a time, if there is
  any, and the blanks at its end belong to the value.
-/
def readDated
    (raw rest : Text)
    (day : Date) : Except LayoutFault (Reading Cell) :=
  let extra :=
    rest.takeWhile fun c => c == ' ' || !isDelimiter c
  let clock := Text.dropRightWhile (· == ' ') extra
  let gap := extra.drop clock.length
  let after := rest.drop extra.length
  if clock.isEmpty then
    .ok
      { found := .plain { spelled := raw, value := .date day }
        gap, rest := after }
  else
    match looseMoment? (raw ++ clock) with
    | some value =>
      .ok
        { found := .plain { spelled := raw ++ clock, value }
          gap, rest := after }
    | none => .error .grammar

/- A number, a date or a time. -/
def readNumeric
    (text : Text) : Except LayoutFault (Reading Cell) :=
  let raw := text.takeWhile fun c => !isDelimiter c
  let rest := text.drop raw.length
  match looseDate? raw with
  | some day => readDated raw rest day
  | none =>
    match (looseMoment? raw).or (looseNumber? raw) with
    | some value => .ok (plainCell text rest value)
    | none => .error .grammar

/- The text begins with the word and then ends a number. -/
def beginsWord (word text : Text) : Bool :=
  (text.takeWhile fun c => !isDelimiter c) == word

/- A value that is no array and no inline table. -/
def readPlain
    (text : Text) : Except LayoutFault (Reading Cell) :=
  match looseString? text with
  | some reading => do
    let (content, rest) ← ofScalar reading
    return plainCell text rest (.string content)
  | none =>
    match text with
    | 't' :: 'r' :: 'u' :: 'e' :: rest =>
      .ok (plainCell text rest (.bool true))
    | 'f' :: 'a' :: 'l' :: 's' :: 'e' :: rest =>
      .ok (plainCell text rest (.bool false))
    | c :: _ =>
      if c == '+' || c == '-' || Text.isDigit c ||
          beginsWord "inf" text || beginsWord "nan" text then
        readNumeric text
      else
        .error .grammar
    | [] => .error .grammar

/- Two keys of a table cannot both be there. -/
def keysClash (left right : List Label) : Bool :=
  let a := left.map Label.name
  let b := right.map Label.name
  a.isPrefixOf b || b.isPrefixOf a

/- A key clashes with the key of another member. -/
def memberClash
    (members : List Member)
    (labels : List Label) : Bool :=
  members.any fun member =>
    match member with
    | .blank _ => false
    | .pair others _ _ _ => keysClash others labels

/- Blanks as a part of an inline table, if there are any. -/
def blankMember (text : Text) : List Member :=
  let blank := text.takeWhile isSpace
  if blank.isEmpty then [] else [.blank blank]

mutual

/- A value, with at most `fuel` values and parts to read. -/
def readValue :
    (fuel : Nat) →
    Text →
    Except LayoutFault (Reading Value)
  | 0, _ => .error .grammar
  | fuel + 1, text =>
    match text with
    | '[' :: rest => do
      let (pieces, rest) ← readPieces fuel false rest
      let found := Value.cell (.array (groupsOf pieces))
      return { found, gap := [], rest }
    | '\x7b' :: rest => do
      let (members, rest) ← readMembers fuel [] none rest
      return { found := .inline members, gap := [], rest }
    | _ => do
      let reading ← readPlain text
      let found := Value.cell reading.found
      return { reading with found }

/- The parts of an array up to its closing bracket. -/
def readPieces :
    (fuel : Nat) →
    (afterItem : Bool) →
    Text →
    Except LayoutFault (List Piece × Text)
  | 0, _, _ => .error .grammar
  | fuel + 1, afterItem, text => do
    let blank := text.takeWhile isLayout
    let rest := text.drop blank.length
    let add
        (piece : Piece)
        (afterItem : Bool)
        (rest : Text) := do
      let (pieces, rest) ← readPieces fuel afterItem rest
      return (piece :: pieces, rest)
    if blank.any isLineEnd then
      add (.blank blank) afterItem rest
    else if rest.head? == some '#' then
      let (comment, rest) ← readComment rest
      add (.comment (blank ++ comment)) afterItem rest
    else if !blank.isEmpty then
      add (.blank blank) afterItem rest
    else
      match rest with
      | ']' :: rest => return ([], rest)
      | ',' :: rest =>
        if afterItem then add .comma false rest
        else throw .grammar
      | _ =>
        if afterItem then
          throw .grammar
        else
          let reading ← readValue fuel rest
          let item : Item :=
            { spelled := reading.found.render
              value := reading.found.value }
          add (.item item) true reading.rest

/-
  The parts of an inline table up to its closing brace. It is
  known whether a comma came last, if a member came before.
-/
def readMembers :
    (fuel : Nat) →
    List Member →
    (afterComma : Option Bool) →
    Text →
    Except LayoutFault (List Member × Text)
  | 0, _, _, _ => .error .grammar
  | fuel + 1, members, afterComma, text => do
    let members := members ++ blankMember text
    match text.dropWhile isSpace with
    | '\x7d' :: rest =>
      if afterComma = some true then throw .grammar
      else return (members, rest)
    | rest =>
      if afterComma = some false then throw .grammar
      let (labels, rest) ← readKeyLabels rest
      let (separator, rest) ← readSeparator rest
      let reading ← readValue fuel rest
      if memberClash members labels then
        throw (.inTable .repeatedKey)
      let cell :=
        match reading.found with
        | .cell cell => cell
        | .inline inner =>
          .plain
            { spelled := (Value.inline inner).render
              value := .table (membersTable inner) }
      let members :=
        members ++ [.pair labels [] separator cell] ++
          blankMember reading.rest
      match reading.rest.dropWhile isSpace with
      | ',' :: rest =>
        readMembers fuel members (some true) rest
      | rest => readMembers fuel members (some false) rest

end

------------------------------------------------------------
-- Statements
------------------------------------------------------------

/- A statement of a document. -/
inductive Statement
  | blank (text : Text)
  | comment (margin : Margin)
  | pair
      (labels : List Label)
      (separator : Text)
      (value : Value)
      (margin : Margin)
  | header
      (isElement : Bool)
      (labels : List Label)
      (margin : Margin)
  | broken (fault : LayoutFault)
deriving Repr

/- A key and its value, from the blanks before it on. -/
def readPair
    (text : Text) : Except LayoutFault (Statement × Text) := do
  let indent := text.takeWhile isSpace
  let (labels, rest) ← readKeyLabels (text.drop indent.length)
  let (separator, rest) ← readSeparator rest
  let reading ← readValue (2 * rest.length + 2) rest
  let (margin, rest) ← readTrail indent reading.rest
  let margin :=
    if reading.gap.isEmpty then margin
    else { margin with gap := reading.gap }
  return (.pair labels separator reading.found margin, rest)

/- A header, after the blanks before it. -/
def readHeader
    (indent text : Text) :
    Except LayoutFault (Statement × Text) := do
  let (isElement, rest) :=
    match text with
    | '[' :: '[' :: rest => (true, rest)
    | _ => (false, text.drop 1)
  let (labels, rest) ← readKeyLabels rest
  match rest with
  | ']' :: rest =>
    let rest := if isElement then rest.drop 1 else rest
    let (margin, rest) ← readTrail indent rest
    return (.header isElement labels margin, rest)
  | _ => throw .grammar

/- The next statement of a text that is not empty. -/
def readStatement
    (text : Text) : Except LayoutFault (Statement × Text) :=
  let blank :=
    text.takeWhile fun c => isSpace c || c == '\r'
  let rest := text.drop blank.length
  match rest with
  | [] => .ok (.blank blank, [])
  | '\n' :: rest => .ok (.blank (blank ++ ['\n']), rest)
  | '#' :: _ => do
    let (margin, rest) ← readTrail blank rest
    return (.comment margin, rest)
  | '[' :: _ => readHeader blank rest
  | _ => readPair text

/- The statements of a text, at most `fuel` of them. -/
def statementsFrom : (fuel : Nat) → Text → List Statement
  | 0, _ => []
  | _, [] => []
  | fuel + 1, text =>
    match readStatement text with
    | .error fault => [.broken fault]
    | .ok (statement, rest) =>
      statement :: statementsFrom fuel rest

/- The statements of a text. -/
def statements (text : Text) : List Statement :=
  statementsFrom (text.length + 1) text

end Layout

end Toml

end ScriptWorkspace
