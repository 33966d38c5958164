import ScriptWorkspace.Toml.Draft
import ScriptWorkspace.Toml.Scalar

/-
  Reading a TOML document.

  A document is a list of statements, one a line: a header of
  a table, a header of an element of an array of tables, or a
  key with its value. The statements fill a draft in order.

  Key definitions include:
    * `Toml.readKey`
    * `Toml.readValue`
    * `Toml.readStatements`
    * `Toml.parse`
-/

namespace ScriptWorkspace

namespace Toml

------------------------------------------------------------
-- Comments And Keys
------------------------------------------------------------

/- The text without blanks in front. -/
def skipSpaces (text : Text) : Text :=
  text.dropWhile isSpace

/- The text after a comment, if one comes next. -/
def skipComment : Text → Except Fault Text
  | '#' :: rest =>
    let comment := rest.takeWhile (· != '\n')
    if comment.any isControl then .error .grammar
    else .ok (rest.drop comment.length)
  | text => .ok text

/- The text after blanks, line ends and comments. -/
def skipLayout : (fuel : Nat) → Text → Except Fault Text
  | 0, text => .ok text
  | fuel + 1, text =>
    match text.dropWhile isSpaceOrNewline with
    | '#' :: rest => do
      skipLayout fuel (← skipComment ('#' :: rest))
    | rest => .ok rest

/- One name of a key. -/
def readKeyName (text : Text) : Except Fault (Text × Text) :=
  match readShortString? text with
  | some reading => reading
  | none =>
    let name := text.takeWhile isBareKeyChar
    if name.isEmpty then .error .grammar
    else .ok (name, text.drop name.length)

/- The names of a key, and the text after the blanks. -/
def readKey : (fuel : Nat) → Text → Except Fault (Key × Text)
  | 0, _ => .error .grammar
  | fuel + 1, text => do
    let (name, rest) ← readKeyName text
    match skipSpaces rest with
    | '.' :: rest =>
      let (names, rest) ← readKey fuel (skipSpaces rest)
      return (name :: names, rest)
    | rest => return ([name], rest)

/- A key, from its first name on. -/
def readWholeKey (text : Text) : Except Fault (Key × Text) :=
  readKey (text.length + 1) text

------------------------------------------------------------
-- Values
------------------------------------------------------------

/- A value that has no values inside. -/
def readScalar (text : Text) : Except Fault (Toml × Text) :=
  match readString? text with
  | some reading =>
    reading.map fun (content, rest) =>
      (.string content, rest)
  | none =>
    match Text.stripPrefix? ['t', 'r', 'u', 'e'] text with
    | some rest => .ok (.bool true, rest)
    | none =>
      match
        Text.stripPrefix? ['f', 'a', 'l', 's', 'e'] text with
      | some rest => .ok (.bool false, rest)
      | none =>
        ((readMoment? text).or (readNumber? text)).getD
          (.error .grammar)

mutual

/- A value, with at most `fuel` values and items to read. -/
def readValue : (fuel : Nat) → Text → Except Fault (Toml × Text)
  | 0, _ => .error .grammar
  | fuel + 1, text =>
    match text with
    | '[' :: rest => do
      let rest ← skipLayout rest.length rest
      let (items, rest) ← readItems fuel rest
      return (.array items, rest)
    | '\x7b' :: rest =>
      match skipSpaces rest with
      | '\x7d' :: rest => .ok (.table [], rest)
      | rest => do
        let (members, rest) ← readMembers fuel [] [] rest
        return (.table members, rest)
    | _ => readScalar text

/- The items of an array up to its closing bracket. -/
def readItems :
    (fuel : Nat) →
    Text →
    Except Fault (List Toml × Text)
  | 0, _ => .error .grammar
  | fuel + 1, text =>
    match text with
    | ']' :: rest => .ok ([], rest)
    | _ => do
      let (item, rest) ← readValue fuel text
      match ← skipLayout rest.length rest with
      | ']' :: rest => return ([item], rest)
      | ',' :: rest =>
        let rest ← skipLayout rest.length rest
        let (items, rest) ← readItems fuel rest
        return (item :: items, rest)
      | _ => throw .grammar

/- The members of an inline table from the first one on. -/
def readMembers :
    (fuel : Nat) →
    (complete : List Key) →
    Table →
    Text →
    Except Fault (Table × Text)
  | 0, _, _, _ => .error .grammar
  | fuel + 1, complete, members, text => do
    let (key, rest) ← readWholeKey text
    match rest with
    | '=' :: rest =>
      let (value, rest) ← readValue fuel (skipSpaces rest)
      match insertInline? complete members key value with
      | none => throw .grammar
      | some members =>
        match skipSpaces rest with
        | '\x7d' :: rest => return (members, rest)
        | ',' :: rest =>
          let complete :=
            if value.isComposite then key :: complete
            else complete
          readMembers fuel complete members (skipSpaces rest)
        | _ => throw .grammar
    | _ => throw .grammar

end

/- A value, from its first character on. -/
def readWholeValue (text : Text) : Except Fault (Toml × Text) :=
  readValue (2 * text.length + 2) text

------------------------------------------------------------
-- Statements
------------------------------------------------------------

/- A step of a draft, or a fault where it is not allowed. -/
def allowed (draft : Option Draft) : Except Fault Draft :=
  match draft with
  | some draft => .ok draft
  | none => .error .grammar

/- The header of an element, after its opening brackets. -/
def readElementHeader
    (draft : Draft)
    (text : Text) : Except Fault (Draft × Text) := do
  let (key, rest) ← readWholeKey (skipSpaces text)
  let draft ← allowed (draft.declareElement? key)
  match rest with
  | ']' :: ']' :: rest => return (draft, rest)
  | _ => throw .grammar

/- The header of a table, after its opening bracket. -/
def readHeader
    (draft : Draft)
    (text : Text) : Except Fault (Draft × Text) := do
  let (key, rest) ← readWholeKey (skipSpaces text)
  let draft ← allowed (draft.declare? key)
  match rest with
  | ']' :: rest => return (draft, rest)
  | _ => throw .grammar

/- A key with its value. -/
def readAssignment
    (draft : Draft)
    (text : Text) : Except Fault (Draft × Text) := do
  let (key, rest) ← readWholeKey text
  match rest with
  | '=' :: rest =>
    let (value, rest) ← readWholeValue (skipSpaces rest)
    return (← allowed (draft.assign? key value), rest)
  | _ => throw .grammar

/- The statement of a line, if there is one on it. -/
def readStatement
    (draft : Draft)
    (text : Text) : Except Fault (Draft × Text) :=
  match text with
  | [] => .ok (draft, [])
  | '\n' :: _ => .ok (draft, text)
  | '#' :: _ => .ok (draft, text)
  | '[' :: '[' :: rest => readElementHeader draft rest
  | '[' :: rest => readHeader draft rest
  | _ => readAssignment draft text

/- All lines of a document. -/
def readStatements :
    (fuel : Nat) →
    Draft →
    Text →
    Except Fault Table
  | 0, draft, _ => .ok draft.members
  | fuel + 1, draft, text => do
    let (draft, rest) ← readStatement draft (skipSpaces text)
    match ← skipComment (skipSpaces rest) with
    | [] => return draft.members
    | '\n' :: rest => readStatements fuel draft rest
    | _ => throw .grammar

/- A carriage return and line feed as one line feed. -/
def joinLineEnds : Text → Text
  | [] => []
  | '\r' :: '\n' :: rest => '\n' :: joinLineEnds rest
  | c :: rest => c :: joinLineEnds rest

/- The table that a document describes. -/
def parse (text : Text) : Except Fault Table :=
  let text := joinLineEnds text
  readStatements (text.length + 1) .empty text

end Toml

end ScriptWorkspace
