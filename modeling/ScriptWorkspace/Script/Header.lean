import ScriptWorkspace.Script.Line

/-
  The header of a script and its documentation comment.

  The header comes after an optional interpreter line. It is
  made of documentation lines, blank lines, plain comments,
  block comments and inner attributes, and ends at the first
  line of any other kind. The contents of its documentation
  lines, each followed by a line feed, are the body of the
  documentation comment.

  Key definitions include:
    * `isInterpreterLine`
    * `commentDepth`
    * `bracketDepth`
    * `HeaderState`
    * `HeaderState.step`
    * `HeaderFault`
    * `Source`
    * `Source.ofText`
    * `Source.body`
    * `Source.bodyOffsets`
    * `Source.docIndexAt?`
-/

namespace ScriptWorkspace

namespace Script

------------------------------------------------------------
-- Kinds Of Lines
------------------------------------------------------------

/-
  The line names an interpreter. A number sign, exclamation
  mark and opening bracket begin an attribute instead.
-/
def isInterpreterLine (line : Text) : Bool :=
  match Text.stripPrefix? ['#', '!'] line with
  | none => false
  | some rest => !rest.stripLeft.startsWith ['[']

/-
  The line begins a plain comment. Three slashes document
  the item that follows; two, or four and more, do not.
-/
def isPlainComment (text : Text) : Bool :=
  text.startsWith ['/', '/'] &&
    (!text.startsWith ['/', '/', '/'] ||
      text.startsWith ['/', '/', '/', '/'])

------------------------------------------------------------
-- Nesting
------------------------------------------------------------

/-
  How many block comments are open after a line. Nothing is
  read after the point where the last one closes.
-/
def commentDepth : Text → Nat → Nat
  | [], depth => depth
  | '/' :: '*' :: rest, depth =>
    commentDepth rest (depth + 1)
  | '*' :: '/' :: rest, depth + 1 =>
    if depth = 0 then 0 else commentDepth rest depth
  | _ :: rest, depth => commentDepth rest depth

/- Where the scan of an attribute stands in a line. -/
inductive Literal
  | outside
  | inside
  | escaped
deriving DecidableEq, Repr

/-
  How many brackets are open after a line. Brackets inside
  string literals do not count, and nothing is read after
  the point where the last one closes.
-/
def bracketDepthFrom : Literal → Text → Nat → Nat
  | _, [], depth => depth
  | .escaped, _ :: rest, depth =>
    bracketDepthFrom .inside rest depth
  | .inside, c :: rest, depth =>
    if c = '\\' then
      bracketDepthFrom .escaped rest depth
    else if c = '"' then
      bracketDepthFrom .outside rest depth
    else
      bracketDepthFrom .inside rest depth
  | .outside, c :: rest, depth =>
    if c = '"' then
      bracketDepthFrom .inside rest depth
    else if c = '[' then
      bracketDepthFrom .outside rest (depth + 1)
    else if c = ']' then
      if depth ≤ 1 then 0
      else bracketDepthFrom .outside rest (depth - 1)
    else
      bracketDepthFrom .outside rest depth

/- How many brackets are open after a line. -/
def bracketDepth (text : Text) (depth : Nat) : Nat :=
  bracketDepthFrom .outside text depth

------------------------------------------------------------
-- The Scan
------------------------------------------------------------

/-
  What a line of the source belongs to: the header, a block
  comment or an attribute that an earlier line opened, or
  the code after the header.
-/
inductive HeaderState
  | header
  | comment (depth openedAt : Nat)
  | attribute (depth openedAt : Nat)
  | code
deriving DecidableEq, Repr

namespace HeaderState

/- Inside a comment that an earlier line opened, if any. -/
def ofCommentDepth (depth openedAt : Nat) : HeaderState :=
  if depth = 0 then .header else .comment depth openedAt

/- Inside an attribute that an earlier line opened, if any. -/
def ofBracketDepth (depth openedAt : Nat) : HeaderState :=
  if depth = 0 then .header else .attribute depth openedAt

/-
  Read the line of a given index: the state after it and,
  for a documentation line, its parts.
-/
def step
    (state : HeaderState)
    (index : Nat)
    (text : Text) :
    HeaderState × Option DocText :=
  match state with
  | .code => (.code, none)
  | .comment depth openedAt =>
    (ofCommentDepth (commentDepth text depth) openedAt, none)
  | .attribute depth openedAt =>
    (ofBracketDepth (bracketDepth text depth) openedAt, none)
  | .header =>
    let bare := text.stripLeft
    match DocText.ofLine? text with
    | some doc => (.header, some doc)
    | none =>
      if bare.isEmpty || isPlainComment bare then
        (.header, none)
      else if bare.startsWith ['/', '*'] then
        (ofCommentDepth (commentDepth bare 0) index, none)
      else if bare.startsWith ['#', '!', '['] then
        (ofBracketDepth
          (bracketDepth (bare.drop 2) 0) index, none)
      else
        (.code, none)

end HeaderState

/- Read lines in order, marking the documentation lines. -/
def scanLines :
    HeaderState →
    (index : Nat) →
    List Line →
    List Line × HeaderState
  | state, _, [] => ([], state)
  | state, index, line :: lines =>
    let (next, doc) := state.step index line.text
    let (marked, last) := scanLines next (index + 1) lines
    ({ line with doc } :: marked, last)

------------------------------------------------------------
-- Sources
------------------------------------------------------------

/- What the header of a source leaves open. -/
inductive HeaderOpening
  | blockComment
  | innerAttribute
deriving DecidableEq, Repr

/- The wording for what is left open. -/
def HeaderOpening.message : HeaderOpening → Text
  | .blockComment => "unterminated block comment"
  | .innerAttribute => "unterminated inner attribute"

/- A header that is not closed, and the line that opens it. -/
structure HeaderFault where
  opening : HeaderOpening
  lineNumber : Nat
  line : Text
deriving DecidableEq, Repr

/- A message with the line that it is about. -/
def aboutLine
    (message : Text)
    (lineNumber : Nat)
    (line : Text) : Text :=
  message ++ "\n  --> line " ++ Text.ofNat lineNumber ++
    ": " ++ line

/- The wording for a header that is not closed. -/
def HeaderFault.message (fault : HeaderFault) : Text :=
  aboutLine fault.opening.message fault.lineNumber fault.line

/- A source as its lines, with the header read. -/
structure Source where
  lines : List Line
  shebang : Bool
deriving DecidableEq, Repr

namespace Source

/- The fault that a line leaves open at the end. -/
def faultAt
    (opening : HeaderOpening)
    (lines : List Line)
    (index : Nat) : HeaderFault :=
  { opening
    lineNumber := index + 1
    line := ((lines[index]?).map Line.text).getD [] }

/-
  Read a source: its first line may name an interpreter, and
  the header begins after that.
-/
def ofText (text : Text) : Except HeaderFault Source :=
  let lines := Line.splitText text
  let shebang :=
    match lines with
    | [] => false
    | first :: _ => isInterpreterLine first.text
  let skipped := if shebang then 1 else 0
  let (marked, last) :=
    scanLines .header skipped (lines.drop skipped)
  match last with
  | .comment _ openedAt =>
    .error (faultAt .blockComment lines openedAt)
  | .attribute _ openedAt =>
    .error (faultAt .innerAttribute lines openedAt)
  | _ =>
    .ok { lines := lines.take skipped ++ marked, shebang }

/- The source as it was read. -/
def render (source : Source) : Text :=
  source.lines.flatMap Line.raw

/- The indices of the documentation lines from one on. -/
def docIndicesFrom : (index : Nat) → List Line → List Nat
  | _, [] => []
  | index, line :: lines =>
    if line.isDoc then
      index :: docIndicesFrom (index + 1) lines
    else
      docIndicesFrom (index + 1) lines

/- The indices of the documentation lines. -/
def docIndices (source : Source) : List Nat :=
  docIndicesFrom 0 source.lines

/- The contents of the documentation lines. -/
def docContents (source : Source) : List Text :=
  source.lines.filterMap fun line =>
    line.doc.map DocText.content

/- The body of the documentation comment. -/
def body (source : Source) : Text :=
  source.docContents.flatMap (· ++ ['\n'])

/- Running offsets of contents that a line feed follows. -/
def offsetsFrom : (offset : Nat) → List Text → List Nat
  | offset, [] => [offset]
  | offset, content :: contents =>
    offset ::
      offsetsFrom (offset + content.length + 1) contents

/-
  The offset in the body of each documentation line, and
  then the length of the body.
-/
def bodyOffsets (source : Source) : List Nat :=
  offsetsFrom 0 source.docContents

/- The documentation line that begins at a body offset. -/
def docIndexAt?
    (source : Source)
    (offset : Int) : Option Nat :=
  source.bodyOffsets.findIdx? fun (n : Nat) =>
    offset == Int.ofNat n

/- The wording for an offset at which no line begins. -/
def notAtBoundary (offset : Int) : Text :=
  ("offset " : Text) ++ Text.ofInt offset ++
    " is not at a doc line boundary"

/- The documentation line of a given number. -/
def docLine?
    (source : Source)
    (docIndex : Nat) : Option Line := do
  let index ← source.docIndices[docIndex]?
  source.lines[index]?

end Source

end Script

end ScriptWorkspace
