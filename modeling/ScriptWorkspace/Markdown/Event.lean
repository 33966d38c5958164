import ScriptWorkspace.Markdown.Block

/-
  The events of a document and the search for a fenced block.

  A top level fence makes a start, a text for its content if
  there is any, and an end. Any other run of text makes a
  text. Each event covers a range of offsets of the document.

  The search runs through the events once: it waits for the
  start of a fence with the wanted info, then for a text, and
  then for the end of a fence with that info.

  Key definitions include:
    * `EventKind`
    * `Event`
    * `Block.events`
    * `events`
    * `Search`
    * `locate?`
-/

namespace ScriptWorkspace

namespace Markdown

------------------------------------------------------------
-- Events
------------------------------------------------------------

/- What an event announces. -/
inductive EventKind
  | start
  | text
  | finish
deriving DecidableEq, Repr

/- A range of offsets, its end excluded. -/
structure Span where
  start : Nat
  stop : Nat
deriving DecidableEq, Repr

/- An event, with the info of its fence if it has one. -/
structure Event where
  kind : EventKind
  info : Text
  span : Span
deriving DecidableEq, Repr

/- The offset at which a line begins, or the length. -/
def lineOffset (lines : List Text) (line : Nat) : Nat :=
  ((lines.take line).map List.length).foldr (· + ·) 0

/- The offsets of a range of lines. -/
def lineSpan
    (lines : List Text)
    (first stop : Nat) : Span :=
  { start := lineOffset lines first
    stop := lineOffset lines stop }

/-
  The line after the content of a fence. The content is taken
  to end before the last line if it has two line feeds less
  than the fence has lines.
-/
def Fence.textStop (fence : Fence) : Nat :=
  if fence.first + fence.lineFeeds + 2 = fence.stop then
    fence.stop - 1
  else
    fence.stop

/- The events of a top level fence. -/
def Fence.events
    (lines : List Text)
    (fence : Fence) : List Event :=
  let info := Text.strip fence.info
  let opened : Event :=
    { kind := .start, info
      span := lineSpan lines fence.first (fence.first + 1) }
  let content : Event :=
    { kind := .text, info
      span :=
        lineSpan lines (fence.first + 1) fence.textStop }
  let closed : Event :=
    { kind := .finish, info
      span := lineSpan lines fence.textStop fence.stop }
  if fence.first + 1 < fence.contentStop then
    [opened, content, closed]
  else
    [opened, closed]

/- The event of a run of text. -/
def textEvent
    (lines : List Text)
    (first stop : Nat) : Event :=
  { kind := .text, info := []
    span := lineSpan lines first stop }

mutual

/- The events of a block inside a container. -/
def Block.innerEvents
    (lines : List Text) :
    Block → List Event
  | .fence fenced =>
    [textEvent lines fenced.first fenced.stop]
  | .text first stop => [textEvent lines first stop]
  | .container blocks => innerEventsOf lines blocks

/- The events of blocks inside a container. -/
def innerEventsOf
    (lines : List Text) :
    List Block → List Event
  | [] => []
  | block :: blocks =>
    block.innerEvents lines ++ innerEventsOf lines blocks

end

/- The events of a block of the document. -/
def Block.events
    (lines : List Text) :
    Block → List Event
  | .fence fenced => fenced.events lines
  | block => block.innerEvents lines

/-
  The text that the block structure is read from: a carriage
  return counts as a blank.
-/
def plainText (text : Text) : Text :=
  Text.replaceChar '\x00' '\ufffd'
    (Text.replaceChar '\r' ' ' text)

/- The events of a document in order. -/
def events (text : Text) : List Event :=
  (blocks (plainText text)).flatMap
    (Block.events text.rawLines)

------------------------------------------------------------
-- Search
------------------------------------------------------------

/- How far the search for a fenced block has come. -/
inductive Search
  | waiting
  | opened
  | found (span : Span)
  | closed (span : Span)
deriving DecidableEq, Repr

/- One event of the search; others leave it where it is. -/
def Search.step
    (info : Text)
    (search : Search)
    (event : Event) : Search :=
  match search, event.kind with
  | .waiting, .start =>
    if event.info = info then .opened else .waiting
  | .opened, .text => .found event.span
  | .found span, .finish =>
    if event.info = info then .closed span else .found span
  | search, _ => search

/- The content of the first fenced block with an info. -/
def locate? (info text : Text) : Option Span :=
  match (events text).foldl (Search.step info) .waiting with
  | .closed span => some span
  | _ => none

end Markdown

end ScriptWorkspace
