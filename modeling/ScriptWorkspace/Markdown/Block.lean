import ScriptWorkspace.Markdown.Html
import ScriptWorkspace.Markdown.Reference
import ScriptWorkspace.Markdown.Table

/-
  The block structure of a document.

  A document is read row by row. At each row the kinds of
  blocks are tried in a fixed order: table, indented code,
  fence, quotation, break, list, reference definition, HTML
  block, heading, underlined heading, paragraph. Quotations
  and list items hold blocks of their own; below twenty
  containers nothing is read any more.

  Blocks that carry no text of their own (breaks, reference
  definitions, HTML blocks) leave nothing behind.

  Key definitions include:
    * `Fence`
    * `Block`
    * `BlockReader`
    * `Frame.interrupts`
    * `readBlock`
    * `readBlocks`
    * `readerAt`
    * `blocks`
-/

namespace ScriptWorkspace

namespace Markdown

------------------------------------------------------------
-- Blocks
------------------------------------------------------------

/-
  A fenced block from the row of its opening up to, and
  without, the row `stop`. `lineFeeds` counts the rows of its
  content that a line feed ends.
-/
structure Fence where
  info : Text
  first : Nat
  stop : Nat
  contentStop : Nat
  lineFeeds : Nat
deriving DecidableEq, Repr

/-
  A fence, a run of text from a row up to another one, or a
  container.
-/
inductive Block
  | fence (fence : Fence)
  | text (first stop : Nat)
  | container (blocks : List Block)
deriving Repr

/-
  A reader of the blocks of a frame from a row up to another
  one. It answers with the row that it reached.
-/
abbrev BlockReader :=
  Frame → Nat → Nat → List Block × Nat

------------------------------------------------------------
-- Openings
------------------------------------------------------------

/- What opens a fence: its mark, its length and its info. -/
structure FenceOpening where
  mark : Char
  length : Nat
  info : Text
deriving DecidableEq, Repr

/-
  The fence that a text opens. Behind backticks there can be
  no other backtick.
-/
def FenceOpening.ofText? :
    Text → Option FenceOpening
  | [] => none
  | mark :: rest =>
    let length := 1 + (rest.takeWhile (· == mark)).length
    let info := rest.drop (length - 1)
    if mark ≠ '`' ∧ mark ≠ '~' then none
    else if length < 3 then none
    else if mark = '`' ∧ info.any (· == '`') then none
    else some { mark, length, info }

/- The text closes a fence. -/
def FenceOpening.closedBy
    (opening : FenceOpening)
    (text : Text) : Bool :=
  let run := (text.takeWhile (· == opening.mark)).length
  opening.length ≤ run &&
    (text.drop run).all isSpaceOrTab

/- Three or more equal marks and blanks between them. -/
def isBreak : Text → Bool
  | [] => false
  | mark :: rest =>
    (mark == '*' || mark == '-' || mark == '_') &&
      (rest.all fun c => c == mark || isSpaceOrTab c) &&
      decide (2 ≤ (rest.filter (· == mark)).length)

/- One to six number signs and then a blank or nothing. -/
def isHeading (text : Text) : Bool :=
  let level := (text.takeWhile (· == '#')).length
  decide (1 ≤ level ∧ level ≤ 6) &&
    (match text.drop level with
    | [] => true
    | c :: _ => isSpaceOrTab c)

/- One or more equal marks that underline a heading. -/
def isUnderline : Text → Bool
  | [] => false
  | mark :: rest =>
    (mark == '-' || mark == '=') &&
      (rest.dropWhile (· == mark)).all isSpaceOrTab

/- What opens a list item. -/
structure ItemMarker where
  number : Option Nat
  mark : Char
  width : Nat
deriving DecidableEq, Repr

/- Nothing follows, or a blank. -/
def endsMarker : Text → Bool
  | [] => true
  | c :: _ => isSpaceOrTab c

/- A number of at most nine digits and a mark. -/
def ItemMarker.ordered? (text : Text) : Option ItemMarker :=
  let digits := text.takeWhile Text.isDigit
  match text.drop digits.length with
  | mark :: rest =>
    if digits.isEmpty || digits.length > 9 then none
    else if mark ≠ ')' ∧ mark ≠ '.' then none
    else if endsMarker rest then
      some
        { number := some (Text.numeralValue 10 digits)
          mark
          width := digits.length + 1 }
    else
      none
  | [] => none

/- A star, a dash or a plus sign. -/
def ItemMarker.bullet? : Text → Option ItemMarker
  | [] => none
  | mark :: rest =>
    if mark ≠ '*' ∧ mark ≠ '-' ∧ mark ≠ '+' then none
    else if endsMarker rest then
      some { number := none, mark, width := 1 }
    else
      none

/- The marker of the list item that a text opens. -/
def ItemMarker.ofText? (text : Text) : Option ItemMarker :=
  (ordered? text).or (bullet? text)

namespace Frame

/- The fence that a row opens. -/
def fenceOpening?
    (frame : Frame)
    (line : Nat) : Option FenceOpening :=
  if frame.isCode line then none
  else FenceOpening.ofText? (frame.row line).body

/- The row belongs to a quotation. -/
def opensQuote (frame : Frame) (line : Nat) : Bool :=
  !frame.isCode line &&
    (frame.row line).body.head? == some '>'

/- The row is a break. -/
def opensBreak (frame : Frame) (line : Nat) : Bool :=
  !frame.isCode line && isBreak (frame.row line).body

/- The row is a heading. -/
def opensHeading (frame : Frame) (line : Nat) : Bool :=
  !frame.isCode line && isHeading (frame.row line).body

/- The kind of HTML block that the row begins. -/
def htmlKind?
    (frame : Frame)
    (line : Nat) : Option HtmlKind :=
  if frame.isCode line then none
  else HtmlKind.ofLine? (frame.row line).body

/-
  The marker of the list item that a row opens. A row that is
  far right of the list and still left of its item continues
  a paragraph.
-/
def itemMarker?
    (frame : Frame)
    (line : Nat) : Option ItemMarker :=
  let column := (frame.row line).column
  if frame.isCode line then none
  else if frame.listColumn ≥ 0 ∧
      column - frame.listColumn ≥ 4 ∧
      column < frame.blockColumn then
    none
  else
    ItemMarker.ofText? (frame.row line).body

/-
  The row opens a list in the middle of another block. In a
  paragraph the list must begin with one, and its first item
  with some text.
-/
def opensList
    (frame : Frame)
    (inParagraph : Bool)
    (line : Nat) : Bool :=
  match frame.itemMarker? line with
  | none => false
  | some marker =>
    if inParagraph && !frame.isOutdented line then
      (marker.number.isNone || marker.number == some 1) &&
        !((frame.row line).body.drop marker.width).all
          isSpaceOrTab
    else
      true

------------------------------------------------------------
-- Interruptions
------------------------------------------------------------

/- The row ends a list before it. -/
def endsList (frame : Frame) (line : Nat) : Bool :=
  (frame.fenceOpening? line).isSome ||
    frame.opensQuote line || frame.opensBreak line

/- The row ends a quotation or a table before it. -/
def endsQuote (frame : Frame) (line : Nat) : Bool :=
  frame.endsList line || frame.opensList false line ||
    (frame.htmlKind? line).any HtmlKind.interrupts ||
    frame.opensHeading line

/- The row ends a paragraph, or a run of definitions. -/
def interrupts
    (frame : Frame)
    (inParagraph : Bool)
    (line stop : Nat) : Bool :=
  (frame.tableColumns? line stop).isSome ||
    frame.endsList line ||
    frame.opensList inParagraph line ||
    (frame.htmlKind? line).any HtmlKind.interrupts ||
    frame.opensHeading line

/-
  The row belongs to the paragraph before it, whatever it
  holds: it is indented as code would be, or marked as a
  continuation.
-/
def continues (frame : Frame) (line : Nat) : Bool :=
  frame.isCode line ||
    decide ((frame.row line).column < 0)

/- The row after a paragraph that goes on at a row. -/
def paragraphStop
    (frame : Frame)
    (inParagraph : Bool) :
    (fuel : Nat) →
    (line : Nat) →
    Nat
  | 0, line => line
  | fuel + 1, line =>
    if line ≥ frame.limit || frame.isEmpty line then line
    else if !frame.continues line &&
        frame.interrupts inParagraph line frame.limit then
      line
    else
      paragraphStop frame inParagraph fuel (line + 1)

/-
  The row that underlines the heading whose text goes on at a
  row.
-/
def underline?
    (frame : Frame)
    (stop : Nat) :
    (fuel : Nat) →
    (line : Nat) →
    Option Nat
  | 0, _ => none
  | fuel + 1, line =>
    if line ≥ stop || frame.isEmpty line then none
    else if frame.isCode line then
      underline? frame stop fuel (line + 1)
    else if !frame.isOutdented line &&
        isUnderline (frame.row line).body then
      some line
    else if (frame.row line).column < 0 then
      underline? frame stop fuel (line + 1)
    else if frame.interrupts true line stop then
      none
    else
      underline? frame stop fuel (line + 1)

------------------------------------------------------------
-- Blocks Without Containers
------------------------------------------------------------

/- The row after a run of indented code. -/
def codeStop
    (frame : Frame)
    (stop : Nat) :
    (fuel : Nat) →
    (line last : Nat) →
    Nat
  | 0, _, last => last
  | fuel + 1, line, last =>
    if line ≥ stop then last
    else if frame.isEmpty line then
      codeStop frame stop fuel (line + 1) last
    else if frame.isCode line then
      codeStop frame stop fuel (line + 1) (line + 1)
    else
      last

/-
  The row after the content of a fence, and whether that row
  closes the fence. A row left of the container ends it too.
-/
def fenceStop
    (frame : Frame)
    (opening : FenceOpening)
    (stop : Nat) :
    (fuel : Nat) →
    (line : Nat) →
    Nat × Bool
  | 0, line => (line, false)
  | fuel + 1, line =>
    let row := frame.row line
    if line ≥ stop then (line, false)
    else if !row.isEmpty && frame.isOutdented line then
      (line, false)
    else if !frame.isCode line &&
        opening.closedBy row.body then
      (line, true)
    else
      fenceStop frame opening stop fuel (line + 1)

/- How many rows of a range a line feed ends. -/
def lineFeeds
    (frame : Frame)
    (first stop : Nat) : Nat :=
  ((frame.rows.toList.take stop).drop first).countP
    Row.terminated

/- The fence that a row opens, as a block. -/
def fenceBlock
    (frame : Frame)
    (opening : FenceOpening)
    (line stop : Nat) : Fence :=
  let (contentStop, closed) :=
    frame.fenceStop opening stop (stop - line) (line + 1)
  { info := opening.info
    first := line
    stop := if closed then contentStop + 1 else contentStop
    contentStop
    lineFeeds := frame.lineFeeds (line + 1) contentStop }

/- The row after an HTML block that goes on at a row. -/
def htmlStop
    (frame : Frame)
    (kind : HtmlKind)
    (stop : Nat) :
    (fuel : Nat) →
    (line : Nat) →
    Nat
  | 0, line => line
  | fuel + 1, line =>
    let body := (frame.row line).body
    if line ≥ stop || frame.isOutdented line then line
    else if kind.endsAt body then
      if body.isEmpty then line else line + 1
    else
      htmlStop frame kind stop fuel (line + 1)

/- The row after an HTML block. -/
def htmlBlockStop
    (frame : Frame)
    (kind : HtmlKind)
    (line stop : Nat) : Nat :=
  if kind.endsAt (frame.row line).body then line + 1
  else frame.htmlStop kind stop (stop - line) (line + 1)

/- The body rows of a table: the row after the last one. -/
def tableStop
    (frame : Frame)
    (stop : Nat) :
    (fuel : Nat) →
    (line : Nat) →
    Nat
  | 0, line => line
  | fuel + 1, line =>
    if line ≥ stop || frame.isOutdented line ||
        frame.endsQuote line ||
        (Text.strip (frame.row line).body).isEmpty ||
        frame.isCode line then
      line
    else
      tableStop frame stop fuel (line + 1)

/- The cells of a table, each a run of text. -/
def tableBlocks
    (columns first stop : Nat) : List Block :=
  (List.range' first (stop - first)).flatMap fun line =>
    if line = first + 1 then []
    else List.replicate columns (.text line (line + 1))

/-
  A bracket closes on the row without a colon after it, so
  that no definition begins here.
-/
def closesBracketEarly : Text → Bool
  | [] => false
  | '\\' :: ']' :: rest => closesBracketEarly rest
  | ']' :: rest => rest.head? ≠ some ':'
  | _ :: rest => closesBracketEarly rest

/- The row after the reference definition at a row. -/
def referenceStop?
    (frame : Frame)
    (line : Nat) : Option Nat :=
  let body := (frame.row line).body
  if frame.isCode line then none
  else if body.head? ≠ some '[' then none
  else if closesBracketEarly body then none
  else
    let stop :=
      frame.paragraphStop false (frame.limit - line)
        (line + 1)
    let text := Text.joinWith ['\n']
      ((List.range' line (stop - line)).map fun i =>
        (frame.row i).body)
    (Reference.lineFeeds? (Text.stripRight text)).map
      (line + · + 1)

------------------------------------------------------------
-- Quotations
------------------------------------------------------------

/-
  The rows of a quotation from a row on, without their
  markers: the frame with these rows, the row after them, and
  whether a block of another kind ends the quotation there.
-/
def quoteRows
    (frame : Frame)
    (stop : Nat) :
    (fuel : Nat) →
    (line : Nat) →
    (lastEmpty : Bool) →
    Frame →
    Frame × Nat × Bool
  | 0, line, _, inner => (inner, line, false)
  | fuel + 1, line, lastEmpty, inner =>
    let row := frame.row line
    if line ≥ stop || row.isEmpty then (inner, line, false)
    else if row.body.head? == some '>' &&
        !frame.isOutdented line then
      let stripped := row.unquoted
      quoteRows frame stop fuel (line + 1) stripped.isEmpty
        (inner.setRow line stripped)
    else if lastEmpty then (inner, line, false)
    else if frame.endsQuote line then (inner, line, true)
    else
      quoteRows frame stop fuel (line + 1) lastEmpty
        (inner.setRow line { row with column := -1 })

/- Read the quotation at a row. -/
def readQuote
    (frame : Frame)
    (content : BlockReader)
    (line stop : Nat) : List Block × Nat :=
  let opening := (frame.row line).unquoted
  let (inner, last, ended) :=
    frame.quoteRows stop (stop - line) (line + 1)
      opening.isEmpty (frame.setRow line opening)
  let (blocks, reached) :=
    content
      { inner with
        blockColumn := 0
        limit := if ended then last else frame.limit }
      line last
  ([.container blocks], reached)

------------------------------------------------------------
-- Lists
------------------------------------------------------------

/- Read the list item at a row. -/
def readItem
    (frame : Frame)
    (content : BlockReader)
    (marker : ItemMarker)
    (line stop : Nat) : List Block × Nat :=
  let row := frame.row line
  let after := row.body.drop marker.width
  let initial := row.column + marker.width
  let (blanks, reached) :=
    leadingBlanks row.tabBase initial after
  let isEmpty := (after.drop blanks).isEmpty
  let spaces :=
    if isEmpty || decide (reached - initial > 4) then 1
    else reached - initial
  if isEmpty && frame.isEmpty (line + 1) then
    ([], min (line + 2) stop)
  else
    content
      { frame.setRow line
          { row with
            shift := row.shift + marker.width + blanks
            column := reached } with
        blockColumn := initial + spaces
        listColumn := frame.blockColumn }
      line stop

/- Read list items from a row on. -/
def readItems
    (frame : Frame)
    (content : BlockReader)
    (stop : Nat) :
    (fuel : Nat) →
    (marker : ItemMarker) →
    (line : Nat) →
    List Block × Nat
  | 0, _, line => ([], line)
  | fuel + 1, marker, line =>
    let (blocks, next) :=
      frame.readItem content marker line stop
    if next ≥ stop || frame.isOutdented next ||
        frame.isCode next || frame.endsList next then
      (blocks, next)
    else
      let body := (frame.row next).body
      let following :=
        if marker.number.isSome then ItemMarker.ordered? body
        else ItemMarker.bullet? body
      match following with
      | none => (blocks, next)
      | some following =>
        if following.mark ≠ marker.mark then (blocks, next)
        else
          let (more, reached) :=
            readItems frame content stop fuel following next
          (blocks ++ more, reached)

end Frame

------------------------------------------------------------
-- Reading
------------------------------------------------------------

/-
  Read the block at a row that is not empty. `quoted` reads
  the content of quotations and `listed` that of list items.
-/
def readBlock
    (quoted listed : BlockReader)
    (frame : Frame)
    (line stop : Nat) : List Block × Nat :=
  match frame.tableColumns? line stop with
  | some columns =>
    let last := frame.tableStop stop (stop - line) (line + 2)
    ([.container (Frame.tableBlocks columns line last)], last)
  | none =>
    if frame.isCode line then
      let last :=
        frame.codeStop stop (stop - line) (line + 1)
          (line + 1)
      ([.text line last], last)
    else
      match frame.fenceOpening? line with
      | some opening =>
        let fence := frame.fenceBlock opening line stop
        ([.fence fence], fence.stop)
      | none =>
        if frame.opensQuote line then
          frame.readQuote quoted line stop
        else if frame.opensBreak line then
          ([], line + 1)
        else
          match frame.itemMarker? line with
          | some marker =>
            let (blocks, reached) :=
              frame.readItems listed stop
                (stop - line) marker line
            ([.container blocks], reached)
          | none =>
            match frame.referenceStop? line with
            | some last => ([], last)
            | none =>
              match frame.htmlKind? line with
              | some kind =>
                ([], frame.htmlBlockStop kind line stop)
              | none =>
                if frame.opensHeading line then
                  ([.text line (line + 1)], line + 1)
                else
                  match frame.underline? stop
                      (stop - line) (line + 1) with
                  | some last =>
                    ([.text line last], last + 1)
                  | none =>
                    let last :=
                      frame.paragraphStop true
                        (frame.limit - line) (line + 1)
                    ([.text line last], last)

/-
  Read blocks from a row on, until the rows end or one begins
  left of the container.
-/
def readBlocksFrom
    (quoted listed : BlockReader)
    (frame : Frame)
    (stop : Nat) :
    (fuel : Nat) →
    (line : Nat) →
    List Block × Nat
  | 0, line => ([], line)
  | fuel + 1, line =>
    if line ≥ stop then ([], line)
    else
      let line := frame.skipEmpty line
      if line ≥ stop || frame.isOutdented line then
        ([], line)
      else
        let (blocks, next) :=
          readBlock quoted listed frame line stop
        let next :=
          if next < stop && frame.isEmpty next then next + 1
          else next
        let (more, reached) :=
          readBlocksFrom quoted listed frame stop fuel next
        (blocks ++ more, reached)

/- Read blocks, with readers for what containers hold. -/
def readBlocks
    (quoted listed : BlockReader) : BlockReader :=
  fun frame line stop =>
    readBlocksFrom quoted listed frame stop
      (stop - line + 1) line

/- Skip the content of a container that lies too deep. -/
def skipContent : BlockReader :=
  fun frame line stop =>
    let line := frame.skipEmpty line
    if line ≥ stop || frame.isOutdented line then ([], line)
    else ([], stop)

/-
  The reader for blocks below which there may be so many
  levels of containers. A list item is two levels deep, its
  list being the first.
-/
def readerAt : (levels : Nat) → BlockReader
  | 0 => skipContent
  | 1 => readBlocks skipContent skipContent
  | levels + 2 =>
    readBlocks (readerAt (levels + 1)) (readerAt levels)

/- The levels of containers that are read. -/
def maxLevels : Nat := 20

/- The rows of a text as the frame of a document. -/
def Frame.ofText (text : Text) : Frame :=
  let rows := Row.ofText text
  { rows, limit := rows.size }

/- The blocks of a document. -/
def blocks (text : Text) : List Block :=
  let frame := Frame.ofText text
  (readerAt maxLevels frame 0 frame.limit).1

end Markdown

end ScriptWorkspace
