import ScriptWorkspace.Proofs.Markdown.Prefix
import ScriptWorkspace.Proofs.Markdown.Offsets

/-
  The fences of the top level of a document.

  The content of such a fence is all rows up to the first one
  that closes it, or up to the end of the document. If every
  line of the document is ended then the content has as many
  line feeds as rows, so that the text of the fence ends with
  its content.

  Main declarations:
    * `fences`
    * `Frame.closes`
    * `Frame.fenceStop_eq`
    * `Fence.Layout`
    * `layout_of_mem_fences`
-/

namespace ScriptWorkspace

namespace Markdown

open Text

------------------------------------------------------------
-- Fences And Markers
------------------------------------------------------------

/- The fence that a block is. -/
def Block.fence? : Block → Option Fence
  | .fence fenced => some fenced
  | _ => none

/- The fences of the top level of a document, in order. -/
def fences (text : Text) : List Fence :=
  (blocks (plainText text)).filterMap Block.fence?

/- The fence has the info, up to blanks around it. -/
def Fence.marked (info : Text) (fence : Fence) : Bool :=
  decide (Text.strip fence.info = info)

/- The fence has a row of content. -/
def Fence.filled (fence : Fence) : Bool :=
  decide (fence.first + 1 < fence.contentStop)

/- The offsets of the content of a fence. -/
def contentSpan (text : Text) (fence : Fence) : Span :=
  lineSpan (rawLines text) (fence.first + 1)
    fence.contentStop

theorem Block.fence?_eq_some_iff
    (block : Block)
    (fenced : Fence) :
    block.fence? = some fenced ↔ block = .fence fenced := by
  cases block with
  | fence other => simp [fence?]
  | text first stop => simp [fence?]
  | container blocks => simp [fence?]

theorem mem_fences_iff
    {text : Text}
    {fenced : Fence} :
    fenced ∈ fences text ↔
      .fence fenced ∈ blocks (plainText text) := by
  simp [fences, Block.fence?_eq_some_iff]

/- Where the first fence of some kind stands among blocks. -/
theorem find?_filterMap_fence?_eq_some_iff
    (wanted : Fence → Bool)
    (blocks : List Block)
    (fenced : Fence) :
    (blocks.filterMap Block.fence?).find? wanted =
        some fenced ↔
      wanted fenced = true ∧
        ∃ before after,
          blocks = before ++ .fence fenced :: after ∧
            ∀ other, .fence other ∈ before →
              wanted other = false := by
  constructor
  · intro hFind
    refine ⟨List.find?_some hFind, ?_⟩
    induction blocks with
    | nil => simp at hFind
    | cons block blocks ih =>
        cases hBlock : block.fence? with
        | none =>
            rw [List.filterMap_cons_none hBlock] at hFind
            rcases ih hFind with
              ⟨before, after, rfl, hBefore⟩
            refine ⟨block :: before, after, rfl, ?_⟩
            intro other hMem
            rcases List.mem_cons.mp hMem with rfl | hMem
            · simp [Block.fence?] at hBlock
            · exact hBefore other hMem
        | some first =>
            rw [List.filterMap_cons_some hBlock] at hFind
            rw [Block.fence?_eq_some_iff] at hBlock
            subst hBlock
            cases hWanted : wanted first with
            | true =>
                rw [List.find?_cons_of_pos hWanted,
                  Option.some.injEq] at hFind
                subst hFind
                exact ⟨[], blocks, rfl, by simp⟩
            | false =>
                rw [List.find?_cons_of_neg
                  (by simp [hWanted])] at hFind
                rcases ih hFind with
                  ⟨before, after, rfl, hBefore⟩
                refine
                  ⟨.fence first :: before, after, rfl, ?_⟩
                intro other hMem
                rcases List.mem_cons.mp hMem with
                  hEq | hMem
                · cases hEq
                  exact hWanted
                · exact hBefore other hMem
  · rintro ⟨hWanted, before, after, rfl, hBefore⟩
    have hNone :
        (before.filterMap Block.fence?).find? wanted =
          none := by
      rw [List.find?_eq_none]
      intro other hMem
      rcases List.mem_filterMap.mp hMem with
        ⟨block, hBlock, hOther⟩
      rw [Block.fence?_eq_some_iff] at hOther
      simp [hBefore other (hOther ▸ hBlock)]
    rw [List.filterMap_append, List.find?_append, hNone,
      List.filterMap_cons_some
        ((Block.fence?_eq_some_iff _ _).mpr rfl),
      List.find?_cons_of_pos hWanted]
    rfl

------------------------------------------------------------
-- The End Of A Fence
------------------------------------------------------------

namespace Frame

/- The row closes a fence. -/
def closes
    (frame : Frame)
    (opening : FenceOpening)
    (line : Nat) : Bool :=
  !frame.isCode line &&
    opening.closedBy (frame.row line).body

section Closing

variable {frame : Frame}
variable (hMargin : ∀ line, frame.isOutdented line = false)
variable {opening : FenceOpening}
variable {stop : Nat}

include hMargin

theorem fenceStop_succ
    (fuel line : Nat) :
    frame.fenceStop opening stop (fuel + 1) line =
      if line ≥ stop then (line, false)
      else if frame.closes opening line = true then
        (line, true)
      else
        frame.fenceStop opening stop fuel (line + 1) := by
  simp [fenceStop, closes, hMargin]

/-
  A fence ends at the first row that closes it. If there is
  none then it ends with the rows.
-/
theorem fenceStop_eq
    (fuel : Nat)
    {line last : Nat}
    (hLine : line ≤ last)
    (hFuel : last < line + fuel)
    (hOpen :
      ∀ row, line ≤ row → row < last →
        frame.closes opening row = false)
    (hStop : last ≤ stop)
    (hCloses :
      last < stop → frame.closes opening last = true) :
    frame.fenceStop opening stop fuel line =
      (last, decide (last < stop)) := by
  induction fuel generalizing line with
  | zero => omega
  | succ fuel ih =>
      rw [fenceStop_succ hMargin]
      rcases Nat.lt_or_eq_of_le hLine with hLt | rfl
      · rw [if_neg (by omega), hOpen line (by simp) hLt,
          if_neg (by simp)]
        exact
          ih hLt (by omega) fun row hRow =>
            hOpen row (by omega)
      · rcases Nat.lt_or_eq_of_le hStop with hLt | rfl
        · rw [if_neg (Nat.not_le.mpr hLt),
            if_pos (hCloses hLt), decide_eq_true hLt]
        · simp

/- So it does whenever it ends. -/
theorem fenceStop_spec
    {fuel line last : Nat}
    {closed : Bool}
    (hFuel : stop < line + fuel)
    (hLine : line ≤ stop)
    (hResult :
      frame.fenceStop opening stop fuel line =
        (last, closed)) :
    line ≤ last ∧ last ≤ stop ∧
      (∀ row, line ≤ row → row < last →
        frame.closes opening row = false) ∧
      (last < stop → frame.closes opening last = true) := by
  induction fuel generalizing line with
  | zero => omega
  | succ fuel ih =>
      rw [fenceStop_succ hMargin] at hResult
      split at hResult
      · rw [Prod.mk.injEq] at hResult
        rcases hResult with ⟨rfl, _⟩
        exact
          ⟨Nat.le_refl _, hLine, by omega, fun _ => by omega⟩
      · split at hResult
        · next hCloses =>
            rw [Prod.mk.injEq] at hResult
            rcases hResult with ⟨rfl, _⟩
            exact
              ⟨Nat.le_refl _, hLine, by omega,
                fun _ => hCloses⟩
        · next hOpen =>
            rcases ih (by omega) (by omega) hResult with
              ⟨hLe, hStop, hBetween, hCloses⟩
            refine ⟨by omega, hStop, ?_, hCloses⟩
            intro row hRow hLast
            rcases Nat.lt_or_eq_of_le hRow with hLt | rfl
            · exact hBetween row hLt hLast
            · simpa using hOpen

end Closing

end Frame

------------------------------------------------------------
-- Fences Of Documents
------------------------------------------------------------

/-
  The parts of a fence of a document: its opening, the rows
  of its content, none of which closes it, and the row after
  them, which closes it unless the document ends before.
-/
structure Fence.Layout
    (text : Text)
    (opening : FenceOpening)
    (fence : Fence) : Prop where
  opens :
    (documentFrame text).fenceOpening? fence.first =
      some opening
  info : fence.info = opening.info
  lt_contentStop : fence.first < fence.contentStop
  contentStop_le :
    fence.contentStop ≤ (rawLines text).length
  not_closes :
    ∀ row, fence.first + 1 ≤ row → row < fence.contentStop →
      (documentFrame text).closes opening row = false
  closes :
    fence.contentStop < (rawLines text).length →
      (documentFrame text).closes opening
          fence.contentStop =
        true
  textStop : fence.textStop = fence.contentStop

section Documents

variable {text : Text}

theorem isOutdented_documentFrame
    (text : Text)
    (line : Nat) :
    (documentFrame text).isOutdented line = false := by
  rw [Frame.isOutdented_eq_false_iff]
  exact column_documentFrame_nonneg text line

/- A fence of a document is read at its first row. -/
theorem exists_fenceOpening?_of_mem_fences
    {fence : Fence}
    (hMem : fence ∈ fences text) :
    ∃ opening,
      fence.first < (documentFrame text).limit ∧
        (documentFrame text).fenceOpening? fence.first =
          some opening ∧
        fence =
          (documentFrame text).fenceBlock opening fence.first
            (documentFrame text).limit :=
  exists_fenceOpening?_of_mem_blocks (mem_fences_iff.mp hMem)

variable (hEnded : ∀ line ∈ rawLines text, EndedLine line)

include hEnded

/- The rows of a document have a line feed each. -/
theorem lineFeeds_documentFrame
    {first last : Nat}
    (hLast : last ≤ (documentFrame text).limit) :
    (documentFrame text).lineFeeds first last =
      last - first := by
  have hAll :
      ∀ row ∈ (((documentFrame text).rows.toList.take
          last).drop first),
        row.terminated = true := by
    intro row hMem
    have hIn :=
      List.mem_of_mem_take (List.mem_of_mem_drop hMem)
    rw [rows_documentFrame hEnded] at hIn
    rcases List.mem_map.mp hIn with ⟨line, hLine, rfl⟩
    exact
      Row.terminated_ofLine
        (isLine_plainText (hEnded line hLine))
  have hSize :
      (documentFrame text).rows.toList.length =
        (documentFrame text).limit := by
    rw [limit_documentFrame hEnded,
      rows_documentFrame hEnded, List.length_map]
  unfold Frame.lineFeeds
  rw [List.countP_eq_length.mpr hAll, List.length_drop,
    List.length_take, hSize, Nat.min_eq_left hLast]

/- A fence of the document, from where its content ends. -/
theorem fenceBlock_documentFrame
    {opening : FenceOpening}
    {line last : Nat}
    (hLine : line < last)
    (hOpen :
      ∀ row, line + 1 ≤ row → row < last →
        (documentFrame text).closes opening row = false)
    (hStop : last ≤ (documentFrame text).limit)
    (hCloses :
      last < (documentFrame text).limit →
        (documentFrame text).closes opening last = true) :
    (documentFrame text).fenceBlock opening line
        (documentFrame text).limit =
      { info := opening.info
        first := line
        stop :=
          if last < (documentFrame text).limit then last + 1
          else last
        contentStop := last
        lineFeeds := last - (line + 1) } := by
  have hResult :=
    Frame.fenceStop_eq (isOutdented_documentFrame text)
      ((documentFrame text).limit - line)
      (Nat.succ_le_of_lt hLine) (by omega) hOpen hStop
      hCloses
  unfold Frame.fenceBlock
  rw [hResult]
  simp only [lineFeeds_documentFrame hEnded hStop,
    decide_eq_true_eq]

/- Every fence of the document is laid out so. -/
theorem layout_of_mem_fences
    {fence : Fence}
    (hMem : fence ∈ fences text) :
    ∃ opening, fence.Layout text opening := by
  rcases exists_fenceOpening?_of_mem_fences hMem with
    ⟨opening, hFirst, hOpening, hFence⟩
  rcases hResult :
    (documentFrame text).fenceStop opening
      (documentFrame text).limit
      ((documentFrame text).limit - fence.first)
      (fence.first + 1) with ⟨last, closed⟩
  rcases Frame.fenceStop_spec
      (isOutdented_documentFrame text) (by omega) hFirst
      hResult with
    ⟨hLine, hStop, hOpen, hCloses⟩
  have hBlock :=
    fenceBlock_documentFrame hEnded hLine hOpen hStop hCloses
  rw [← hFence] at hBlock
  have hLast : fence.contentStop = last := by rw [hBlock]
  have hLimit := limit_documentFrame hEnded
  refine
    ⟨opening,
      { opens := hOpening
        info := by rw [hBlock]
        lt_contentStop := hLast ▸ hLine
        contentStop_le := by omega
        not_closes := hLast ▸ hOpen
        closes := by
          rw [hLast, ← hLimit]
          exact hCloses
        textStop := ?_ }⟩
  rw [hBlock]
  unfold Fence.textStop
  simp only
  split
  · split
    · rfl
    · omega
  · split
    · omega
    · rfl

/- A marked fence is laid out after its opening. -/
theorem layout_of_find?_marked
    {info : Text}
    {fence : Fence}
    (hFind :
      (fences text).find? (Fence.marked info) = some fence)
    {opening : FenceOpening}
    (hOpening :
      (documentFrame text).fenceOpening? fence.first =
        some opening) :
    fence.Layout text opening := by
  rcases layout_of_mem_fences hEnded
      (List.mem_of_find?_eq_some hFind) with
    ⟨other, hLayout⟩
  have hSame : other = opening :=
    Option.some.inj (hLayout.opens.symm.trans hOpening)
  rwa [hSame] at hLayout

/- The text of a fence ends with its content. -/
theorem textStop_of_mem_blocks
    {block : Block}
    (hMem : block ∈ blocks (plainText text))
    (fence : Fence)
    (hFence : block = .fence fence) :
    fence.textStop = fence.contentStop := by
  rw [hFence, ← mem_fences_iff] at hMem
  rcases layout_of_mem_fences hEnded hMem with
    ⟨opening, hLayout⟩
  exact hLayout.textStop

end Documents

------------------------------------------------------------
-- Lines That Close Fences
------------------------------------------------------------

/-
  The line consists of blanks, a run of the mark that is long
  enough, and blanks.
-/
def IsClosingLine
    (mark : Char)
    (length : Nat)
    (line : Text) : Prop :=
  ∃ (before : Text) (run : Nat) (after : Text),
    line = before ++ List.replicate run mark ++ after ∧
      length ≤ run ∧
      (∀ c ∈ before, isSpaceOrTab c = true) ∧
      ∀ c ∈ after, isSpaceOrTab c = true

/- Any other character keeps a line from closing a fence. -/
theorem not_isClosingLine_of_mem
    {mark : Char}
    {length : Nat}
    {line : Text}
    {c : Char}
    (hMem : c ∈ line)
    (hMark : c ≠ mark)
    (hBlank : isSpaceOrTab c = false) :
    ¬ IsClosingLine mark length line := by
  rintro ⟨before, run, after, rfl, _, hBefore, hAfter⟩
  rcases List.mem_append.mp hMem with hMem | hMem
  · rcases List.mem_append.mp hMem with hMem | hMem
    · simp [hBefore c hMem] at hBlank
    · exact hMark (List.mem_replicate.mp hMem).2
  · simp [hAfter c hMem] at hBlank

theorem ne_of_isMark
    {mark c : Char}
    (hMark : mark = '`' ∨ mark = '~')
    (hTick : c ≠ '`')
    (hTilde : c ≠ '~') :
    c ≠ mark := by
  rcases hMark with rfl | rfl
  · exact hTick
  · exact hTilde

/- What closes a fence at the first visible character. -/
theorem isClosingLine_of_closedBy
    {opening : FenceOpening}
    {line : Text}
    (hClosed :
      opening.closedBy (line.dropWhile isSpaceOrTab) =
        true) :
    IsClosingLine opening.mark opening.length line := by
  unfold FenceOpening.closedBy at hClosed
  simp only [Bool.and_eq_true, decide_eq_true_eq,
    List.all_eq_true] at hClosed
  refine
    ⟨line.takeWhile isSpaceOrTab, _, _, ?_, hClosed.1,
      ?_, hClosed.2⟩
  · rw [List.append_assoc, replicate_append_drop,
      List.takeWhile_append_dropWhile]
  · exact List.all_eq_true.mp List.all_takeWhile

/-
  Without characters that cannot be shown, only carriage
  returns are replaced in the plain text.
-/
theorem plainText_eq_replaceChar
    {text : Text}
    (hReplaced : '\ufffd' ∉ plainText text) :
    plainText text = replaceChar '\r' ' ' text := by
  unfold plainText replaceChar at hReplaced ⊢
  rw [List.map_map] at hReplaced ⊢
  apply List.map_congr_left
  intro c hMem
  by_cases hNul : c = '\x00'
  · subst c
    exact absurd (List.mem_map_of_mem hMem) hReplaced
  · by_cases hReturn : c = '\r'
    · subst c
      rfl
    · simp [hReturn, hNul]

section Closing

variable {text text' : Text}
variable (hEnded : ∀ line ∈ rawLines text, EndedLine line)

include hEnded

/-
  A row that closes a fence is a closing line, where carriage
  returns count as blanks.
-/
theorem isClosingLine_of_closes
    {opening : FenceOpening}
    (hMark : opening.mark = '`' ∨ opening.mark = '~')
    {row : Nat}
    {line : Text}
    (hLine : (rawLines text)[row]? = some (line ++ ['\n']))
    (hFeed : '\n' ∉ line)
    (hCloses :
      (documentFrame text).closes opening row = true) :
    IsClosingLine opening.mark opening.length
      (replaceChar '\r' ' ' line) := by
  unfold Frame.closes at hCloses
  rw [Bool.and_eq_true, row_documentFrame hEnded hLine,
    plainText_append, plainText_lineFeed,
    Row.body_ofLine (by rwa [mem_plainText_iff])] at hCloses
  have hPlain := isClosingLine_of_closedBy hCloses.2
  rw [← plainText_eq_replaceChar]
  · exact hPlain
  · intro hMem
    have hOther : '\ufffd' ≠ opening.mark :=
      ne_of_isMark hMark (by decide) (by decide)
    exact
      not_isClosingLine_of_mem hMem hOther (by decide)
        hPlain

/- Whether a row closes a fence depends on its line alone. -/
theorem closes_documentFrame
    (hEnded' : ∀ line ∈ rawLines text', EndedLine line)
    {row row' : Nat}
    {line : Text}
    (hLine : (rawLines text)[row]? = some line)
    (hLine' : (rawLines text')[row']? = some line)
    (opening : FenceOpening) :
    (documentFrame text').closes opening row' =
      (documentFrame text).closes opening row := by
  unfold Frame.closes Frame.isCode
  rw [row_documentFrame hEnded hLine,
    row_documentFrame hEnded' hLine']
  rfl

end Closing

------------------------------------------------------------
-- Documents That Agree Up To A Fence
------------------------------------------------------------

section Agreeing

variable {text text' : Text}
variable (hEnded : ∀ line ∈ rawLines text, EndedLine line)
variable (hEnded' : ∀ line ∈ rawLines text', EndedLine line)

include hEnded hEnded'

/- Documents with the same lines up to a fence agree there. -/
theorem agreeUpTo_of_take_eq
    {fence : Nat}
    {opening : FenceOpening}
    (hOpening :
      (documentFrame text).fenceOpening? fence =
        some opening)
    (hTake :
      (rawLines text').take (fence + 1) =
        (rawLines text).take (fence + 1))
    (hFence : fence < (rawLines text).length) :
    (documentFrame text).AgreeUpTo fence
      (documentFrame text') := by
  have hOpens := Frame.isCode_of_fenceOpening? hOpening
  have hCode := hOpens.1
  have hLength := congrArg List.length hTake
  rw [List.length_take, List.length_take] at hLength
  constructor
  · constructor
    · rw [hOpens.2]
      rfl
    · exact column_documentFrame_nonneg text fence
    · simp only [Frame.isCode,
        decide_eq_false_iff_not] at hCode
      change ¬ (_ - 0 ≥ (4 : Int)) at hCode
      omega
    · exact Int.le_refl _
  · intro line hLine
    rw [← Array.getElem?_toList, ← Array.getElem?_toList,
      rows_documentFrame hEnded, rows_documentFrame hEnded',
      List.getElem?_map, List.getElem?_map]
    have hSame :=
      congrArg (fun lines : List Text => lines[line]?) hTake
    simp only [List.getElem?_take] at hSame
    rw [if_pos (by omega), if_pos (by omega)] at hSame
    rw [hSame]
  · rfl
  · rfl
  · rw [limit_documentFrame hEnded,
      limit_documentFrame hEnded']
    omega

/-
  The first marked fence of a document is the first one of
  every other document that agrees up to it. There it goes on
  to the first row that closes it.
-/
theorem find?_marked_of_take_eq
    {info : Text}
    {fence : Fence}
    (hFind :
      (fences text).find? (Fence.marked info) = some fence)
    {opening : FenceOpening}
    (hOpening :
      (documentFrame text).fenceOpening? fence.first =
        some opening)
    (hPipe : '|' ∉ opening.info)
    (hTake :
      (rawLines text').take (fence.first + 1) =
        (rawLines text).take (fence.first + 1))
    {last : Nat}
    (hLine : fence.first < last)
    (hOpen :
      ∀ row, fence.first + 1 ≤ row → row < last →
        (documentFrame text').closes opening row = false)
    (hStop : last ≤ (rawLines text').length)
    (hCloses :
      last < (rawLines text').length →
        (documentFrame text').closes opening last = true) :
    ∃ fence',
      (fences text').find? (Fence.marked info) =
          some fence' ∧
        fence'.first = fence.first ∧
        fence'.contentStop = last := by
  have hLayout :=
    layout_of_find?_marked hEnded hFind hOpening
  unfold fences at hFind ⊢
  rw [find?_filterMap_fence?_eq_some_iff] at hFind
  rcases hFind with
    ⟨hMarked, before, after, hBlocks, hBefore⟩
  have hAgree :=
    agreeUpTo_of_take_eq hEnded hEnded' hOpening hTake
      (Nat.lt_of_lt_of_le hLayout.lt_contentStop
        hLayout.contentStop_le)
  have hBody :
      '|' ∉ ((documentFrame text).row fence.first).body := by
    rcases eq_of_ofText?
        (Frame.isCode_of_fenceOpening? hOpening).2 with
      ⟨hMark, _, hEq⟩
    rw [hEq, List.mem_append, not_or]
    refine ⟨?_, hPipe⟩
    intro hIn
    rw [(List.mem_replicate.mp hIn).2.symm] at hMark
    simp at hMark
  rcases blocks_split hAgree hOpening hBody hBlocks with
    ⟨after', hSplit⟩
  have hBlock :=
    fenceBlock_documentFrame hEnded' hLine hOpen
      (by rwa [limit_documentFrame hEnded'])
      (by rwa [limit_documentFrame hEnded'])
  change _ =
    before ++
      .fence
          ((documentFrame text').fenceBlock opening
            fence.first (documentFrame text').limit) ::
        after' at hSplit
  rw [hBlock] at hSplit
  refine
    ⟨_,
      (find?_filterMap_fence?_eq_some_iff _ _ _).mpr
        ⟨?_, before, after', hSplit, hBefore⟩, rfl, rfl⟩
  unfold Fence.marked at hMarked ⊢
  rwa [← hLayout.info]

/-
  When lines that do not close the first marked fence take
  the places of those between its rows, it is found with the
  new ones.
-/
theorem find?_marked_of_replaced
    {info : Text}
    {fence : Fence}
    (hFind :
      (fences text).find? (Fence.marked info) = some fence)
    {opening : FenceOpening}
    (hOpening :
      (documentFrame text).fenceOpening? fence.first =
        some opening)
    (hPipe : '|' ∉ opening.info)
    {front old rest contents : List Text}
    (hLines : rawLines text = front ++ old ++ rest)
    (hLines' :
      rawLines text' =
        front ++ contents.map (· ++ ['\n']) ++ rest)
    (hFirst : front.length = fence.first + 1)
    (hStop : (front ++ old).length = fence.contentStop)
    (hFeed : ∀ content ∈ contents, '\n' ∉ content)
    (hOpen :
      ∀ content ∈ contents,
        ¬ IsClosingLine opening.mark opening.length
          (replaceChar '\r' ' ' content)) :
    ∃ fence',
      (fences text').find? (Fence.marked info) =
          some fence' ∧
        fence'.first = fence.first ∧
        fence'.contentStop =
          fence.first + 1 + contents.length := by
  have hMark :=
    (eq_of_ofText?
      (Frame.isCode_of_fenceOpening? hOpening).2).1
  have hTake :
      (rawLines text').take (fence.first + 1) =
        (rawLines text).take (fence.first + 1) := by
    rw [hLines, hLines', ← hFirst, List.append_assoc,
      List.append_assoc, List.take_left, List.take_left]
  have hFrontLength :
      (front ++ contents.map (· ++ ['\n'])).length =
        fence.first + 1 + contents.length := by
    rw [List.length_append, List.length_map, hFirst]
  have hNotClosed :
      ∀ row, fence.first + 1 ≤ row →
        row < fence.first + 1 + contents.length →
          (documentFrame text').closes opening row =
            false := by
    intro row hRow hLast
    obtain ⟨content, hContent⟩ :
        ∃ content,
          contents[row - (fence.first + 1)]? =
            some content :=
      ⟨_, List.getElem?_eq_getElem (by omega)⟩
    have hMem := List.mem_of_getElem? hContent
    have hLine :
        (rawLines text')[row]? =
          some (content ++ ['\n']) := by
      rw [hLines',
        List.getElem?_append_left (hFrontLength ▸ hLast),
        List.getElem?_append_right (hFirst ▸ hRow), hFirst,
        List.getElem?_map, hContent]
      rfl
    rw [← Bool.not_eq_true]
    intro hCloses
    exact
      hOpen content hMem
        (isClosingLine_of_closes hEnded' hMark hLine
          (hFeed content hMem) hCloses)
  have hClosed :
      fence.first + 1 + contents.length <
          (rawLines text').length →
        (documentFrame text').closes opening
            (fence.first + 1 + contents.length) =
          true := by
    intro hLt
    cases rest with
    | nil =>
        rw [hLines', List.append_nil, hFrontLength] at hLt
        exact absurd hLt (Nat.lt_irrefl _)
    | cons closing rest =>
        have hLine :
            (rawLines text)[fence.contentStop]? =
              some closing := by
          rw [hLines, ← hStop]
          simp
        have hLine' :
            (rawLines text')[fence.first + 1 +
              contents.length]? =
              some closing := by
          rw [hLines', ← hFrontLength]
          simp
        have hLayout :=
          layout_of_find?_marked hEnded hFind hOpening
        rw [closes_documentFrame hEnded hEnded' hLine hLine']
        exact
          hLayout.closes (List.getElem?_eq_some_iff.mp hLine).1
  refine
    find?_marked_of_take_eq hEnded hEnded' hFind hOpening
      hPipe hTake (by omega) hNotClosed ?_ hClosed
  rw [hLines', List.length_append, hFrontLength]
  exact Nat.le_add_right _ _

end Agreeing

end Markdown

end ScriptWorkspace
