import ScriptWorkspace.Proofs.Markdown.Rows

/-
  Readers of blocks move forward, and what they read lies
  between the rows that they were given.

  Every loop over rows ends at a row that is not before the
  one where it began. A reader that is given a row to begin
  with moves past it, and every run of text and every fence
  that it answers with has rows of its own. The readers for
  deeper levels are built from those for the levels above,
  so this goes through by induction over the levels.

  Main declarations:
    * `Block.Within`
    * `BlockReader.Advances`
    * `readBlock_advances`
    * `readBlocks_advances`
    * `readerAt_advances`
-/

namespace ScriptWorkspace

namespace Markdown

------------------------------------------------------------
-- Blocks In A Range Of Rows
------------------------------------------------------------

/- The fence has an opening row, and its parts are in order. -/
structure Fence.Within
    (first stop : Nat)
    (fence : Fence) : Prop where
  first_le : first ≤ fence.first
  lt_contentStop : fence.first < fence.contentStop
  contentStop_le : fence.contentStop ≤ fence.stop
  stop_le : fence.stop ≤ stop

mutual

/- Every part of a block has rows and begins in the range. -/
def Block.Within (first stop : Nat) : Block → Prop
  | .fence fenced => fenced.Within first stop
  | .text begins ends =>
    first ≤ begins ∧ begins < stop ∧ begins < ends
  | .container blocks => AllWithin first stop blocks

/- Every part of some blocks does. -/
def AllWithin (first stop : Nat) : List Block → Prop
  | [] => True
  | block :: blocks =>
    block.Within first stop ∧ AllWithin first stop blocks

end

theorem allWithin_append
    {first stop : Nat}
    (before after : List Block) :
    AllWithin first stop (before ++ after) ↔
      AllWithin first stop before ∧
        AllWithin first stop after := by
  induction before with
  | nil => simp [AllWithin]
  | cons block before ih =>
      simp [AllWithin, ih, and_assoc]

theorem Block.Within.of_mem
    {first stop : Nat}
    {blocks : List Block}
    (hAll : AllWithin first stop blocks)
    {block : Block}
    (hMem : block ∈ blocks) :
    block.Within first stop := by
  induction blocks with
  | nil => simp at hMem
  | cons other blocks ih =>
      rcases List.mem_cons.mp hMem with rfl | hMem
      · exact hAll.1
      · exact ih hAll.2 hMem

theorem allWithin_of_forall
    {first stop : Nat}
    {blocks : List Block}
    (hEach : ∀ block ∈ blocks, block.Within first stop) :
    AllWithin first stop blocks := by
  induction blocks with
  | nil => exact True.intro
  | cons block blocks ih =>
      exact
        ⟨hEach block (by simp),
          ih fun other hMem =>
            hEach other (List.mem_cons_of_mem _ hMem)⟩

section Widening

variable {first stop first' stop' : Nat}

theorem Fence.Within.mono
    (hFirst : first' ≤ first)
    (hStop : stop ≤ stop')
    {fence : Fence}
    (hWithin : fence.Within first stop) :
    fence.Within first' stop' where
  first_le := Nat.le_trans hFirst hWithin.first_le
  lt_contentStop := hWithin.lt_contentStop
  contentStop_le := hWithin.contentStop_le
  stop_le := Nat.le_trans hWithin.stop_le hStop

mutual

/- What lies in a range lies in a wider one. -/
theorem Block.Within.mono
    (hFirst : first' ≤ first)
    (hStop : stop ≤ stop') :
    ∀ {block : Block},
      block.Within first stop → block.Within first' stop'
  | .fence _, hWithin =>
    Fence.Within.mono hFirst hStop hWithin
  | .text _ _, ⟨hBegins, hLt, hEnds⟩ =>
    ⟨Nat.le_trans hFirst hBegins,
      Nat.lt_of_lt_of_le hLt hStop, hEnds⟩
  | .container _, hWithin =>
    AllWithin.mono hFirst hStop hWithin

theorem AllWithin.mono
    (hFirst : first' ≤ first)
    (hStop : stop ≤ stop') :
    ∀ {blocks : List Block},
      AllWithin first stop blocks →
        AllWithin first' stop' blocks
  | [], _ => True.intro
  | _ :: _, ⟨hHead, hTail⟩ =>
    ⟨Block.Within.mono hFirst hStop hHead,
      AllWithin.mono hFirst hStop hTail⟩

end

end Widening

------------------------------------------------------------
-- Loops Over Rows
------------------------------------------------------------

namespace Frame

theorem le_skipEmptyFrom
    (frame : Frame)
    (fuel line : Nat) :
    line ≤ frame.skipEmptyFrom fuel line := by
  fun_induction skipEmptyFrom frame fuel line <;> omega

theorem le_skipEmpty
    (frame : Frame)
    (line : Nat) :
    line ≤ frame.skipEmpty line :=
  frame.le_skipEmptyFrom _ line

/- An empty row is skipped. -/
theorem lt_skipEmpty
    {frame : Frame}
    {line : Nat}
    (hLine : line < frame.limit)
    (hEmpty : frame.isEmpty line = true) :
    line < frame.skipEmpty line := by
  unfold skipEmpty
  obtain ⟨fuel, hFuel⟩ :
      ∃ fuel, frame.limit - line = fuel + 1 :=
    ⟨frame.limit - line - 1, by omega⟩
  rw [hFuel, skipEmptyFrom]
  simp only [hLine, hEmpty, decide_true, Bool.and_self,
    if_true]
  exact frame.le_skipEmptyFrom fuel (line + 1)

theorem skipEmpty_of_not_isEmpty
    {frame : Frame}
    {line : Nat}
    (hEmpty : frame.isEmpty line ≠ true) :
    frame.skipEmpty line = line := by
  unfold skipEmpty
  cases frame.limit - line with
  | zero => rfl
  | succ fuel => simp [skipEmptyFrom, hEmpty]

theorem le_paragraphStop
    (frame : Frame)
    (inParagraph : Bool)
    (fuel line : Nat) :
    line ≤ frame.paragraphStop inParagraph fuel line := by
  fun_induction paragraphStop frame inParagraph fuel line <;>
    omega

theorem le_of_underline?
    {frame : Frame}
    {stop fuel line last : Nat}
    (hLast : frame.underline? stop fuel line = some last) :
    line ≤ last := by
  fun_induction underline? frame stop fuel line <;> grind

theorem le_codeStop
    (frame : Frame)
    (stop fuel line last : Nat) :
    min line last ≤
      frame.codeStop stop fuel line last := by
  fun_induction codeStop frame stop fuel line last <;> omega

theorem le_fenceStop
    (frame : Frame)
    (opening : FenceOpening)
    (stop fuel line : Nat) :
    line ≤ (frame.fenceStop opening stop fuel line).1 := by
  fun_induction fenceStop frame opening stop fuel line <;>
    grind

/- A fence ends at its first row or later, and in bounds. -/
theorem fenceStop_bounds
    (frame : Frame)
    (opening : FenceOpening)
    (fuel : Nat)
    {stop line : Nat}
    (hLine : line ≤ stop) :
    line ≤ (frame.fenceStop opening stop fuel line).1 ∧
      (frame.fenceStop opening stop fuel line).1 ≤ stop ∧
      ((frame.fenceStop opening stop fuel line).2 = true →
        (frame.fenceStop opening stop fuel line).1 <
          stop) := by
  fun_induction fenceStop frame opening stop fuel line <;>
    grind

theorem le_htmlStop
    (frame : Frame)
    (kind : HtmlKind)
    (stop fuel line : Nat) :
    line ≤ frame.htmlStop kind stop fuel line := by
  fun_induction htmlStop frame kind stop fuel line <;> omega

theorem lt_htmlBlockStop
    (frame : Frame)
    (kind : HtmlKind)
    (line stop : Nat) :
    line < frame.htmlBlockStop kind line stop := by
  unfold htmlBlockStop
  split
  · omega
  · exact frame.le_htmlStop kind stop _ (line + 1)

/- A table ends where it began or later, and in bounds. -/
theorem tableStop_bounds
    (frame : Frame)
    (fuel : Nat)
    {stop line : Nat}
    (hLine : line ≤ stop) :
    line ≤ frame.tableStop stop fuel line ∧
      frame.tableStop stop fuel line ≤ stop := by
  fun_induction tableStop frame stop fuel line <;> grind

theorem le_of_tableColumns?
    {frame : Frame}
    {line stop columns : Nat}
    (hTable :
      frame.tableColumns? line stop = some columns) :
    line + 2 ≤ stop := by
  simp only [tableColumns?] at hTable
  split at hTable
  · simp at hTable
  · next hHead =>
      simp only [gt_iff_lt, Bool.or_eq_true,
        decide_eq_true_eq, not_or, Nat.not_lt] at hHead
      exact hHead.1.1.1

theorem lt_of_referenceStop?
    {frame : Frame}
    {line last : Nat}
    (hLast : frame.referenceStop? line = some last) :
    line < last := by
  simp only [referenceStop?] at hLast
  split at hLast
  · simp at hLast
  · split at hLast
    · simp at hLast
    · split at hLast
      · simp at hLast
      · rcases Option.map_eq_some_iff.mp hLast with
          ⟨feeds, _, hEq⟩
        omega

------------------------------------------------------------
-- Replaced Rows
------------------------------------------------------------

theorem row_setRow_of_ne
    (frame : Frame)
    {line other : Nat}
    (hNe : line ≠ other)
    (row : Row) :
    (frame.setRow line row).row other = frame.row other := by
  simp [Frame.row, setRow, hNe]

/- A row that is not there cannot be replaced. -/
theorem row_setRow_self
    (frame : Frame)
    (line : Nat)
    (row : Row) :
    (frame.setRow line row).row line = row ∨
      (frame.setRow line row).row line = Row.absent ∧
        frame.row line = Row.absent := by
  by_cases hLine : line < frame.rows.size
  · left
    simp [Frame.row, setRow, hLine]
  · right
    simp [Frame.row, setRow, hLine]

/-
  The rows of a quotation end in bounds, and those before it
  are left as they are.
-/
theorem quoteRows_bounds
    (frame : Frame)
    (fuel : Nat)
    {stop line : Nat}
    (hLine : line ≤ stop)
    (lastEmpty : Bool)
    (inner : Frame) :
    line ≤ (frame.quoteRows stop fuel line lastEmpty
        inner).2.1 ∧
      (frame.quoteRows stop fuel line lastEmpty
        inner).2.1 ≤ stop ∧
      ∀ other < line,
        (frame.quoteRows stop fuel line lastEmpty
          inner).1.row other = inner.row other := by
  induction fuel generalizing line lastEmpty inner with
  | zero =>
      exact ⟨Nat.le_refl _, hLine, fun _ _ => rfl⟩
  | succ fuel ih =>
      simp only [quoteRows]
      split
      · exact ⟨Nat.le_refl _, hLine, fun _ _ => rfl⟩
      · next hStop =>
          have hLt : line + 1 ≤ stop := by
            simp only [ge_iff_le, Bool.or_eq_true,
              decide_eq_true_eq, not_or, Nat.not_le] at hStop
            omega
          have hKeep :
              ∀ (row : Row) (other : Nat), other < line →
                (inner.setRow line row).row other =
                  inner.row other := by
            intro row other hOther
            apply inner.row_setRow_of_ne
            omega
          split
          · refine
              ⟨Nat.le_of_succ_le (ih hLt _ _).1,
                (ih hLt _ _).2.1, ?_⟩
            intro other hOther
            rw [(ih hLt _ _).2.2 other (by omega)]
            exact hKeep _ other hOther
          · split
            · exact ⟨Nat.le_refl _, hLine, fun _ _ => rfl⟩
            · split
              · exact
                  ⟨Nat.le_refl _, hLine, fun _ _ => rfl⟩
              · refine
                  ⟨Nat.le_of_succ_le (ih hLt _ _).1,
                    (ih hLt _ _).2.1, ?_⟩
                intro other hOther
                rw [(ih hLt _ _).2.2 other (by omega)]
                exact hKeep _ other hOther

theorem isOutdented_eq_false_iff
    (frame : Frame)
    (line : Nat) :
    frame.isOutdented line = false ↔
      frame.blockColumn ≤ (frame.row line).column := by
  simp [isOutdented]

end Frame

------------------------------------------------------------
-- Readers
------------------------------------------------------------

/-
  A reader never goes back, it moves past a row that belongs
  to its container, and what it reads lies within its bounds
  and before the row that it reaches.
-/
structure BlockReader.Advances
    (reader : BlockReader) : Prop where
  le :
    ∀ frame line stop,
      stop ≤ frame.limit → line ≤ (reader frame line stop).2
  lt :
    ∀ frame line stop,
      line < stop → stop ≤ frame.limit →
        (frame.isEmpty line = true ∨
          frame.isOutdented line = false) →
        line < (reader frame line stop).2
  within :
    ∀ frame line stop,
      stop ≤ frame.limit →
        AllWithin line (min stop (reader frame line stop).2)
          (reader frame line stop).1

namespace Frame

variable {content : BlockReader}

theorem readQuote_advances
    (hContent : content.Advances)
    {frame : Frame}
    {line stop : Nat}
    (hLine : line < stop)
    (hStop : stop ≤ frame.limit) :
    line < (frame.readQuote content line stop).2 ∧
      AllWithin line
        (min stop (frame.readQuote content line stop).2)
        (frame.readQuote content line stop).1 := by
  have hRows :=
    frame.quoteRows_bounds (stop - line)
      (Nat.succ_le_of_lt hLine)
      (frame.row line).unquoted.isEmpty
      (frame.setRow line (frame.row line).unquoted)
  simp only [readQuote]
  generalize hResult :
    frame.quoteRows stop (stop - line) (line + 1)
      (frame.row line).unquoted.isEmpty
      (frame.setRow line (frame.row line).unquoted) =
        result at hRows ⊢
  rcases result with ⟨inner, last, ended⟩
  simp only at hRows ⊢
  have hLimit :
      last ≤ if ended = true then last else frame.limit := by
    split <;> omega
  refine ⟨?_, ?_, True.intro⟩
  · apply hContent.lt
    · omega
    · exact hLimit
    · right
      rw [isOutdented_eq_false_iff]
      -- Its row is the one without the marker, or none.
      change 0 ≤ (inner.row line).column
      rw [hRows.2.2 line (by omega)]
      rcases frame.row_setRow_self line
          (frame.row line).unquoted with
        hSelf | ⟨hSelf, _⟩
      · rw [hSelf]
        exact (frame.row line).column_unquoted_nonneg
      · rw [hSelf]
        exact Int.le_refl _
  · exact
      AllWithin.mono (Nat.le_refl _) (by omega)
        (hContent.within _ line last hLimit)

theorem readItem_advances
    (hContent : content.Advances)
    {frame : Frame}
    (marker : ItemMarker)
    {line stop : Nat}
    (hLine : line < stop)
    (hStop : stop ≤ frame.limit) :
    line < (frame.readItem content marker line stop).2 ∧
      AllWithin line
        (min stop
          (frame.readItem content marker line stop).2)
        (frame.readItem content marker line stop).1 := by
  simp only [readItem]
  generalize hBlanks :
    leadingBlanks (frame.row line).tabBase
      ((frame.row line).column + marker.width)
      ((frame.row line).body.drop marker.width) = result
  rcases result with ⟨blanks, reached⟩
  simp only
  split
  · refine ⟨?_, True.intro⟩
    simp only
    omega
  · refine
      ⟨hContent.lt _ line stop hLine hStop ?_,
        hContent.within _ line stop hStop⟩
    simp only [isOutdented_eq_false_iff, isEmpty]
    rcases frame.row_setRow_self line
        { frame.row line with
          shift :=
            (frame.row line).shift + marker.width + blanks
          column := reached } with
      hSelf | ⟨hSelf, _⟩
    · by_cases hRest :
        (((frame.row line).body.drop marker.width).drop
          blanks).isEmpty = true
      · left
        change Row.isEmpty (Frame.row (setRow _ _ _) _) = true
        rw [hSelf]
        simpa [Row.isEmpty, Row.body, List.drop_drop,
          Nat.add_assoc] using hRest
      · right
        change _ ≤ (Frame.row (setRow _ _ _) _).column
        rw [hSelf]
        simp only [hRest, Bool.false_or, decide_eq_true_eq]
        split <;> omega
    · left
      change Row.isEmpty (Frame.row (setRow _ _ _) _) = true
      rw [hSelf]
      rfl

theorem readItems_advances
    (hContent : content.Advances)
    {frame : Frame}
    {stop : Nat}
    (hStop : stop ≤ frame.limit)
    (fuel : Nat)
    (marker : ItemMarker)
    {line : Nat}
    (hLine : line < stop) :
    line ≤
        (frame.readItems content stop fuel marker line).2 ∧
      (0 < fuel →
        line <
          (frame.readItems content stop fuel
            marker line).2) ∧
      AllWithin line
        (min stop
          (frame.readItems content stop fuel marker line).2)
        (frame.readItems content stop fuel marker line).1 := by
  induction fuel generalizing marker line with
  | zero =>
      exact
        ⟨Nat.le_refl _, fun h => absurd h (by omega),
          True.intro⟩
  | succ fuel ih =>
      have hItem :=
        readItem_advances hContent marker hLine hStop
      simp only [readItems]
      generalize hResult :
        frame.readItem content marker line stop = result
          at hItem ⊢
      rcases result with ⟨blocks, next⟩
      simp only at hItem ⊢
      have hDone :
          line ≤ next ∧ (0 < fuel + 1 → line < next) ∧
            AllWithin line (min stop next) blocks :=
        ⟨Nat.le_of_lt hItem.1, fun _ => hItem.1, hItem.2⟩
      split
      · exact hDone
      · next hOn =>
          have hNext : next < stop := by
            simp only [ge_iff_le, Bool.or_eq_true,
              decide_eq_true_eq, not_or, Nat.not_le] at hOn
            exact hOn.1.1.1
          split
          · exact hDone
          · split
            · exact hDone
            · next following _ _ =>
                have hMore := ih following hNext
                refine
                  ⟨Nat.le_trans (Nat.le_of_lt hItem.1)
                      hMore.1,
                    fun _ =>
                      Nat.lt_of_lt_of_le hItem.1 hMore.1,
                    ?_⟩
                rw [allWithin_append]
                exact
                  ⟨AllWithin.mono (Nat.le_refl _) (by omega)
                      hItem.2,
                    AllWithin.mono (Nat.le_of_lt hItem.1)
                      (Nat.le_refl _) hMore.2.2⟩

/- The items after the first end where it did or later. -/
theorem readItem_le_readItems
    (hContent : content.Advances)
    {frame : Frame}
    {stop : Nat}
    (hStop : stop ≤ frame.limit)
    (fuel : Nat)
    (marker : ItemMarker)
    (line : Nat) :
    (frame.readItem content marker line stop).2 ≤
      (frame.readItems content stop (fuel + 1)
        marker line).2 := by
  simp only [readItems]
  split
  · exact Nat.le_refl _
  · next hOn =>
      simp only [ge_iff_le, Bool.or_eq_true,
        decide_eq_true_eq, not_or, Nat.not_le] at hOn
      split
      · exact Nat.le_refl _
      · split
        · exact Nat.le_refl _
        · next following _ _ =>
            exact
              (readItems_advances hContent hStop fuel following
                hOn.1.1.1).1

/- A fence lies between its opening and the bound. -/
theorem fenceBlock_within
    (frame : Frame)
    (opening : FenceOpening)
    {line stop : Nat}
    (hLine : line < stop) :
    (frame.fenceBlock opening line stop).Within line
      (min stop (frame.fenceBlock opening line stop).stop) := by
  have hBounds :=
    frame.fenceStop_bounds opening (stop - line)
      (Nat.succ_le_of_lt hLine)
  simp only [fenceBlock]
  generalize hResult :
    frame.fenceStop opening stop (stop - line) (line + 1) =
      result at hBounds ⊢
  rcases result with ⟨contentStop, closed⟩
  simp only at hBounds ⊢
  constructor
  · exact Nat.le_refl _
  · exact hBounds.1
  · simp only
    split <;> omega
  · rw [Nat.le_min]
    refine ⟨?_, Nat.le_refl _⟩
    cases closed with
    | false => simpa using hBounds.2.1
    | true => exact Nat.succ_le_of_lt (hBounds.2.2 rfl)

theorem tableBlocks_within
    (columns first stop : Nat) :
    AllWithin first stop (tableBlocks columns first stop) := by
  apply allWithin_of_forall
  intro block hMem
  simp only [tableBlocks, List.mem_flatMap,
    List.mem_range'_1] at hMem
  rcases hMem with ⟨line, hLine, hMem⟩
  split at hMem
  · simp at hMem
  · rw [(List.mem_replicate.mp hMem).2]
    exact ⟨hLine.1, by omega, by omega⟩

end Frame

/- A block is read from its row on and within the bounds. -/
theorem readBlock_advances
    {quoted listed : BlockReader}
    (hQuoted : quoted.Advances)
    (hListed : listed.Advances)
    {frame : Frame}
    {line stop : Nat}
    (hLine : line < stop)
    (hStop : stop ≤ frame.limit) :
    line < (readBlock quoted listed frame line stop).2 ∧
      AllWithin line
        (min stop
          (readBlock quoted listed frame line stop).2)
        (readBlock quoted listed frame line stop).1 := by
  have hText :
      ∀ last reached, line < last → line < reached →
        AllWithin line (min stop reached)
          [.text line last] := by
    intro last reached hLast hReached
    exact
      ⟨⟨Nat.le_refl _, Nat.lt_min.mpr ⟨hLine, hReached⟩,
        hLast⟩, True.intro⟩
  unfold readBlock
  split
  · next columns hTable =>
      have hRows := Frame.le_of_tableColumns? hTable
      have hBounds :=
        frame.tableStop_bounds (stop - line) hRows
      refine ⟨by simp only; omega, ?_, True.intro⟩
      exact
        AllWithin.mono (Nat.le_refl _)
          (Nat.le_min.mpr ⟨hBounds.2, Nat.le_refl _⟩)
          (Frame.tableBlocks_within _ _ _)
  · split
    · have hLast :=
        frame.le_codeStop stop (stop - line) (line + 1)
          (line + 1)
      rw [Nat.min_self] at hLast
      exact ⟨hLast, hText _ _ hLast hLast⟩
    · split
      · next opening _ =>
          have hFence :=
            frame.fenceBlock_within opening hLine
          exact
            ⟨Nat.lt_of_lt_of_le hFence.lt_contentStop
                hFence.contentStop_le,
              hFence, True.intro⟩
      · split
        · exact
            Frame.readQuote_advances hQuoted hLine hStop
        · split
          · exact ⟨Nat.lt_succ_self _, True.intro⟩
          · split
            · next marker _ =>
                have hItems :=
                  Frame.readItems_advances hListed hStop
                    (stop - line) marker hLine
                exact
                  ⟨hItems.2.1 (by omega), hItems.2.2,
                    True.intro⟩
            · split
              · next last hLast =>
                  exact
                    ⟨Frame.lt_of_referenceStop? hLast,
                      True.intro⟩
              · split
                · exact
                    ⟨Frame.lt_htmlBlockStop _ _ _ _,
                      True.intro⟩
                · split
                  · exact
                      ⟨Nat.lt_succ_self _,
                        hText _ _ (Nat.lt_succ_self _)
                          (Nat.lt_succ_self _)⟩
                  · split
                    · next last hLast =>
                        have hLe :=
                          Frame.le_of_underline? hLast
                        exact
                          ⟨by simp only; omega,
                            hText _ _ (by omega)
                              (by omega)⟩
                    · have hLe :=
                        frame.le_paragraphStop true
                          (frame.limit - line) (line + 1)
                      exact ⟨hLe, hText _ _ hLe hLe⟩

/- The row from which the next block is looked for. -/
def Frame.afterBlock
    (frame : Frame)
    (stop next : Nat) : Nat :=
  if next < stop && frame.isEmpty next then next + 1
  else next

theorem Frame.le_afterBlock
    (frame : Frame)
    (stop next : Nat) :
    next ≤ frame.afterBlock stop next := by
  unfold afterBlock
  split <;> omega

/- Blocks are read one after another. -/
theorem readBlocksFrom_succ
    (quoted listed : BlockReader)
    (frame : Frame)
    (stop fuel line : Nat) :
    readBlocksFrom quoted listed frame stop (fuel + 1) line =
      if line ≥ stop then ([], line)
      else if frame.skipEmpty line ≥ stop ∨
          frame.isOutdented (frame.skipEmpty line) = true then
        ([], frame.skipEmpty line)
      else
        let block :=
          readBlock quoted listed frame
            (frame.skipEmpty line) stop
        let more :=
          readBlocksFrom quoted listed frame stop fuel
            (frame.afterBlock stop block.2)
        (block.1 ++ more.1, more.2) := by
  simp only [readBlocksFrom, Frame.afterBlock,
    Bool.or_eq_true, decide_eq_true_eq]

theorem readBlocksFrom_advances
    {quoted listed : BlockReader}
    (hQuoted : quoted.Advances)
    (hListed : listed.Advances)
    {frame : Frame}
    {stop : Nat}
    (hStop : stop ≤ frame.limit)
    (fuel line : Nat) :
    line ≤
        (readBlocksFrom quoted listed frame stop
          fuel line).2 ∧
      AllWithin line
        (min stop
          (readBlocksFrom quoted listed frame stop
            fuel line).2)
        (readBlocksFrom quoted listed frame stop
          fuel line).1 := by
  induction fuel generalizing line with
  | zero => exact ⟨Nat.le_refl _, True.intro⟩
  | succ fuel ih =>
      have hSkip := frame.le_skipEmpty line
      rw [readBlocksFrom_succ]
      split
      · exact ⟨Nat.le_refl _, True.intro⟩
      · split
        · exact ⟨hSkip, True.intro⟩
        · next hOn =>
            have hLt := Nat.lt_of_not_le (not_or.mp hOn).1
            have hBlock :=
              readBlock_advances hQuoted hListed hLt hStop
            have hAfter :=
              frame.le_afterBlock stop
                (readBlock quoted listed frame
                  (frame.skipEmpty line) stop).2
            have hMore :=
              ih
                (frame.afterBlock stop
                  (readBlock quoted listed frame
                    (frame.skipEmpty line) stop).2)
            simp only
            refine ⟨Nat.le_trans (by omega) hMore.1, ?_⟩
            rw [allWithin_append]
            exact
              ⟨AllWithin.mono hSkip (by omega) hBlock.2,
                AllWithin.mono (by omega) (Nat.le_refl _)
                  hMore.2⟩

/- Readers of blocks advance if those for the content do. -/
theorem readBlocks_advances
    {quoted listed : BlockReader}
    (hQuoted : quoted.Advances)
    (hListed : listed.Advances) :
    (readBlocks quoted listed).Advances where
  le frame line stop hStop :=
    (readBlocksFrom_advances hQuoted hListed hStop _ line).1
  within frame line stop hStop :=
    (readBlocksFrom_advances hQuoted hListed hStop _ line).2
  lt frame line stop hLine hStop hRow := by
    have hFrom :=
      fun fuel next =>
        (readBlocksFrom_advances hQuoted hListed hStop
          fuel next).1
    have hBlock :=
      fun next (hNext : next < stop) =>
        Nat.lt_of_lt_of_le
          (readBlock_advances hQuoted hListed hNext hStop).1
          (frame.le_afterBlock stop _)
    simp only [readBlocks]
    rw [readBlocksFrom_succ, if_neg (Nat.not_le.mpr hLine)]
    by_cases hEmpty : frame.isEmpty line = true
    · have hSkip :=
        Frame.lt_skipEmpty (by omega) hEmpty
      split
      · exact hSkip
      · next hOn =>
          have hNext :=
            hBlock _ (Nat.lt_of_not_le (not_or.mp hOn).1)
          exact
            Nat.lt_of_lt_of_le (by omega) (hFrom _ _)
    · rw [Frame.skipEmpty_of_not_isEmpty hEmpty,
        hRow.resolve_left hEmpty, if_neg (by simp; omega)]
      exact
        Nat.lt_of_lt_of_le (hBlock line hLine) (hFrom _ _)

theorem skipContent_advances :
    BlockReader.Advances skipContent where
  le frame line stop _ := by
    have hSkip := frame.le_skipEmpty line
    simp only [skipContent]
    split
    · exact hSkip
    · next hOn =>
        simp only [ge_iff_le, Bool.or_eq_true,
          decide_eq_true_eq, not_or, Nat.not_le] at hOn
        simp only
        omega
  lt frame line stop hLine hStop hRow := by
    have hSkip := frame.le_skipEmpty line
    simp only [skipContent]
    split
    · next hEnd =>
        by_cases hEmpty : frame.isEmpty line = true
        · exact Frame.lt_skipEmpty (by omega) hEmpty
        · exfalso
          rw [Frame.skipEmpty_of_not_isEmpty hEmpty,
            hRow.resolve_left hEmpty] at hEnd
          simp at hEnd
          omega
    · exact hLine
  within frame line stop _ := by
    simp only [skipContent]
    split
    · exact True.intro
    · exact True.intro

/- The readers of every depth advance. -/
theorem readerAt_advances
    (levels : Nat) :
    (readerAt levels).Advances := by
  induction levels using readerAt.induct with
  | case1 => exact skipContent_advances
  | case2 =>
      exact
        readBlocks_advances skipContent_advances
          skipContent_advances
  | case3 levels ihQuoted ihListed =>
      exact readBlocks_advances ihQuoted ihListed

/- Every part of a document has rows and begins within it. -/
theorem blocks_within
    (text : Text) :
    AllWithin 0 (Frame.ofText text).limit (blocks text) :=
  AllWithin.mono (Nat.le_refl _) (Nat.min_le_left _ _)
    ((readerAt_advances maxLevels).within _ 0 _
      (Nat.le_refl _))

------------------------------------------------------------
-- The Order Of Blocks
------------------------------------------------------------

theorem length_readBlock_le_one
    (quoted listed : BlockReader)
    (frame : Frame)
    (line stop : Nat) :
    (readBlock quoted listed frame line stop).1.length ≤
      1 := by
  unfold readBlock
  split
  · exact Nat.le_refl _
  · split
    · exact Nat.le_refl _
    · split
      · exact Nat.le_refl _
      · split
        · exact Nat.le_refl _
        · grind

/- Blocks that are read one after another lie so too. -/
theorem readBlocksFrom_append_within
    {quoted listed : BlockReader}
    (hQuoted : quoted.Advances)
    (hListed : listed.Advances)
    {frame : Frame}
    {stop : Nat}
    (hStop : stop ≤ frame.limit)
    {fuel line : Nat}
    {before after : List Block}
    (hSplit :
      (readBlocksFrom quoted listed frame stop
          fuel line).1 =
        before ++ after) :
    ∃ middle,
      line ≤ middle ∧ AllWithin line middle before ∧
        AllWithin middle stop after := by
  induction fuel generalizing line before with
  | zero =>
      rw [readBlocksFrom] at hSplit
      rcases List.append_eq_nil_iff.mp hSplit.symm with
        ⟨rfl, rfl⟩
      exact ⟨line, Nat.le_refl _, True.intro, True.intro⟩
  | succ fuel ih =>
      cases before with
      | nil =>
          refine ⟨line, Nat.le_refl _, True.intro, ?_⟩
          rw [List.nil_append] at hSplit
          rw [← hSplit]
          exact
            AllWithin.mono (Nat.le_refl _)
              (Nat.min_le_left _ _)
              (readBlocksFrom_advances hQuoted hListed hStop
                (fuel + 1) line).2
      | cons first before =>
          have hSkip := frame.le_skipEmpty line
          have hOne :=
            length_readBlock_le_one quoted listed frame
              (frame.skipEmpty line) stop
          rw [readBlocksFrom_succ] at hSplit
          split at hSplit
          · simp at hSplit
          · split at hSplit
            · simp at hSplit
            · next hOn =>
                have hBlock :=
                  readBlock_advances hQuoted hListed
                    (Nat.lt_of_not_le (not_or.mp hOn).1)
                    hStop
                generalize readBlock quoted listed frame
                  (frame.skipEmpty line) stop = block
                    at hOne hBlock hSplit
                rcases block with ⟨blocks, next⟩
                have hAfter := frame.le_afterBlock stop next
                simp only at hOne hBlock hSplit
                cases blocks with
                | nil =>
                    rcases ih hSplit with
                      ⟨middle, hLe, hBefore, hMore⟩
                    exact
                      ⟨middle, by omega,
                        AllWithin.mono (by omega)
                          (Nat.le_refl _) hBefore,
                        hMore⟩
                | cons block blocks =>
                    have hNil : blocks = [] := by
                      simpa using hOne
                    subst hNil
                    rw [List.cons_append, List.nil_append,
                      List.cons_append,
                      List.cons.injEq] at hSplit
                    rcases hSplit with ⟨rfl, hSplit⟩
                    rcases ih hSplit with
                      ⟨middle, hLe, hBefore, hMore⟩
                    exact
                      ⟨middle, by omega,
                        ⟨Block.Within.mono (by omega)
                            (by omega) hBlock.2.1,
                          AllWithin.mono (by omega)
                            (Nat.le_refl _) hBefore⟩,
                        hMore⟩

/- The blocks of a document lie one after another. -/
theorem blocks_append_within
    {text : Text}
    {before after : List Block}
    (hSplit : blocks text = before ++ after) :
    ∃ middle,
      AllWithin 0 middle before ∧
        AllWithin middle (Frame.ofText text).limit after := by
  rcases readBlocksFrom_append_within
      (readerAt_advances 19) (readerAt_advances 18)
      (Nat.le_refl _) hSplit with
    ⟨middle, _, hBefore, hAfter⟩
  exact ⟨middle, hBefore, hAfter⟩

end Markdown

end ScriptWorkspace
