import ScriptWorkspace.Proofs.Markdown.Agreement

/-
  What is read before a row that opens a fence does not
  depend on the rows after it.

  A reader that ends at such a row or before it answers the
  same in every frame that agrees up to there. This goes
  through by induction over the levels of containers. At the
  top level the blocks before the fence are then the same,
  and the fence itself is read from its opening on.

  Main declarations:
    * `BlockReader.IsLocal`
    * `readBlock_local`
    * `readerAt_local`
    * `readBlocksFrom_split`
    * `blocks_split`
-/

namespace ScriptWorkspace

namespace Markdown

------------------------------------------------------------
-- Containers
------------------------------------------------------------

/-
  The reader answers the same in frames that agree up to a
  row that opens a fence, if it does not get past that row.
-/
def BlockReader.IsLocal (reader : BlockReader) : Prop :=
  ∀ (fence : Nat) (left right : Frame)
    (line stop stop' : Nat),
    left.AgreeUpTo fence right →
      line ≤ fence →
        SameUpTo fence stop stop' →
          stop ≤ left.limit →
            (reader left line stop).2 ≤ fence →
              reader right line stop' =
                reader left line stop

namespace Frame

variable {content : BlockReader}
variable {fence : Nat} {left right : Frame}
variable {line stop stop' : Nat}

theorem readQuote_local
    (hContent : content.IsLocal)
    (hAgree : left.AgreeUpTo fence right)
    (hLine : line < fence)
    (hStop : SameUpTo fence stop stop')
    (hLt : line < stop)
    (hLimit : stop ≤ left.limit)
    (hEnd : (left.readQuote content line stop).2 ≤ fence) :
    right.readQuote content line stop' =
      left.readQuote content line stop := by
  have hLimits := hAgree.limit
  have hSet := hAgree.setRow hLine (left.row line).unquoted
  rcases hAgree.quoteRows (stop - line) (stop' - line)
      (line + 1) hStop hLine (by omega)
      (left.row line).unquoted.isEmpty hSet with
    ⟨last, ended, quoted, quoted', hLeft, hRight, hQuoted,
      hLast⟩
  have hBounds :=
    left.quoteRows_bounds (stop - line)
      (Nat.succ_le_of_lt hLt)
      (left.row line).unquoted.isEmpty
      (left.setRow line (left.row line).unquoted)
  rw [hLeft] at hBounds
  simp only [readQuote, hLeft] at hEnd
  simp only [readQuote, ← hAgree.row (Nat.le_of_lt hLine),
    hLeft, hRight]
  rw [hContent fence _ _ line last last
    (hQuoted.within rfl (Int.le_refl _) hQuoted.listColumn
      _) (Nat.le_of_lt hLine) (Or.inl rfl) _ hEnd]
  · split <;> omega
  · split
    · exact Nat.le_refl _
    · exact Nat.le_trans hBounds.2.1 hLimit

theorem readItem_local
    (hContent : content.IsLocal)
    (hAgree : left.AgreeUpTo fence right)
    (marker : ItemMarker)
    (hLine : line < fence)
    (hInside : left.isOutdented line = false)
    (hStop : SameUpTo fence stop stop')
    (hLimit : stop ≤ left.limit)
    (hEnd :
      (left.readItem content marker line stop).2 ≤ fence) :
    right.readItem content marker line stop' =
      left.readItem content marker line stop := by
  have hColumn : 0 ≤ (left.row line).column :=
    Int.le_trans hAgree.opens.blockColumn_nonneg
      ((left.isOutdented_eq_false_iff line).mp hInside)
  have hBlanks :=
    le_leadingBlanks (left.row line).tabBase
      ((left.row line).column + marker.width)
      ((left.row line).body.drop marker.width)
  simp only [readItem] at hEnd
  simp only [readItem, ← hAgree.row (Nat.le_of_lt hLine),
    ← hAgree.isEmpty (Nat.succ_le_of_lt hLine)]
  generalize leadingBlanks (left.row line).tabBase
      ((left.row line).column + marker.width)
      ((left.row line).body.drop marker.width) = result
    at hBlanks hEnd ⊢
  rcases result with ⟨blanks, reached⟩
  simp only at hBlanks hEnd ⊢
  split at hEnd
  · next hEmpty =>
      rw [if_pos hEmpty, if_pos hEmpty]
      simp only [Prod.mk.injEq, true_and]
      simp only at hEnd
      omega
  · next hEmpty =>
      rw [if_neg hEmpty, if_neg hEmpty]
      refine
        hContent fence _ _ line stop stop'
          ((hAgree.setRow hLine _).within rfl ?_
            hAgree.blockColumn hAgree.limit)
          (Nat.le_of_lt hLine) hStop hLimit hEnd
      split <;> omega

theorem readItems_local
    (hContent : content.IsLocal)
    (hAdvances : content.Advances)
    (hAgree : left.AgreeUpTo fence right)
    (hStop : SameUpTo fence stop stop')
    (hLimit : stop ≤ left.limit)
    {fuel fuel' : Nat}
    (marker : ItemMarker)
    (hLine : line < fence)
    (hLt : line < stop)
    (hInside : left.isOutdented line = false)
    (hFuel : SameUpTo (fence - line) fuel fuel')
    (hEnd :
      (left.readItems content stop fuel marker line).2 ≤
        fence) :
    right.readItems content stop' fuel' marker line =
      left.readItems content stop fuel marker line := by
  induction fuel generalizing fuel' marker line with
  | zero =>
      cases fuel' with
      | zero => rfl
      | succ fuel' => omega
  | succ fuel ih =>
      cases fuel' with
      | zero => omega
      | succ fuel' =>
          have hNext :=
            Nat.le_trans
              (readItem_le_readItems hAdvances hLimit fuel
                marker line) hEnd
          have hMore :=
            (readItem_advances hAdvances marker hLt hLimit).1
          have hItem :=
            readItem_local hContent hAgree marker hLine
              hInside hStop hLimit hNext
          simp only [readItems] at hEnd
          simp only [readItems, hItem]
          generalize left.readItem content marker line stop =
            result at hNext hMore hEnd ⊢
          rcases result with ⟨blocks, next⟩
          simp only at hNext hMore hEnd ⊢
          have hBound :
              decide (next ≥ stop) = decide (next ≥ stop') :=
            decide_eq_decide.mpr (hStop.ge_iff hNext)
          simp only [← hBound, ← hAgree.row hNext,
            ← hAgree.isOutdented hNext,
            ← hAgree.isCode hNext, ← hAgree.endsList hNext]
          split at hEnd
          · next hIf => rw [if_pos hIf, if_pos hIf]
          · next hIf =>
              rw [if_neg hIf, if_neg hIf]
              simp only [ge_iff_le, Bool.or_eq_true,
                decide_eq_true_eq, not_or, Nat.not_le,
                Bool.not_eq_true] at hIf
              have hBefore : next < fence := by
                refine Nat.lt_of_le_of_ne hNext ?_
                rintro rfl
                rw [hAgree.opens.endsList] at hIf
                exact absurd hIf.2 (by simp)
              generalize
                (if marker.number.isSome = true then
                  ItemMarker.ordered? (left.row next).body
                else
                  ItemMarker.bullet? (left.row next).body) =
                    following at hEnd ⊢
              cases following with
              | none => rfl
              | some following =>
                  simp only at hEnd ⊢
                  split at hEnd
                  · next hMark =>
                      rw [if_pos hMark, if_pos hMark]
                  · next hMark =>
                      rw [if_neg hMark, if_neg hMark,
                        ih following hBefore hIf.1.1.1
                          hIf.1.1.2 (by omega) hEnd]

end Frame

------------------------------------------------------------
-- Blocks
------------------------------------------------------------

section Blocks

variable {quoted listed : BlockReader}
variable {fence : Nat} {left right : Frame}
variable {line stop stop' : Nat}

theorem readBlock_local
    (hQuoted : quoted.IsLocal)
    (hListed : listed.IsLocal)
    (hAdvances : listed.Advances)
    (hAgree : left.AgreeUpTo fence right)
    (hLine : line < fence)
    (hInside : left.isOutdented line = false)
    (hStop : SameUpTo fence stop stop')
    (hLt : line < stop)
    (hLimit : stop ≤ left.limit)
    (hEnd :
      (readBlock quoted listed left line stop).2 ≤ fence) :
    readBlock quoted listed right line stop' =
      readBlock quoted listed left line stop := by
  have hLe := Nat.le_of_lt hLine
  have hLimits := hAgree.limit
  simp only [readBlock] at hEnd
  simp only [readBlock, ← hAgree.tableColumns? hLine hStop,
    ← hAgree.isCode hLe, ← hAgree.fenceOpening? hLe,
    ← hAgree.opensQuote hLe, ← hAgree.opensBreak hLe,
    ← hAgree.itemMarker? hLe, ← hAgree.referenceStop? hLine,
    ← hAgree.htmlKind? hLe, ← hAgree.opensHeading hLe]
  cases hTable : left.tableColumns? line stop with
  | some columns =>
      simp only [hTable] at hEnd ⊢
      have hRows := Frame.le_of_tableColumns? hTable
      have hBounds :=
        left.tableStop_bounds (stop - line) hRows
      rw [hAgree.tableStop (stop - line) (stop' - line)
        (line + 2) hStop (by omega) (by omega)]
  | none =>
      simp only [hTable] at hEnd ⊢
      split at hEnd
      · next hIf =>
          rw [if_pos hIf, if_pos hIf,
            hAgree.codeStop (stop - line) (stop' - line)
              (line + 1) hStop hLine (by omega)]
      · next hIf =>
          rw [if_neg hIf, if_neg hIf]
          cases hFence : left.fenceOpening? line with
          | some opening =>
              simp only [hFence] at hEnd ⊢
              rw [hAgree.fenceBlock opening hLine hStop hEnd]
          | none =>
              simp only [hFence] at hEnd ⊢
              split at hEnd
              · next hIf =>
                  rw [if_pos hIf, if_pos hIf]
                  exact
                    Frame.readQuote_local hQuoted hAgree
                      hLine hStop hLt hLimit hEnd
              · next hIf =>
                  rw [if_neg hIf, if_neg hIf]
                  split at hEnd
                  · next hIf => rw [if_pos hIf, if_pos hIf]
                  · next hIf =>
                      rw [if_neg hIf, if_neg hIf]
                      cases hItem :
                        left.itemMarker? line with
                      | some marker =>
                          simp only [hItem] at hEnd ⊢
                          rw [Frame.readItems_local hListed
                            hAdvances hAgree hStop hLimit
                            marker hLine hLt hInside
                            (by omega) hEnd]
                      | none =>
                          simp only [hItem] at hEnd ⊢
                          cases hReference :
                            left.referenceStop? line with
                          | some last => rfl
                          | none =>
                              simp only [hReference] at hEnd ⊢
                              cases hHtml :
                                left.htmlKind? line with
                              | some kind =>
                                  simp only [hHtml] at hEnd ⊢
                                  rw [hAgree.htmlBlockStop
                                    kind hLine hStop hEnd]
                              | none =>
                                  rw [hAgree.underline?
                                      (stop - line)
                                      (stop' - line)
                                      (line + 1) hStop
                                      hLine (by omega),
                                    (hAgree.paragraphStop
                                      (left.limit - line)
                                      (right.limit - line)
                                      (line + 1) true
                                      hLine (by omega)).1]

/-
  A block from which the reading goes on at the fence or
  before it is read the same, and so is where it goes on.
-/
theorem readBlock_afterBlock_local
    (hQuoted : quoted.IsLocal)
    (hQuotedAdvances : quoted.Advances)
    (hListed : listed.IsLocal)
    (hListedAdvances : listed.Advances)
    (hAgree : left.AgreeUpTo fence right)
    (hInside : left.isOutdented line = false)
    (hStop : SameUpTo fence stop stop')
    (hLt : line < stop)
    (hLimit : stop ≤ left.limit)
    {next : Nat}
    (hNext :
      (readBlock quoted listed left line stop).2 = next)
    (hAfter : left.afterBlock stop next ≤ fence) :
    readBlock quoted listed right line stop' =
        readBlock quoted listed left line stop ∧
      right.afterBlock stop' next =
        left.afterBlock stop next := by
  have hLe : next ≤ fence :=
    Nat.le_trans (left.le_afterBlock stop next) hAfter
  have hMore :=
    (readBlock_advances hQuotedAdvances hListedAdvances
      hLt hLimit).1
  have hBound : decide (next < stop) =
      decide (next < stop') := by
    rw [decide_eq_decide]
    omega
  refine ⟨?_, ?_⟩
  · exact
      readBlock_local hQuoted hListed hListedAdvances hAgree
        (by omega) hInside hStop hLt hLimit (by omega)
  · unfold Frame.afterBlock
    rw [hBound, hAgree.isEmpty hLe]

theorem readBlocksFrom_local
    (hQuoted : quoted.IsLocal)
    (hQuotedAdvances : quoted.Advances)
    (hListed : listed.IsLocal)
    (hListedAdvances : listed.Advances)
    (hAgree : left.AgreeUpTo fence right)
    (hStop : SameUpTo fence stop stop')
    (hLimit : stop ≤ left.limit)
    {fuel fuel' : Nat}
    (hLine : line ≤ fence)
    (hFuel : SameUpTo (fence - line) fuel fuel')
    (hEnd :
      (readBlocksFrom quoted listed left stop fuel line).2 ≤
        fence) :
    readBlocksFrom quoted listed right stop' fuel' line =
      readBlocksFrom quoted listed left stop fuel line := by
  induction fuel generalizing fuel' line with
  | zero =>
      cases fuel' with
      | zero => rfl
      | succ fuel' => omega
  | succ fuel ih =>
      cases fuel' with
      | zero => omega
      | succ fuel' =>
          have hSkip := hAgree.skipEmpty hLine
          have hOver := left.le_skipEmpty line
          rw [readBlocksFrom_succ] at hEnd ⊢
          rw [readBlocksFrom_succ]
          simp only [← hSkip.1, ← hStop.ge_iff hLine,
            ← hStop.ge_iff hSkip.2,
            ← hAgree.isOutdented hSkip.2]
          split at hEnd
          · next hIf => rw [if_pos hIf, if_pos hIf]
          · next hIf =>
              rw [if_neg hIf, if_neg hIf]
              split at hEnd
              · next hIf => rw [if_pos hIf, if_pos hIf]
              · next hIf =>
                  rw [if_neg hIf, if_neg hIf]
                  have hLt :=
                    Nat.lt_of_not_le (not_or.mp hIf).1
                  have hAfter :=
                    Nat.le_trans
                      (readBlocksFrom_advances
                        hQuotedAdvances hListedAdvances
                        hLimit fuel _).1 hEnd
                  have hBlock :=
                    readBlock_afterBlock_local hQuoted
                      hQuotedAdvances hListed hListedAdvances
                      hAgree
                      (Bool.not_eq_true _ ▸ (not_or.mp hIf).2)
                      hStop hLt hLimit rfl hAfter
                  have hMore :=
                    (readBlock_advances hQuotedAdvances
                      hListedAdvances hLt hLimit).1
                  have hOn :=
                    left.le_afterBlock stop
                      (readBlock quoted listed left
                        (left.skipEmpty line) stop).2
                  rw [hBlock.1, hBlock.2,
                    ih hAfter (by omega) hEnd]

/- Readers of blocks are local if those for the content are. -/
theorem readBlocks_local
    (hQuoted : quoted.IsLocal)
    (hQuotedAdvances : quoted.Advances)
    (hListed : listed.IsLocal)
    (hListedAdvances : listed.Advances) :
    (readBlocks quoted listed).IsLocal := by
  intro fence left right line stop stop' hAgree hLine hStop
    hLimit hEnd
  exact
    readBlocksFrom_local hQuoted hQuotedAdvances hListed
      hListedAdvances hAgree hStop hLimit hLine (by omega)
      hEnd

end Blocks

theorem skipContent_local :
    BlockReader.IsLocal skipContent := by
  intro fence left right line stop stop' hAgree hLine hStop
    hLimit hEnd
  have hSkip := hAgree.skipEmpty hLine
  have hBound :
      decide (left.skipEmpty line ≥ stop) =
        decide (left.skipEmpty line ≥ stop') :=
    decide_eq_decide.mpr (hStop.ge_iff hSkip.2)
  simp only [skipContent] at hEnd
  simp only [skipContent, ← hSkip.1, ← hBound,
    ← hAgree.isOutdented hSkip.2]
  split at hEnd
  · next hIf => rw [if_pos hIf, if_pos hIf]
  · next hIf =>
      rw [if_neg hIf, if_neg hIf]
      simp only [Prod.mk.injEq, true_and]
      simp only at hEnd
      omega

/- The readers of every depth are local. -/
theorem readerAt_local
    (levels : Nat) :
    (readerAt levels).IsLocal := by
  induction levels using readerAt.induct with
  | case1 => exact skipContent_local
  | case2 =>
      exact
        readBlocks_local skipContent_local
          skipContent_advances skipContent_local
          skipContent_advances
  | case3 levels ihQuoted ihListed =>
      exact
        readBlocks_local ihQuoted (readerAt_advances _)
          ihListed (readerAt_advances _)

------------------------------------------------------------
-- Fences Of The Top Level
------------------------------------------------------------

/- A row without a pipe is no head of a table. -/
theorem Frame.tableColumns?_of_not_mem
    {frame : Frame}
    {line : Nat}
    (hPipe : '|' ∉ (frame.row line).body)
    (stop : Nat) :
    frame.tableColumns? line stop = none := by
  have hAny :
      ((frame.row line).body.any (· == '|')) = false := by
    rw [List.any_eq_false]
    intro c hMem
    rw [beq_iff_eq]
    rintro rfl
    exact hPipe hMem
  simp only [Frame.tableColumns?, hAny]
  split
  · rfl
  · split
    · rfl
    · rfl

theorem Frame.isCode_of_fenceOpening?
    {frame : Frame}
    {line : Nat}
    {opening : FenceOpening}
    (hOpening : frame.fenceOpening? line = some opening) :
    frame.isCode line = false ∧
      FenceOpening.ofText? (frame.row line).body =
        some opening := by
  unfold Frame.fenceOpening? at hOpening
  split at hOpening
  · simp at hOpening
  · next hCode => exact ⟨by simpa using hCode, hOpening⟩

section TopLevel

variable {quoted listed : BlockReader}

/- A fence is what a row without a table reads that opens it. -/
theorem readBlock_of_fenceOpening?
    {frame : Frame}
    {line stop : Nat}
    {opening : FenceOpening}
    (hTable : frame.tableColumns? line stop = none)
    (hOpening : frame.fenceOpening? line = some opening) :
    readBlock quoted listed frame line stop =
      ([.fence (frame.fenceBlock opening line stop)],
        (frame.fenceBlock opening line stop).stop) := by
  simp [readBlock, hTable, hOpening,
    Frame.isCode_of_fenceOpening? hOpening]

/- A fence is read at the row of its opening only. -/
theorem exists_fenceOpening?_of_mem
    {frame : Frame}
    {line stop : Nat}
    {fenced : Fence}
    (hMem :
      .fence fenced ∈
        (readBlock quoted listed frame line stop).1) :
    ∃ opening,
      frame.tableColumns? line stop = none ∧
        frame.fenceOpening? line = some opening ∧
        fenced = frame.fenceBlock opening line stop := by
  unfold readBlock at hMem
  split at hMem
  · simp at hMem
  · next hTable =>
      split at hMem
      · simp at hMem
      · split at hMem
        · next opening hOpening =>
            exact
              ⟨opening, hTable, hOpening, by
                simpa using hMem⟩
        · exfalso
          split at hMem
          · simp [Frame.readQuote] at hMem
          · grind

theorem exists_fenceOpening?_of_mem_readBlocksFrom
    {frame : Frame}
    {stop fuel line : Nat}
    {fenced : Fence}
    (hMem :
      .fence fenced ∈
        (readBlocksFrom quoted listed frame stop
          fuel line).1) :
    ∃ opening,
      fenced.first < stop ∧
        frame.tableColumns? fenced.first stop = none ∧
        frame.fenceOpening? fenced.first = some opening ∧
        fenced =
          frame.fenceBlock opening fenced.first stop := by
  induction fuel generalizing line with
  | zero => simp [readBlocksFrom] at hMem
  | succ fuel ih =>
      rw [readBlocksFrom_succ] at hMem
      split at hMem
      · simp at hMem
      · split at hMem
        · simp at hMem
        · next hOn =>
            rcases List.mem_append.mp hMem with hHere | hMore
            · rcases exists_fenceOpening?_of_mem hHere with
                ⟨opening, hTable, hOpening, rfl⟩
              exact
                ⟨opening,
                  Nat.lt_of_not_le (not_or.mp hOn).1,
                  hTable, hOpening, rfl⟩
            · exact ih hMore

/- Where an entry of a list lies in two parts of it. -/
theorem append_eq_append_cons
    {α : Type}
    {first second before after : List α}
    {entry : α}
    (hEq : first ++ second = before ++ entry :: after) :
    (∃ between,
      before = first ++ between ∧
        second = between ++ entry :: after) ∨
      ∃ rest, first = before ++ entry :: rest := by
  rcases List.append_eq_append_iff.mp hEq with
    ⟨between, hBefore, hSecond⟩ | ⟨rest, hFirst, hRest⟩
  · exact Or.inl ⟨between, hBefore, hSecond⟩
  · cases rest with
    | nil =>
        exact
          Or.inl
            ⟨[], by simpa using hFirst.symm, hRest.symm⟩
    | cons other rest =>
        rw [List.cons_append, List.cons.injEq] at hRest
        rw [← hRest.1] at hFirst
        exact Or.inr ⟨rest, hFirst⟩

/-
  A block with a fence among its parts is the fence, in
  every frame that agrees up to it.
-/
theorem readBlock_split
    {left right : Frame}
    {fenced : Fence}
    (hAgree : left.AgreeUpTo fenced.first right)
    {opening : FenceOpening}
    (hOpening :
      left.fenceOpening? fenced.first = some opening)
    (hPipe : '|' ∉ (left.row fenced.first).body)
    {line stop : Nat}
    (stop' : Nat)
    {before rest : List Block}
    (hSplit :
      (readBlock quoted listed left line stop).1 =
        before ++ .fence fenced :: rest) :
    line = fenced.first ∧
      before = [] ∧
        (readBlock quoted listed right line stop').1 =
          [.fence
            (right.fenceBlock opening fenced.first
              stop')] := by
  have hIn :
      .fence fenced ∈ before ++ .fence fenced :: rest :=
    List.mem_append_right _ List.mem_cons_self
  rw [← hSplit] at hIn
  rcases exists_fenceOpening?_of_mem hIn with
    ⟨other, hTable, hOther, hFenced⟩
  have hFirst : line = fenced.first := by
    rw [hFenced]
    rfl
  subst hFirst
  have hLe := Nat.le_refl fenced.first
  rw [readBlock_of_fenceOpening? hTable hOther] at hSplit
  rw [hAgree.row hLe] at hPipe
  rw [hAgree.fenceOpening? hLe] at hOpening
  refine ⟨rfl, ?_, ?_⟩
  · cases before with
    | nil => rfl
    | cons block before => simp at hSplit
  · rw [readBlock_of_fenceOpening?
      (Frame.tableColumns?_of_not_mem hPipe stop') hOpening]

/-
  Frames that agree up to a fence of the top level have the
  same blocks before it, and it is a fence in both of them.
-/
theorem readBlocksFrom_split
    (hQuoted : quoted.IsLocal)
    (hQuotedAdvances : quoted.Advances)
    (hListed : listed.IsLocal)
    (hListedAdvances : listed.Advances)
    {left right : Frame}
    {fenced : Fence}
    (hAgree : left.AgreeUpTo fenced.first right)
    {opening : FenceOpening}
    (hOpening :
      left.fenceOpening? fenced.first = some opening)
    (hPipe : '|' ∉ (left.row fenced.first).body)
    {stop stop' : Nat}
    (hStop : SameUpTo fenced.first stop stop')
    (hLimit : stop ≤ left.limit)
    {fuel fuel' line : Nat}
    (hLine : line ≤ fenced.first)
    (hFuel : SameUpTo (fenced.first - line) fuel fuel')
    {before after : List Block}
    (hSplit :
      (readBlocksFrom quoted listed left stop fuel line).1 =
        before ++ .fence fenced :: after) :
    ∃ after',
      (readBlocksFrom quoted listed right stop'
          fuel' line).1 =
        before ++
          .fence
              (right.fenceBlock opening fenced.first stop') ::
            after' := by
  induction fuel generalizing fuel' line before with
  | zero => simp [readBlocksFrom] at hSplit
  | succ fuel ih =>
      cases fuel' with
      | zero => omega
      | succ fuel' =>
          have hSkip := hAgree.skipEmpty hLine
          have hOver := left.le_skipEmpty line
          rw [readBlocksFrom_succ] at hSplit
          rw [readBlocksFrom_succ]
          simp only [← hSkip.1, ← hStop.ge_iff hLine,
            ← hStop.ge_iff hSkip.2,
            ← hAgree.isOutdented hSkip.2]
          split at hSplit
          · simp at hSplit
          · next hIf =>
              rw [if_neg hIf]
              split at hSplit
              · simp at hSplit
              · next hIf =>
                  rw [if_neg hIf]
                  have hLt :=
                    Nat.lt_of_not_le (not_or.mp hIf).1
                  have hInside :
                      left.isOutdented
                          (left.skipEmpty line) = false :=
                    Bool.not_eq_true _ ▸ (not_or.mp hIf).2
                  simp only at hSplit ⊢
                  rcases append_eq_append_cons hSplit with
                    ⟨between, rfl, hMore⟩ | ⟨rest, hHere⟩
                  · have hIn :
                        .fence fenced ∈
                          between ++ .fence fenced :: after :=
                      List.mem_append_right _
                        List.mem_cons_self
                    rw [← hMore] at hIn
                    have hWithin : fenced.Within _ _ :=
                      Block.Within.of_mem
                        (readBlocksFrom_advances
                          hQuotedAdvances hListedAdvances
                          hLimit fuel _).2 hIn
                    have hBlock :=
                      readBlock_afterBlock_local hQuoted
                        hQuotedAdvances hListed
                        hListedAdvances hAgree hInside hStop
                        hLt hLimit rfl hWithin.first_le
                    have hForward :=
                      (readBlock_advances hQuotedAdvances
                        hListedAdvances hLt hLimit).1
                    have hOn :=
                      left.le_afterBlock stop
                        (readBlock quoted listed left
                          (left.skipEmpty line) stop).2
                    have hFirst := hWithin.first_le
                    have hFuel' :
                        SameUpTo
                          (fenced.first -
                            left.afterBlock stop
                              (readBlock quoted listed left
                                (left.skipEmpty line)
                                stop).2)
                          fuel fuel' := by
                      omega
                    rcases ih hFirst hFuel' hMore with
                      ⟨after', hAfter⟩
                    refine ⟨after', ?_⟩
                    rw [hBlock.1, hBlock.2, hAfter,
                      List.append_assoc]
                  · rcases readBlock_split hAgree hOpening
                        hPipe stop' hHere with
                      ⟨_, hBefore, hBlock⟩
                    rw [hBlock, hBefore]
                    exact ⟨_, rfl⟩

end TopLevel

/- A document is read like the content of a container. -/
theorem blocks_eq (text : Text) :
    blocks text =
      (readBlocksFrom (readerAt 19) (readerAt 18)
        (Frame.ofText text) (Frame.ofText text).limit
        ((Frame.ofText text).limit + 1) 0).1 := rfl

/- A fence of a document is read from the row it begins at. -/
theorem exists_fenceOpening?_of_mem_blocks
    {text : Text}
    {fenced : Fence}
    (hMem : .fence fenced ∈ blocks text) :
    ∃ opening,
      fenced.first < (Frame.ofText text).limit ∧
        (Frame.ofText text).fenceOpening? fenced.first =
          some opening ∧
        fenced =
          (Frame.ofText text).fenceBlock opening fenced.first
            (Frame.ofText text).limit := by
  rcases exists_fenceOpening?_of_mem_readBlocksFrom hMem with
    ⟨opening, hLt, _, hOpening, hFenced⟩
  exact ⟨opening, hLt, hOpening, hFenced⟩

/-
  Documents that agree up to a fence of one of them have the
  same blocks before it, and it is a fence in both.
-/
theorem blocks_split
    {text text' : Text}
    {fenced : Fence}
    (hAgree :
      (Frame.ofText text).AgreeUpTo fenced.first
        (Frame.ofText text'))
    {opening : FenceOpening}
    (hOpening :
      (Frame.ofText text).fenceOpening? fenced.first =
        some opening)
    (hPipe :
      '|' ∉ ((Frame.ofText text).row fenced.first).body)
    {before after : List Block}
    (hSplit : blocks text = before ++ .fence fenced :: after) :
    ∃ after',
      blocks text' =
        before ++
          .fence
              ((Frame.ofText text').fenceBlock opening
                fenced.first (Frame.ofText text').limit) ::
            after' := by
  have hLimit := hAgree.limit
  rw [blocks_eq] at hSplit
  rw [blocks_eq]
  exact
    readBlocksFrom_split (readerAt_local _)
      (readerAt_advances _) (readerAt_local _)
      (readerAt_advances _) hAgree hOpening hPipe hLimit
      (Nat.le_refl _) (Nat.zero_le _) (by omega) hSplit

end Markdown

end ScriptWorkspace
