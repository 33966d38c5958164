import ScriptWorkspace.Proofs.Markdown.Progress

/-
  Frames that agree up to a row that opens a fence.

  Such a row is no code, it is not empty, and it interrupts
  every other block. So the loops that look for the end of a
  block stop there at the latest, and they end at the same
  row in two frames that agree up to it, wherever their rows
  differ after it.

  Main declarations:
    * `SameUpTo`
    * `Frame.OpensFence`
    * `Frame.AgreeUpTo`
    * `Frame.AgreeUpTo.interrupts`
    * `Frame.AgreeUpTo.paragraphStop`
    * `Frame.AgreeUpTo.quoteRows`
-/

namespace ScriptWorkspace

namespace Markdown

------------------------------------------------------------
-- Bounds
------------------------------------------------------------

/- Two bounds that are equal or lie past a given one. -/
abbrev SameUpTo (bound first second : Nat) : Prop :=
  first = second ∨ bound < first ∧ bound < second

theorem SameUpTo.symm
    {bound first second : Nat}
    (hSame : SameUpTo bound first second) :
    SameUpTo bound second first := by
  omega

/- Which rows reach the bounds is the same. -/
theorem SameUpTo.ge_iff
    {bound first second line : Nat}
    (hSame : SameUpTo bound first second)
    (hLine : line ≤ bound) :
    line ≥ first ↔ line ≥ second := by
  omega

------------------------------------------------------------
-- Rows That Open Fences
------------------------------------------------------------

/- A text begins with the run of one character in front. -/
theorem replicate_append_drop
    (mark : Char)
    (text : Text) :
    List.replicate (text.takeWhile (· == mark)).length mark ++
        text.drop (text.takeWhile (· == mark)).length =
      text := by
  induction text with
  | nil => rfl
  | cons c rest ih =>
      cases hMark : c == mark with
      | false => simp [hMark]
      | true =>
          rw [List.takeWhile_cons, if_pos hMark,
            List.length_cons, List.replicate_succ,
            List.drop_succ_cons, List.cons_append, ih,
            eq_of_beq hMark]

/- A text that opens a fence begins with its run of marks. -/
theorem eq_of_ofText?
    {text : Text}
    {opening : FenceOpening}
    (hOpening : FenceOpening.ofText? text = some opening) :
    (opening.mark = '`' ∨ opening.mark = '~') ∧
      3 ≤ opening.length ∧
      text =
        List.replicate opening.length opening.mark ++
          opening.info := by
  cases text with
  | nil => simp [FenceOpening.ofText?] at hOpening
  | cons mark rest =>
      simp only [FenceOpening.ofText?] at hOpening
      split at hOpening
      · simp at hOpening
      · next hMark =>
          split at hOpening
          · simp at hOpening
          · next hLength =>
              split at hOpening
              · simp at hOpening
              · rw [Option.some.injEq] at hOpening
                subst hOpening
                refine ⟨?_, Nat.le_of_not_lt hLength, ?_⟩
                · apply Decidable.byContradiction
                  intro hNot
                  exact hMark (not_or.mp hNot)
                simp only
                rw [Nat.add_sub_cancel_left, Nat.add_comm 1,
                  List.replicate_succ, List.cons_append,
                  replicate_append_drop]

namespace Frame

/-
  A row opens a fence in the frame and in the frames of the
  containers before it, which begin at its margin or right
  of it.
-/
structure OpensFence
    (fence : Nat)
    (frame : Frame) : Prop where
  opens :
    (FenceOpening.ofText? (frame.row fence).body).isSome
  column_nonneg : 0 ≤ (frame.row fence).column
  column_lt : (frame.row fence).column < 4
  blockColumn_nonneg : 0 ≤ frame.blockColumn

namespace OpensFence

variable {fence : Nat} {frame : Frame}

/- The mark in front is a backtick or a tilde. -/
theorem exists_body
    (hFence : frame.OpensFence fence) :
    ∃ mark rest,
      (mark = '`' ∨ mark = '~') ∧
        (frame.row fence).body = mark :: rest := by
  rcases Option.isSome_iff_exists.mp hFence.opens with
    ⟨opening, hOpening⟩
  rcases eq_of_ofText? hOpening with
    ⟨hMark, hLength, hBody⟩
  obtain ⟨more, hMore⟩ :
      ∃ more, opening.length = more + 1 :=
    ⟨opening.length - 1, by omega⟩
  rw [hMore, List.replicate_succ, List.cons_append] at hBody
  exact ⟨_, _, hMark, hBody⟩

theorem isEmpty
    (hFence : frame.OpensFence fence) :
    frame.isEmpty fence = false := by
  rcases hFence.exists_body with ⟨mark, rest, _, hBody⟩
  simp [Frame.isEmpty, Row.isEmpty, hBody]

theorem isCode
    (hFence : frame.OpensFence fence) :
    frame.isCode fence = false := by
  have hColumn := hFence.column_lt
  have hBlock := hFence.blockColumn_nonneg
  simp only [Frame.isCode, decide_eq_false_iff_not]
  omega

theorem continues
    (hFence : frame.OpensFence fence) :
    frame.continues fence = false := by
  have hColumn := hFence.column_nonneg
  simp only [Frame.continues, hFence.isCode, Bool.false_or,
    decide_eq_false_iff_not]
  omega

theorem endsList
    (hFence : frame.OpensFence fence) :
    frame.endsList fence = true := by
  simp [Frame.endsList, fenceOpening?, hFence.isCode,
    hFence.opens]

theorem endsQuote
    (hFence : frame.OpensFence fence) :
    frame.endsQuote fence = true := by
  simp [Frame.endsQuote, hFence.endsList]

theorem interrupts
    (hFence : frame.OpensFence fence)
    (inParagraph : Bool)
    (stop : Nat) :
    frame.interrupts inParagraph fence stop = true := by
  simp [Frame.interrupts, hFence.endsList]

theorem head?_body
    (hFence : frame.OpensFence fence) :
    ((frame.row fence).body.head? == some '>') = false := by
  rcases hFence.exists_body with
    ⟨mark, rest, rfl | rfl, hBody⟩
  · rw [hBody]
    rfl
  · rw [hBody]
    rfl

theorem isUnderline
    (hFence : frame.OpensFence fence) :
    Markdown.isUnderline (frame.row fence).body = false := by
  rcases hFence.exists_body with
    ⟨mark, rest, rfl | rfl, hBody⟩
  · rw [hBody]
    rfl
  · rw [hBody]
    rfl

/- Every loop stops at the row. -/
theorem paragraphStop
    (hFence : frame.OpensFence fence)
    (inParagraph : Bool)
    (fuel : Nat) :
    frame.paragraphStop inParagraph fuel fence = fence := by
  cases fuel with
  | zero => rfl
  | succ fuel =>
      simp [Frame.paragraphStop, hFence.isEmpty,
        hFence.continues, hFence.interrupts]

theorem underline?
    (hFence : frame.OpensFence fence)
    (stop fuel : Nat) :
    frame.underline? stop fuel fence = none := by
  have hColumn := hFence.column_nonneg
  cases fuel with
  | zero => rfl
  | succ fuel =>
      simp only [Frame.underline?, hFence.isEmpty,
        hFence.isCode, hFence.isUnderline,
        hFence.interrupts]
      simp
      omega

theorem codeStop
    (hFence : frame.OpensFence fence)
    (stop fuel last : Nat) :
    frame.codeStop stop fuel fence last = last := by
  cases fuel with
  | zero => rfl
  | succ fuel =>
      simp [Frame.codeStop, hFence.isEmpty, hFence.isCode]

theorem tableStop
    (hFence : frame.OpensFence fence)
    (stop fuel : Nat) :
    frame.tableStop stop fuel fence = fence := by
  cases fuel with
  | zero => rfl
  | succ fuel =>
      simp [Frame.tableStop, hFence.endsQuote]

theorem skipEmptyFrom
    (hFence : frame.OpensFence fence)
    (fuel : Nat) :
    frame.skipEmptyFrom fuel fence = fence := by
  cases fuel with
  | zero => rfl
  | succ fuel =>
      simp [Frame.skipEmptyFrom, hFence.isEmpty]

end OpensFence

------------------------------------------------------------
-- Agreement
------------------------------------------------------------

/-
  Two frames with the same rows up to one that opens a fence,
  and with the same place in their containers.
-/
structure AgreeUpTo
    (fence : Nat)
    (left right : Frame) : Prop where
  opens : left.OpensFence fence
  rows :
    ∀ line, line ≤ fence →
      left.rows[line]? = right.rows[line]?
  blockColumn : left.blockColumn = right.blockColumn
  listColumn : left.listColumn = right.listColumn
  limit : SameUpTo fence left.limit right.limit

namespace AgreeUpTo

variable {fence : Nat} {left right : Frame}

theorem row
    (hAgree : left.AgreeUpTo fence right)
    {line : Nat}
    (hLine : line ≤ fence) :
    left.row line = right.row line := by
  unfold Frame.row
  rw [hAgree.rows line hLine]

theorem symm
    (hAgree : left.AgreeUpTo fence right) :
    right.AgreeUpTo fence left where
  opens :=
    { opens := by
        rw [← hAgree.row (Nat.le_refl _)]
        exact hAgree.opens.opens
      column_nonneg := by
        rw [← hAgree.row (Nat.le_refl _)]
        exact hAgree.opens.column_nonneg
      column_lt := by
        rw [← hAgree.row (Nat.le_refl _)]
        exact hAgree.opens.column_lt
      blockColumn_nonneg := by
        rw [← hAgree.blockColumn]
        exact hAgree.opens.blockColumn_nonneg }
  rows line hLine := (hAgree.rows line hLine).symm
  blockColumn := hAgree.blockColumn.symm
  listColumn := hAgree.listColumn.symm
  limit := hAgree.limit.symm

/- Both can be entered by replacing a row before the fence. -/
theorem setRow
    (hAgree : left.AgreeUpTo fence right)
    {line : Nat}
    (hLine : line < fence)
    (row : Row) :
    (left.setRow line row).AgreeUpTo fence
      (right.setRow line row) where
  opens :=
    { opens := by
        rw [row_setRow_of_ne _ (Nat.ne_of_lt hLine)]
        exact hAgree.opens.opens
      column_nonneg := by
        rw [row_setRow_of_ne _ (Nat.ne_of_lt hLine)]
        exact hAgree.opens.column_nonneg
      column_lt := by
        rw [row_setRow_of_ne _ (Nat.ne_of_lt hLine)]
        exact hAgree.opens.column_lt
      blockColumn_nonneg := hAgree.opens.blockColumn_nonneg }
  rows other hOther := by
    have hRows := hAgree.rows other hOther
    have hLine := hAgree.rows line (Nat.le_of_lt hLine)
    simp only [Frame.setRow, Array.getElem?_setIfInBounds]
    split
    · next hEq =>
        subst hEq
        by_cases hIn : line < left.rows.size
        · have hIn' : line < right.rows.size := by
            rw [Array.getElem?_eq_getElem hIn] at hLine
            exact
              (Array.getElem?_eq_some_iff.mp
                hLine.symm).1
          rw [if_pos hIn, if_pos hIn']
        · have hIn' : ¬ line < right.rows.size := by
            rw [Array.getElem?_eq_none
              (Nat.le_of_not_lt hIn)] at hLine
            exact
              Nat.not_lt.mpr
                (Array.getElem?_eq_none_iff.mp hLine.symm)
          rw [if_neg hIn, if_neg hIn']
    · exact hRows
  blockColumn := hAgree.blockColumn
  listColumn := hAgree.listColumn
  limit := hAgree.limit

/- What containers set for their content. -/
theorem within
    (hAgree : left.AgreeUpTo fence right)
    {blockColumn blockColumn' : Int}
    (hBlock : blockColumn = blockColumn')
    (hNonneg : 0 ≤ blockColumn)
    {listColumn listColumn' : Int}
    (hList : listColumn = listColumn')
    {limit limit' : Nat}
    (hLimit : SameUpTo fence limit limit') :
    AgreeUpTo fence
      { left with blockColumn, listColumn, limit }
      { right with
        blockColumn := blockColumn'
        listColumn := listColumn'
        limit := limit' } where
  opens :=
    { opens := hAgree.opens.opens
      column_nonneg := hAgree.opens.column_nonneg
      column_lt := hAgree.opens.column_lt
      blockColumn_nonneg := hNonneg }
  rows := hAgree.rows
  blockColumn := hBlock
  listColumn := hList
  limit := hLimit

section Rows

variable {line : Nat}

theorem isEmpty
    (hAgree : left.AgreeUpTo fence right)
    (hLine : line ≤ fence) :
    left.isEmpty line = right.isEmpty line := by
  unfold Frame.isEmpty
  rw [hAgree.row hLine]

theorem isCode
    (hAgree : left.AgreeUpTo fence right)
    (hLine : line ≤ fence) :
    left.isCode line = right.isCode line := by
  unfold Frame.isCode
  rw [hAgree.row hLine, hAgree.blockColumn]

theorem isOutdented
    (hAgree : left.AgreeUpTo fence right)
    (hLine : line ≤ fence) :
    left.isOutdented line = right.isOutdented line := by
  unfold Frame.isOutdented
  rw [hAgree.row hLine, hAgree.blockColumn]

theorem continues
    (hAgree : left.AgreeUpTo fence right)
    (hLine : line ≤ fence) :
    left.continues line = right.continues line := by
  unfold Frame.continues
  rw [hAgree.row hLine, hAgree.isCode hLine]

theorem fenceOpening?
    (hAgree : left.AgreeUpTo fence right)
    (hLine : line ≤ fence) :
    left.fenceOpening? line = right.fenceOpening? line := by
  unfold Frame.fenceOpening?
  rw [hAgree.row hLine, hAgree.isCode hLine]

theorem opensQuote
    (hAgree : left.AgreeUpTo fence right)
    (hLine : line ≤ fence) :
    left.opensQuote line = right.opensQuote line := by
  unfold Frame.opensQuote
  rw [hAgree.row hLine, hAgree.isCode hLine]

theorem opensBreak
    (hAgree : left.AgreeUpTo fence right)
    (hLine : line ≤ fence) :
    left.opensBreak line = right.opensBreak line := by
  unfold Frame.opensBreak
  rw [hAgree.row hLine, hAgree.isCode hLine]

theorem opensHeading
    (hAgree : left.AgreeUpTo fence right)
    (hLine : line ≤ fence) :
    left.opensHeading line = right.opensHeading line := by
  unfold Frame.opensHeading
  rw [hAgree.row hLine, hAgree.isCode hLine]

theorem htmlKind?
    (hAgree : left.AgreeUpTo fence right)
    (hLine : line ≤ fence) :
    left.htmlKind? line = right.htmlKind? line := by
  unfold Frame.htmlKind?
  rw [hAgree.row hLine, hAgree.isCode hLine]

theorem itemMarker?
    (hAgree : left.AgreeUpTo fence right)
    (hLine : line ≤ fence) :
    left.itemMarker? line = right.itemMarker? line := by
  unfold Frame.itemMarker?
  rw [hAgree.row hLine, hAgree.isCode hLine,
    hAgree.blockColumn, hAgree.listColumn]

theorem opensList
    (hAgree : left.AgreeUpTo fence right)
    (hLine : line ≤ fence)
    (inParagraph : Bool) :
    left.opensList inParagraph line =
      right.opensList inParagraph line := by
  unfold Frame.opensList
  rw [hAgree.row hLine, hAgree.itemMarker? hLine,
    hAgree.isOutdented hLine]

theorem endsList
    (hAgree : left.AgreeUpTo fence right)
    (hLine : line ≤ fence) :
    left.endsList line = right.endsList line := by
  unfold Frame.endsList
  rw [hAgree.fenceOpening? hLine, hAgree.opensQuote hLine,
    hAgree.opensBreak hLine]

theorem endsQuote
    (hAgree : left.AgreeUpTo fence right)
    (hLine : line ≤ fence) :
    left.endsQuote line = right.endsQuote line := by
  unfold Frame.endsQuote
  rw [hAgree.endsList hLine, hAgree.opensList hLine,
    hAgree.htmlKind? hLine, hAgree.opensHeading hLine]

/- The head of a table takes one row more. -/
theorem tableColumns?
    (hAgree : left.AgreeUpTo fence right)
    (hLine : line < fence)
    {stop stop' : Nat}
    (hStop : SameUpTo fence stop stop') :
    left.tableColumns? line stop =
      right.tableColumns? line stop' := by
  have hShort :
      decide (line + 2 > stop) =
        decide (line + 2 > stop') := by
    rw [decide_eq_decide]
    omega
  have hRow := hAgree.row (Nat.le_of_lt hLine)
  have hNext := hAgree.row hLine
  have hCode := hAgree.isCode (Nat.le_of_lt hLine)
  have hCode' := hAgree.isCode hLine
  have hOut := hAgree.isOutdented hLine
  simp only [Nat.succ_eq_add_one] at hNext hCode' hOut
  unfold Frame.tableColumns?
  simp only [hShort, hRow, hNext, hCode, hCode', hOut]

theorem interrupts
    (hAgree : left.AgreeUpTo fence right)
    (hLine : line < fence)
    (inParagraph : Bool)
    {stop stop' : Nat}
    (hStop : SameUpTo fence stop stop') :
    left.interrupts inParagraph line stop =
      right.interrupts inParagraph line stop' := by
  have hLe := Nat.le_of_lt hLine
  unfold Frame.interrupts
  rw [hAgree.tableColumns? hLine hStop,
    hAgree.endsList hLe, hAgree.opensList hLe,
    hAgree.htmlKind? hLe, hAgree.opensHeading hLe]

end Rows

------------------------------------------------------------
-- Loops That Stop At The Fence
------------------------------------------------------------

section Loops

variable (fuel fuel' line : Nat)

theorem skipEmptyFrom
    (hAgree : left.AgreeUpTo fence right)
    (hLine : line ≤ fence)
    (hFuel : SameUpTo (fence - line) fuel fuel') :
    left.skipEmptyFrom fuel line =
        right.skipEmptyFrom fuel' line ∧
      left.skipEmptyFrom fuel line ≤ fence := by
  induction fuel generalizing fuel' line with
  | zero =>
      cases fuel' with
      | zero => exact ⟨rfl, hLine⟩
      | succ fuel' => omega
  | succ fuel ih =>
      rcases Nat.lt_or_eq_of_le hLine with hLt | rfl
      · cases fuel' with
        | zero => omega
        | succ fuel' =>
            have hLimit := hAgree.limit
            have hBound :
                decide (line < left.limit) =
                  decide (line < right.limit) := by
              rw [decide_eq_decide]
              omega
            simp only [Frame.skipEmptyFrom, hBound,
              hAgree.isEmpty hLine]
            split
            · exact ih fuel' (line + 1) hLt (by omega)
            · exact ⟨rfl, hLine⟩
      · rw [hAgree.opens.skipEmptyFrom,
          hAgree.symm.opens.skipEmptyFrom]
        exact ⟨rfl, hLine⟩

theorem skipEmpty
    (hAgree : left.AgreeUpTo fence right)
    {line : Nat}
    (hLine : line ≤ fence) :
    left.skipEmpty line = right.skipEmpty line ∧
      left.skipEmpty line ≤ fence :=
  hAgree.skipEmptyFrom _ _ line hLine
    (by
      have hLimit := hAgree.limit
      omega)

theorem paragraphStop
    (hAgree : left.AgreeUpTo fence right)
    (inParagraph : Bool)
    (hLine : line ≤ fence)
    (hFuel : SameUpTo (fence - line) fuel fuel') :
    left.paragraphStop inParagraph fuel line =
        right.paragraphStop inParagraph fuel' line ∧
      left.paragraphStop inParagraph fuel line ≤ fence := by
  induction fuel generalizing fuel' line with
  | zero =>
      cases fuel' with
      | zero => exact ⟨rfl, hLine⟩
      | succ fuel' => omega
  | succ fuel ih =>
      rcases Nat.lt_or_eq_of_le hLine with hLt | rfl
      · cases fuel' with
        | zero => omega
        | succ fuel' =>
            have hBound :
                decide (line ≥ left.limit) =
                  decide (line ≥ right.limit) :=
              decide_eq_decide.mpr
                (hAgree.limit.ge_iff hLine)
            simp only [Frame.paragraphStop, hBound,
              hAgree.isEmpty hLine, hAgree.continues hLine,
              hAgree.interrupts hLt _ hAgree.limit]
            split
            · exact ⟨rfl, hLine⟩
            · split
              · exact ⟨rfl, hLine⟩
              · exact ih fuel' (line + 1) hLt (by omega)
      · rw [hAgree.opens.paragraphStop,
          hAgree.symm.opens.paragraphStop]
        exact ⟨rfl, hLine⟩

theorem underline?
    (hAgree : left.AgreeUpTo fence right)
    {stop stop' : Nat}
    (hStop : SameUpTo fence stop stop')
    (hLine : line ≤ fence)
    (hFuel : SameUpTo (fence - line) fuel fuel') :
    left.underline? stop fuel line =
      right.underline? stop' fuel' line := by
  induction fuel generalizing fuel' line with
  | zero =>
      cases fuel' with
      | zero => rfl
      | succ fuel' => omega
  | succ fuel ih =>
      rcases Nat.lt_or_eq_of_le hLine with hLt | rfl
      · cases fuel' with
        | zero => omega
        | succ fuel' =>
            have hBound :
                decide (line ≥ stop) =
                  decide (line ≥ stop') :=
              decide_eq_decide.mpr (hStop.ge_iff hLine)
            have hOn :=
              ih fuel' (line + 1) hLt (by omega)
            simp only [Frame.underline?, hBound, hOn,
              hAgree.isEmpty hLine, hAgree.isCode hLine,
              hAgree.isOutdented hLine, hAgree.row hLine,
              hAgree.interrupts hLt _ hStop]
      · rw [hAgree.opens.underline?,
          hAgree.symm.opens.underline?]

theorem codeStop
    (hAgree : left.AgreeUpTo fence right)
    {stop stop' : Nat}
    (hStop : SameUpTo fence stop stop')
    (hLine : line ≤ fence)
    (hFuel : SameUpTo (fence - line) fuel fuel')
    (last : Nat) :
    left.codeStop stop fuel line last =
      right.codeStop stop' fuel' line last := by
  induction fuel generalizing fuel' line last with
  | zero =>
      cases fuel' with
      | zero => rfl
      | succ fuel' => omega
  | succ fuel ih =>
      rcases Nat.lt_or_eq_of_le hLine with hLt | rfl
      · cases fuel' with
        | zero => omega
        | succ fuel' =>
            have hBound :
                (line ≥ stop) = (line ≥ stop') :=
              propext (hStop.ge_iff hLine)
            have hOn :=
              ih fuel' (line + 1) hLt (by omega)
            simp only [Frame.codeStop, hBound, hOn,
              hAgree.isEmpty hLine, hAgree.isCode hLine]
      · rw [hAgree.opens.codeStop,
          hAgree.symm.opens.codeStop]

theorem tableStop
    (hAgree : left.AgreeUpTo fence right)
    {stop stop' : Nat}
    (hStop : SameUpTo fence stop stop')
    (hLine : line ≤ fence)
    (hFuel : SameUpTo (fence - line) fuel fuel') :
    left.tableStop stop fuel line =
      right.tableStop stop' fuel' line := by
  induction fuel generalizing fuel' line with
  | zero =>
      cases fuel' with
      | zero => rfl
      | succ fuel' => omega
  | succ fuel ih =>
      rcases Nat.lt_or_eq_of_le hLine with hLt | rfl
      · cases fuel' with
        | zero => omega
        | succ fuel' =>
            have hBound :
                decide (line ≥ stop) =
                  decide (line ≥ stop') :=
              decide_eq_decide.mpr (hStop.ge_iff hLine)
            have hOn :=
              ih fuel' (line + 1) hLt (by omega)
            simp only [Frame.tableStop, hBound, hOn,
              hAgree.isOutdented hLine,
              hAgree.endsQuote hLine, hAgree.row hLine,
              hAgree.isCode hLine]
      · rw [hAgree.opens.tableStop,
          hAgree.symm.opens.tableStop]

theorem referenceStop?
    (hAgree : left.AgreeUpTo fence right)
    {line : Nat}
    (hLine : line < fence) :
    left.referenceStop? line =
      right.referenceStop? line := by
  have hLe := Nat.le_of_lt hLine
  have hLimit := hAgree.limit
  have hStop :=
    hAgree.paragraphStop (left.limit - line)
      (right.limit - line) (line + 1) false hLine (by omega)
  have hBodies :
      (List.range' line
          (right.paragraphStop false (right.limit - line)
            (line + 1) - line)).map
          (fun i => (left.row i).body) =
        (List.range' line
          (right.paragraphStop false (right.limit - line)
            (line + 1) - line)).map
          (fun i => (right.row i).body) := by
    apply List.map_congr_left
    intro i hMem
    have hIn := List.mem_range'_1.mp hMem
    rw [hAgree.row (by omega)]
  unfold Frame.referenceStop?
  simp only [hAgree.isCode hLe, hAgree.row hLe, hStop.1,
    hBodies]

/-
  The rows of a quotation end at the fence at the latest, and
  the frames with these rows agree up to it too.
-/
theorem quoteRows
    (hAgree : left.AgreeUpTo fence right)
    {stop stop' : Nat}
    (hStop : SameUpTo fence stop stop')
    (hLine : line ≤ fence)
    (hFuel : SameUpTo (fence - line) fuel fuel')
    (lastEmpty : Bool)
    {inner inner' : Frame}
    (hInner : inner.AgreeUpTo fence inner') :
    ∃ last ended quoted quoted',
      left.quoteRows stop fuel line lastEmpty inner =
          (quoted, last, ended) ∧
        right.quoteRows stop' fuel' line lastEmpty inner' =
          (quoted', last, ended) ∧
        quoted.AgreeUpTo fence quoted' ∧ last ≤ fence := by
  have hHere :
      ∀ ended : Bool,
        ∃ last ended' quoted quoted',
          (inner, line, ended) = (quoted, last, ended') ∧
            (inner', line, ended) =
              (quoted', last, ended') ∧
            quoted.AgreeUpTo fence quoted' ∧
            last ≤ fence :=
    fun ended =>
      ⟨line, ended, inner, inner', rfl, rfl, hInner, hLine⟩
  induction fuel generalizing fuel' line lastEmpty inner
      inner' with
  | zero =>
      cases fuel' with
      | zero => exact hHere false
      | succ fuel' => omega
  | succ fuel ih =>
      cases fuel' with
      | zero => omega
      | succ fuel' =>
          have hBound :
              decide (line ≥ stop) = decide (line ≥ stop') :=
            decide_eq_decide.mpr (hStop.ge_iff hLine)
          have hRow := hAgree.row hLine
          have hOn :
              line < fence → ∀ (lastEmpty : Bool) (row : Row),
                ∃ last ended quoted quoted',
                  left.quoteRows stop fuel (line + 1)
                      lastEmpty (inner.setRow line row) =
                        (quoted, last, ended) ∧
                    right.quoteRows stop' fuel' (line + 1)
                      lastEmpty (inner'.setRow line row) =
                        (quoted', last, ended) ∧
                    quoted.AgreeUpTo fence quoted' ∧
                    last ≤ fence :=
            fun hLt lastEmpty row =>
              have hSet := hInner.setRow hLt row
              ih fuel' (line + 1) hLt (by omega) lastEmpty
                hSet fun ended =>
                ⟨line + 1, ended, _, _, rfl, rfl, hSet, hLt⟩
          simp only [Frame.quoteRows, hBound, ← hRow,
            ← hAgree.isOutdented hLine,
            ← hAgree.endsQuote hLine]
          rcases Nat.lt_or_eq_of_le hLine with hLt | rfl
          · split
            · exact hHere false
            · split
              · exact hOn hLt _ _
              · split
                · exact hHere false
                · split
                  · exact hHere true
                  · exact hOn hLt _ _
          · simp only [hAgree.opens.head?_body,
              hAgree.opens.endsQuote, Bool.false_and,
              Bool.false_eq_true, if_false, if_true]
            split
            · exact hHere false
            · split
              · exact hHere false
              · exact hHere true

end Loops

------------------------------------------------------------
-- Loops That May Pass The Fence
------------------------------------------------------------

section Passing

variable {fuel fuel' line stop stop' : Nat}

/- A fence that ends up to there ends so in both frames. -/
theorem fenceStop
    (hAgree : left.AgreeUpTo fence right)
    (opening : FenceOpening)
    (hStop : SameUpTo fence stop stop')
    (hFuel : SameUpTo (fence - line) fuel fuel')
    (hEnd :
      (left.fenceStop opening stop fuel line).1 ≤ fence) :
    right.fenceStop opening stop' fuel' line =
      left.fenceStop opening stop fuel line := by
  induction fuel generalizing fuel' line with
  | zero =>
      cases fuel' with
      | zero => rfl
      | succ fuel' => omega
  | succ fuel ih =>
      have hLine : line ≤ fence :=
        Nat.le_trans (left.le_fenceStop _ _ _ _) hEnd
      cases fuel' with
      | zero => omega
      | succ fuel' =>
          have hBound : (line ≥ stop) = (line ≥ stop') :=
            propext (hStop.ge_iff hLine)
          simp only [Frame.fenceStop] at hEnd
          simp only [Frame.fenceStop, ← hBound,
            ← hAgree.row hLine, ← hAgree.isOutdented hLine,
            ← hAgree.isCode hLine]
          split at hEnd
          · next hIf => rw [if_pos hIf, if_pos hIf]
          · next hIf =>
              rw [if_neg hIf, if_neg hIf]
              split at hEnd
              · next hIf => rw [if_pos hIf, if_pos hIf]
              · next hIf =>
                  rw [if_neg hIf, if_neg hIf]
                  split at hEnd
                  · next hIf => rw [if_pos hIf, if_pos hIf]
                  · next hIf =>
                      rw [if_neg hIf, if_neg hIf]
                      have hNext :=
                        left.le_fenceStop opening stop fuel
                          (line + 1)
                      exact ih (by omega) hEnd

theorem htmlStop
    (hAgree : left.AgreeUpTo fence right)
    (kind : HtmlKind)
    (hStop : SameUpTo fence stop stop')
    (hFuel : SameUpTo (fence - line) fuel fuel')
    (hEnd : left.htmlStop kind stop fuel line ≤ fence) :
    right.htmlStop kind stop' fuel' line =
      left.htmlStop kind stop fuel line := by
  induction fuel generalizing fuel' line with
  | zero =>
      cases fuel' with
      | zero => rfl
      | succ fuel' => omega
  | succ fuel ih =>
      have hLine : line ≤ fence :=
        Nat.le_trans (left.le_htmlStop _ _ _ _) hEnd
      cases fuel' with
      | zero => omega
      | succ fuel' =>
          have hBound :
              decide (line ≥ stop) = decide (line ≥ stop') :=
            decide_eq_decide.mpr (hStop.ge_iff hLine)
          simp only [Frame.htmlStop] at hEnd
          simp only [Frame.htmlStop, ← hBound,
            ← hAgree.row hLine, ← hAgree.isOutdented hLine]
          split at hEnd
          · next hIf => rw [if_pos hIf, if_pos hIf]
          · next hIf =>
              rw [if_neg hIf, if_neg hIf]
              split at hEnd
              · next hIf => rw [if_pos hIf, if_pos hIf]
              · next hIf =>
                  rw [if_neg hIf, if_neg hIf]
                  have hNext :=
                    left.le_htmlStop kind stop fuel
                      (line + 1)
                  exact ih (by omega) hEnd

theorem lineFeeds
    (hAgree : left.AgreeUpTo fence right)
    {first last : Nat}
    (hLast : last ≤ fence) :
    right.lineFeeds first last =
      left.lineFeeds first last := by
  have hTake :
      left.rows.toList.take last =
        right.rows.toList.take last := by
    apply List.ext_getElem?
    intro i
    rw [List.getElem?_take, List.getElem?_take]
    split
    · rw [Array.getElem?_toList, Array.getElem?_toList]
      exact hAgree.rows i (by omega)
    · rfl
  simp only [Frame.lineFeeds, hTake]

theorem fenceBlock
    (hAgree : left.AgreeUpTo fence right)
    (opening : FenceOpening)
    (hLine : line < fence)
    (hStop : SameUpTo fence stop stop')
    (hEnd : (left.fenceBlock opening line stop).stop ≤ fence) :
    right.fenceBlock opening line stop' =
      left.fenceBlock opening line stop := by
  have hContent :
      (left.fenceStop opening stop (stop - line)
        (line + 1)).1 ≤ fence := by
    simp only [Frame.fenceBlock] at hEnd
    split at hEnd
    · exact Nat.le_of_succ_le hEnd
    · exact hEnd
  have hFuel :
      SameUpTo (fence - (line + 1)) (stop - line)
        (stop' - line) := by
    omega
  unfold Frame.fenceBlock
  rw [hAgree.fenceStop opening hStop hFuel hContent]
  simp only [hAgree.lineFeeds hContent]

theorem htmlBlockStop
    (hAgree : left.AgreeUpTo fence right)
    (kind : HtmlKind)
    (hLine : line < fence)
    (hStop : SameUpTo fence stop stop')
    (hEnd : left.htmlBlockStop kind line stop ≤ fence) :
    right.htmlBlockStop kind line stop' =
      left.htmlBlockStop kind line stop := by
  have hFuel :
      SameUpTo (fence - (line + 1)) (stop - line)
        (stop' - line) := by
    omega
  unfold Frame.htmlBlockStop at hEnd ⊢
  rw [← hAgree.row (Nat.le_of_lt hLine)]
  split at hEnd
  · next hEnds => rw [if_pos hEnds, if_pos hEnds]
  · next hEnds =>
      rw [if_neg hEnds, if_neg hEnds]
      exact hAgree.htmlStop kind hStop hFuel hEnd

end Passing

end AgreeUpTo

end Frame

end Markdown

end ScriptWorkspace
