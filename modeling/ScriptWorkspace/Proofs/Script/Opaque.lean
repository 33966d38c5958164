import ScriptWorkspace.Proofs.Script.Tail

/-
  The state of the scan at each line of a script.

  What the scan makes of a line depends on the state in which
  it comes to the line. A line that it reads inside a comment
  or an attribute is opaque: it is not documentation, and the
  header goes on behind it.

  Main declarations:
    * `Source.stateBefore`
    * `Source.stateBefore_succ`
    * `Source.stateBefore_eq_lastState`
    * `Source.IsOpaque`
    * `Source.isOpaque_of_isOpen`
-/

namespace ScriptWorkspace

namespace Script

open Text

/- The header goes on behind a line read in such a state. -/
def HeaderState.IsOpen : HeaderState → Prop
  | .header => False
  | .comment _ _ => True
  | .attribute _ _ => True
  | .code => False

namespace HeaderState

theorem ofCommentDepth_ne_code (depth openedAt : Nat) :
    ofCommentDepth depth openedAt ≠ .code := by
  unfold ofCommentDepth
  split <;> simp

theorem ofBracketDepth_ne_code (depth openedAt : Nat) :
    ofBracketDepth depth openedAt ≠ .code := by
  unfold ofBracketDepth
  split <;> simp

theorem IsOpen.step
    {state : HeaderState}
    (hOpen : state.IsOpen)
    (index : Nat)
    (text : Text) :
    (state.step index text).2 = none ∧
      (state.step index text).1 ≠ .code := by
  cases state with
  | header => exact absurd hOpen id
  | comment depth openedAt =>
      exact ⟨rfl, ofCommentDepth_ne_code _ _⟩
  | «attribute» depth openedAt =>
      exact ⟨rfl, ofBracketDepth_ne_code _ _⟩
  | code => exact absurd hOpen id

end HeaderState

namespace Source

------------------------------------------------------------
-- The State At A Line
------------------------------------------------------------

/- The state in which the scan comes to a line. -/
def stateBefore (script : Text) (index : Nat) : HeaderState :=
  let skipped := headerStart (lineTexts script)
  (scanLines .header skipped
    (((Line.splitText script).take index).drop skipped)).2

variable {script : Text} {index : Nat}

theorem stateBefore_of_le_headerStart
    (hIndex : index ≤ headerStart (lineTexts script)) :
    stateBefore script index = .header := by
  have hNone :
      ((Line.splitText script).take index).drop
          (headerStart (lineTexts script)) =
        [] := by
    rw [List.drop_eq_nil_iff, List.length_take]
    omega
  simp only [stateBefore, hNone, scanLines]

/- Only in front of the header and in it is it that one. -/
theorem headerStart_le_of_stateBefore_ne
    (hState : stateBefore script index ≠ .header) :
    headerStart (lineTexts script) ≤ index := by
  by_contra hBefore
  exact
    hState (stateBefore_of_le_headerStart (by omega))

/- Behind all lines it is the state that the scan leaves. -/
theorem stateBefore_eq_lastState
    (hIndex : (lineTexts script).length ≤ index) :
    stateBefore script index = lastState script := by
  rw [← length_splitText] at hIndex
  simp only [stateBefore, lastState,
    List.take_of_length_le hIndex]

section Line

variable {text : Text}
variable
  (hText : (lineTexts script)[index]? = some text)
  (hStart : headerStart (lineTexts script) ≤ index)

include hText hStart

/- The lines of the scan, cut at one of them. -/
theorem exists_drop_splitText :
    ∃ line after,
      line.text = text ∧
        (Line.splitText script).drop
            (headerStart (lineTexts script)) =
          ((Line.splitText script).take index).drop
              (headerStart (lineTexts script)) ++
            line :: after ∧
        ((Line.splitText script).take (index + 1)).drop
            (headerStart (lineTexts script)) =
          ((Line.splitText script).take index).drop
              (headerStart (lineTexts script)) ++
            [line] ∧
        headerStart (lineTexts script) +
            (((Line.splitText script).take index).drop
              (headerStart (lineTexts script))).length =
          index := by
  rw [← map_text_splitText, List.getElem?_map,
    Option.map_eq_some_iff] at hText
  rcases hText with ⟨line, hLine, hEq⟩
  rcases List.getElem?_eq_some_iff.mp hLine with
    ⟨hBound, hAt⟩
  have hSplit :
      Line.splitText script =
        (Line.splitText script).take index ++
          line :: (Line.splitText script).drop (index + 1) := by
    rw [← hAt, List.getElem_cons_drop,
      List.take_append_drop]
  have hLength :
      ((Line.splitText script).take index).length =
        index := by
    rw [List.length_take]
    omega
  refine
    ⟨line, (Line.splitText script).drop (index + 1), hEq,
      ?_, ?_, ?_⟩
  · rw [← List.drop_append_of_le_length
      (by rw [hLength]; exact hStart), ← hSplit]
  · rw [List.take_add_one, hLine,
      List.drop_append_of_le_length
        (by rw [hLength]; exact hStart)]
    rfl
  · rw [List.length_drop, hLength]
    omega

/- A line takes the scan from its state to the next one. -/
theorem stateBefore_succ :
    stateBefore script (index + 1) =
      ((stateBefore script index).step index text).1 := by
  rcases exists_drop_splitText hText hStart with
    ⟨line, after, hLine, _, hTaken, hLength⟩
  simp only [stateBefore, hTaken, scanLines_append, hLength,
    scanLines, hLine]

/- And it is marked as its state has it. -/
theorem doc_of_stateBefore
    {line : Line}
    (hLine : (markedLines script)[index]? = some line) :
    line.doc =
      ((stateBefore script index).step index text).2 := by
  rcases exists_drop_splitText hText hStart with
    ⟨before, after, hText', hDropped, _, hLength⟩
  have hScan :
      (scanLines .header (headerStart (lineTexts script))
          ((Line.splitText script).drop
            (headerStart (lineTexts script)))).1[
          index - headerStart (lineTexts script)]? =
        some
          { before with
            doc :=
              ((stateBefore script index).step index
                text).2 } := by
    have hMarked :=
      congrArg List.length
        (@map_scanLines _ Line.text (fun _ _ => rfl) .header
          (headerStart (lineTexts script))
          (((Line.splitText script).take index).drop
            (headerStart (lineTexts script))))
    rw [List.length_map, List.length_map] at hMarked
    rw [hDropped, scanLines_append, List.getElem?_append_right
      (by rw [hMarked]; omega), hMarked, hLength]
    have hZero :
        index - headerStart (lineTexts script) -
            (((Line.splitText script).take index).drop
              (headerStart (lineTexts script))).length =
          0 := by
      omega
    simp only [hZero, scanLines, List.getElem?_cons_zero,
      hText', stateBefore]
  have hTaken :
      ((Line.splitText script).take
          (headerStart (lineTexts script))).length =
        headerStart (lineTexts script) := by
    rcases List.getElem?_eq_some_iff.mp hText with
      ⟨hBound, _⟩
    rw [List.length_take, length_splitText]
    omega
  simp only [markedLines] at hLine
  rw [List.getElem?_append_right (by rw [hTaken]; exact hStart),
    hTaken, hScan, Option.some.injEq] at hLine
  rw [← hLine]

end Line

------------------------------------------------------------
-- Opaque Lines
------------------------------------------------------------

/-
  A line that is not documentation in the source that is
  read, and that does not end the header.
-/
def IsOpaque (script : Text) (index : Nat) : Prop :=
  (∀ source line,
      ofText script = .ok source →
        source.lines[index]? = some line →
        line.doc = none) ∧
    stateBefore script (index + 1) ≠ .code

/- A line is opaque if the scan reads over it. -/
theorem isOpaque_of_step
    {text : Text}
    (hText : (lineTexts script)[index]? = some text)
    (hStart : headerStart (lineTexts script) ≤ index)
    (hDoc :
      ((stateBefore script index).step index text).2 = none)
    (hState :
      ((stateBefore script index).step index text).1 ≠
        .code) :
    IsOpaque script index := by
  constructor
  · intro source line hRead hLine
    rw [(of_ofText hRead).2.1] at hLine
    rw [doc_of_stateBefore hText hStart hLine, hDoc]
  · rw [stateBefore_succ hText hStart]
    exact hState

/- So it is inside a comment or an attribute. -/
theorem isOpaque_of_isOpen
    {text : Text}
    (hText : (lineTexts script)[index]? = some text)
    (hOpen : (stateBefore script index).IsOpen) :
    IsOpaque script index := by
  have hStart : headerStart (lineTexts script) ≤ index := by
    apply headerStart_le_of_stateBefore_ne
    intro hHeader
    rw [hHeader] at hOpen
    exact hOpen
  have hStep := hOpen.step index text
  exact isOpaque_of_step hText hStart hStep.1 hStep.2

end Source

end Script

end ScriptWorkspace
