import ScriptWorkspace.Markdown.Event

/-
  Offsets of lines in the text that they make up.

  The offset of a line is the length of the lines before it,
  so cutting the text at the offsets of two lines gives the
  lines between them, and lines that are not empty have
  different offsets.

  Main declarations:
    * `lineOffset_eq_length`
    * `lineOffset_lt`, `lineOffset_inj`
    * `drop_take_lineOffset`
-/

namespace ScriptWorkspace

namespace Markdown

/- The offset of a line is the length of those before it. -/
theorem lineOffset_eq_length
    (lines : List Text)
    (line : Nat) :
    lineOffset lines line =
      (lines.take line).flatten.length := by
  simp [lineOffset, List.length_flatten, List.sum]

theorem lineOffset_cons_succ
    (first : Text)
    (lines : List Text)
    (line : Nat) :
    lineOffset (first :: lines) (line + 1) =
      first.length + lineOffset lines line := by
  simp [lineOffset]

/- Past the last line there is only the end of the text. -/
theorem lineOffset_min
    (lines : List Text)
    (line : Nat) :
    lineOffset lines (min line lines.length) =
      lineOffset lines line := by
  unfold lineOffset
  rw [List.take_eq_take_min (i := line)]

/- Lines that are not empty have increasing offsets. -/
theorem lineOffset_lt
    {lines : List Text}
    (hNe : ∀ line ∈ lines, line ≠ [])
    {first second : Nat}
    (hLt : first < second)
    (hSecond : second ≤ lines.length) :
    lineOffset lines first < lineOffset lines second := by
  induction lines generalizing first second with
  | nil =>
      simp only [List.length_nil] at hSecond
      omega
  | cons line lines ih =>
      have hLine : 0 < line.length :=
        List.length_pos_iff.mpr (hNe line (by simp))
      cases second with
      | zero => omega
      | succ second =>
          rw [lineOffset_cons_succ]
          cases first with
          | zero => simp [lineOffset]; omega
          | succ first =>
              rw [lineOffset_cons_succ]
              have hRest :
                  lineOffset lines first <
                    lineOffset lines second := by
                apply ih
                · intro line hMem
                  exact hNe line (List.mem_cons_of_mem _ hMem)
                · omega
                · simpa using hSecond
              omega

/- Such lines have different offsets. -/
theorem lineOffset_inj
    {lines : List Text}
    (hNe : ∀ line ∈ lines, line ≠ [])
    {first second : Nat}
    (hFirst : first ≤ lines.length)
    (hSecond : second ≤ lines.length)
    (hSame :
      lineOffset lines first = lineOffset lines second) :
    first = second := by
  rcases Nat.lt_trichotomy first second with
    hLt | hEq | hLt
  · have hOffset := lineOffset_lt hNe hLt hSecond
    omega
  · exact hEq
  · have hOffset := lineOffset_lt hNe hLt hFirst
    omega

/- Cutting the text at a line gives the lines before it. -/
theorem take_lineOffset
    (lines : List Text)
    (line : Nat) :
    lines.flatten.take (lineOffset lines line) =
      (lines.take line).flatten := by
  have hSplit :
      lines.flatten =
        (lines.take line).flatten ++
          (lines.drop line).flatten := by
    rw [← List.flatten_append, List.take_append_drop]
  rw [hSplit, lineOffset_eq_length, List.take_left]

/- Cutting the text at two lines gives those between. -/
theorem drop_take_lineOffset
    (lines : List Text)
    {first stop : Nat}
    (hLe : first ≤ stop) :
    (lines.flatten.take (lineOffset lines stop)).drop
        (lineOffset lines first) =
      ((lines.take stop).drop first).flatten := by
  have hSplit :
      (lines.take stop).flatten =
        (lines.take first).flatten ++
          ((lines.take stop).drop first).flatten := by
    have hTake :
        lines.take first = (lines.take stop).take first := by
      rw [List.take_take, Nat.min_eq_left hLe]
    rw [hTake, ← List.flatten_append,
      List.take_append_drop]
  rw [take_lineOffset, hSplit, lineOffset_eq_length,
    List.drop_left]

end Markdown

end ScriptWorkspace
