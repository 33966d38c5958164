import ScriptWorkspace.Markdown.Event
import ScriptWorkspace.Proofs.Text.RawLines

/-
  The rows of a text of which every line is ended.

  Each line is a row, its body begins at the first character
  that is neither a space nor a tab, and its column is not
  left of the margin. Taking the marker of a quotation off a
  row leaves it at or right of the margin too.

  Main declarations:
    * `le_leadingBlanks`
    * `Row.column_unquoted_nonneg`
    * `Row.body_ofLine`
    * `Row.toList_ofText`
    * `rawLines_plainText`
    * `documentFrame`
    * `row_documentFrame`
-/

namespace ScriptWorkspace

namespace Markdown

open Text

------------------------------------------------------------
-- Blanks
------------------------------------------------------------

theorem lt_columnAfter
    (c : Char)
    (base column : Int) :
    column < columnAfter c base column := by
  unfold columnAfter
  split
  · omega
  · omega

/- Blanks lead to the right. -/
theorem le_leadingBlanks
    (base column : Int)
    (text : Text) :
    column ≤ (leadingBlanks base column text).2 := by
  induction text generalizing column with
  | nil => exact Int.le_refl _
  | cons c rest ih =>
      unfold leadingBlanks
      split
      · have hStep := lt_columnAfter c base column
        have hRest := ih (columnAfter c base column)
        simp only
        omega
      · exact Int.le_refl _

/- What comes after the blanks in front. -/
theorem drop_leadingBlanks
    (base column : Int)
    (text : Text) :
    text.drop (leadingBlanks base column text).1 =
      text.dropWhile isSpaceOrTab := by
  induction text generalizing column with
  | nil => rfl
  | cons c rest ih =>
      unfold leadingBlanks
      cases hBlank : isSpaceOrTab c with
      | false => simp [hBlank]
      | true =>
          simp only [if_true, List.drop_succ_cons,
            List.dropWhile_cons, hBlank]
          exact ih _

------------------------------------------------------------
-- Rows
------------------------------------------------------------

namespace Row

/- Without its marker a quoted row is not left of it. -/
theorem column_unquoted_nonneg (row : Row) :
    0 ≤ row.unquoted.column := by
  simp only [unquoted]
  have hLe := le_leadingBlanks
  refine Int.sub_nonneg_of_le ?_
  exact hLe _ _ _

theorem column_ofLine_nonneg (raw : Text) :
    0 ≤ (ofLine raw).column := by
  simp only [ofLine]
  exact le_leadingBlanks _ _ _

/- The body of an ended line comes after its blanks. -/
theorem body_ofLine
    {line : Text}
    (hFree : '\n' ∉ line) :
    (ofLine (line ++ ['\n'])).body =
      line.dropWhile isSpaceOrTab := by
  have hChars :
      (line ++ ['\n']).filter (· ≠ '\n') = line := by
    rw [List.filter_append, List.filter_eq_self.mpr]
    · simp
    · intro c hMem
      simp only [ne_eq, decide_not, Bool.not_eq_eq_eq_not,
        Bool.not_true, decide_eq_false_iff_not]
      rintro rfl
      exact hFree hMem
  simp only [ofLine, body, hChars]
  exact drop_leadingBlanks _ _ _

theorem terminated_ofLine
    {line : Text}
    (hEnded : EndedLine line) :
    (ofLine line).terminated = true := by
  rcases hEnded with ⟨body, _, rfl⟩
  have hLength :
      (body.filter (· ≠ '\n')).length ≤ body.length :=
    List.length_filter_le _ _
  simp only [ofLine, List.filter_append, List.length_append,
    List.length_singleton, decide_eq_true_eq]
  simp only [ne_eq, decide_not] at hLength
  simp only [ne_eq, decide_not, Bool.not_true, decide_true,
    List.filter_cons, List.filter_nil]
  simp
  omega

/- Every ended line is a row. -/
theorem toList_ofText
    {text : Text}
    (hEnded : ∀ line ∈ rawLines text, EndedLine line) :
    (ofText text).toList = (rawLines text).map ofLine := by
  simp only [ofText]
  rw [List.filter_eq_self]
  intro row hMem
  rcases List.mem_map.mp hMem with ⟨line, hLine, rfl⟩
  simp [terminated_ofLine (hEnded line hLine)]

end Row

------------------------------------------------------------
-- Plain Text
------------------------------------------------------------

theorem plainText_append
    (before after : Text) :
    plainText (before ++ after) =
      plainText before ++ plainText after := by
  simp [plainText, replaceChar]

theorem plainText_lineFeed :
    plainText ['\n'] = ['\n'] := by
  decide

/- Line feeds are neither made nor lost. -/
theorem mem_plainText_iff (text : Text) :
    '\n' ∈ plainText text ↔ '\n' ∈ text := by
  simp only [plainText, replaceChar, List.mem_map]
  constructor
  · rintro ⟨c, ⟨d, hMem, rfl⟩, hEq⟩
    split at hEq
    · simp at hEq
    · split at hEq
      · simp at hEq
      · exact hEq ▸ hMem
  · intro hMem
    exact ⟨'\n', ⟨'\n', hMem, by decide⟩, by decide⟩

theorem isLine_plainText
    {line : Text}
    (hEnded : EndedLine line) :
    EndedLine (plainText line) := by
  rcases hEnded with ⟨body, hBody, rfl⟩
  refine ⟨plainText body, ?_, ?_⟩
  · rwa [mem_plainText_iff]
  · rw [plainText_append, plainText_lineFeed]

/- The lines of the plain text are those of the text. -/
theorem rawLines_plainText
    {text : Text}
    (hEnded : ∀ line ∈ rawLines text, EndedLine line) :
    rawLines (plainText text) =
      (rawLines text).map plainText := by
  have hFlatten :
      plainText text =
        ((rawLines text).map plainText).flatten := by
    conv => lhs; rw [← flatten_rawLines text]
    induction rawLines text with
    | nil => rfl
    | cons line lines ih =>
        rw [List.flatten_cons, plainText_append, ih,
          List.map_cons, List.flatten_cons]
  rw [hFlatten]
  apply rawLines_flatten
  apply areLines_of_forall_ended
  intro line hMem
  rcases List.mem_map.mp hMem with ⟨old, hOld, rfl⟩
  exact isLine_plainText (hEnded old hOld)

------------------------------------------------------------
-- The Frame Of A Document
------------------------------------------------------------

/- The frame in which the blocks of a text are read. -/
def documentFrame (text : Text) : Frame :=
  Frame.ofText (plainText text)

/- The rows of a document whose lines are ended. -/
theorem rows_documentFrame
    {text : Text}
    (hEnded : ∀ line ∈ rawLines text, EndedLine line) :
    (documentFrame text).rows.toList =
      (rawLines text).map fun line =>
        Row.ofLine (plainText line) := by
  have hPlain := rawLines_plainText hEnded
  simp only [documentFrame, Frame.ofText]
  rw [Row.toList_ofText, hPlain, List.map_map]
  · rfl
  · intro line hMem
    rw [hPlain] at hMem
    rcases List.mem_map.mp hMem with ⟨old, hOld, rfl⟩
    exact isLine_plainText (hEnded old hOld)

theorem limit_documentFrame
    {text : Text}
    (hEnded : ∀ line ∈ rawLines text, EndedLine line) :
    (documentFrame text).limit =
      (rawLines text).length := by
  have hLength :=
    congrArg List.length (rows_documentFrame hEnded)
  rw [List.length_map, Array.length_toList] at hLength
  exact hLength

/- The row of a line of the document. -/
theorem row_documentFrame
    {text : Text}
    (hEnded : ∀ line ∈ rawLines text, EndedLine line)
    {line : Nat}
    {raw : Text}
    (hLine : (rawLines text)[line]? = some raw) :
    (documentFrame text).row line =
      Row.ofLine (plainText raw) := by
  unfold Frame.row
  rw [← Array.getElem?_toList, rows_documentFrame hEnded,
    List.getElem?_map, hLine]
  rfl

/- No row of a document is left of the margin. -/
theorem column_documentFrame_nonneg
    (text : Text)
    (line : Nat) :
    0 ≤ ((documentFrame text).row line).column := by
  unfold Frame.row
  cases hRow : (documentFrame text).rows[line]? with
  | none => exact Int.le_refl _
  | some row =>
      have hMem : row ∈ (documentFrame text).rows :=
        Array.mem_of_getElem? hRow
      simp only [documentFrame, Frame.ofText, Row.ofText,
        List.mem_toArray, List.mem_filter,
        List.mem_map] at hMem
      rcases hMem.1 with ⟨raw, _, rfl⟩
      exact Row.column_ofLine_nonneg raw

end Markdown

end ScriptWorkspace
