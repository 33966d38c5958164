import ScriptWorkspace.Proofs.Script.Lines

/-
  The scan of a header as a function of the texts of its
  lines.

  Which lines the scan marks, and whether it ends with
  something open, depends on the texts alone: the numbers of
  the lines only serve to report where a comment was opened.
  The scan of some lines followed by others is the scan of
  the second ones from the state that the first ones leave.

  Main declarations:
    * `HeaderState.forget`
    * `scanMarks`, `scanEnd`
    * `headerMarks`, `headerEnd`
    * `HeaderState.of_step_eq_some`
    * `Source.of_ofText`
    * `Source.ofText_eq_ok`
-/

namespace ScriptWorkspace

namespace Script

open Text

------------------------------------------------------------
-- States Without Numbers
------------------------------------------------------------

namespace HeaderState

/- The state without the number of the line it came from. -/
def forget : HeaderState → HeaderState
  | .header => .header
  | .comment depth _ => .comment depth 0
  | .attribute depth _ => .attribute depth 0
  | .code => .code

/- Neither a comment nor an attribute is open. -/
def IsClosed : HeaderState → Prop
  | .header => True
  | .comment _ _ => False
  | .attribute _ _ => False
  | .code => True

@[simp] theorem forget_ofCommentDepth
    (depth openedAt : Nat) :
    (ofCommentDepth depth openedAt).forget =
      ofCommentDepth depth 0 := by
  unfold ofCommentDepth
  split <;> rfl

@[simp] theorem forget_ofBracketDepth
    (depth openedAt : Nat) :
    (ofBracketDepth depth openedAt).forget =
      ofBracketDepth depth 0 := by
  unfold ofBracketDepth
  split <;> rfl

theorem isClosed_of_forget_eq
    {left right : HeaderState}
    (hForget : left.forget = right.forget)
    (hClosed : right.IsClosed) :
    left.IsClosed := by
  cases left <;> cases right <;>
    simp_all [forget, IsClosed]

/- Neither the number of a line nor older ones matter. -/
theorem step_congr
    {left right : HeaderState}
    (hForget : left.forget = right.forget)
    (leftIndex rightIndex : Nat)
    (text : Text) :
    (left.step leftIndex text).2 =
        (right.step rightIndex text).2 ∧
      (left.step leftIndex text).1.forget =
        (right.step rightIndex text).1.forget := by
  cases left <;> cases right <;>
    simp only [forget, comment.injEq, attribute.injEq,
      and_true, reduceCtorEq] at hForget
  case header.header =>
      simp only [step]
      split
      · exact ⟨rfl, rfl⟩
      · split
        · exact ⟨rfl, rfl⟩
        · split
          · simp
          · split
            · simp
            · exact ⟨rfl, rfl⟩
  case comment.comment => simp [step, hForget]
  case attribute.attribute => simp [step, hForget]
  case code.code => exact ⟨rfl, rfl⟩

/-
  Only in the header is a line marked, and there it is read
  for itself and leaves the scan in the header.
-/
theorem of_step_eq_some
    {state : HeaderState}
    {index : Nat}
    {text : Text}
    {doc : DocText}
    (hStep : (state.step index text).2 = some doc) :
    state = .header ∧
      DocText.ofLine? text = some doc := by
  cases state with
  | header =>
      refine ⟨rfl, ?_⟩
      simp only [step] at hStep
      split at hStep
      · next hDoc => rw [hDoc]; exact hStep
      · split at hStep
        · simp at hStep
        · split at hStep
          · simp at hStep
          · split at hStep <;> simp at hStep
  | comment depth openedAt => simp [step] at hStep
  | «attribute» depth openedAt => simp [step] at hStep
  | code => simp [step] at hStep

theorem step_header_of_ofLine?
    {text : Text}
    {doc : DocText}
    (hDoc : DocText.ofLine? text = some doc)
    (index : Nat) :
    step .header index text = (.header, some doc) := by
  simp [step, hDoc]

end HeaderState

------------------------------------------------------------
-- Scans Of Texts
------------------------------------------------------------

/- The marks that the scan of some texts makes. -/
def scanMarks :
    HeaderState → List Text → List (Option DocText)
  | _, [] => []
  | state, text :: texts =>
    (state.step 0 text).2 ::
      scanMarks (state.step 0 text).1 texts

/- The state that the scan of some texts ends in. -/
def scanEnd : HeaderState → List Text → HeaderState
  | state, [] => state
  | state, text :: texts =>
    scanEnd (state.step 0 text).1 texts

theorem scanMarks_append
    (state : HeaderState)
    (before after : List Text) :
    scanMarks state (before ++ after) =
      scanMarks state before ++
        scanMarks (scanEnd state before) after := by
  induction before generalizing state with
  | nil => rfl
  | cons text before ih => simp [scanMarks, scanEnd, ih]

theorem scanEnd_append
    (state : HeaderState)
    (before after : List Text) :
    scanEnd state (before ++ after) =
      scanEnd (scanEnd state before) after := by
  induction before generalizing state with
  | nil => rfl
  | cons text before ih => simp [scanEnd, ih]

@[simp] theorem length_scanMarks
    (state : HeaderState)
    (texts : List Text) :
    (scanMarks state texts).length = texts.length := by
  induction texts generalizing state with
  | nil => rfl
  | cons text texts ih => simp [scanMarks, ih]

/- The scan of lines is that of their texts. -/
theorem scanLines_eq
    {left right : HeaderState}
    (hForget : left.forget = right.forget)
    (index : Nat)
    (lines : List Line) :
    (scanLines left index lines).1.map Line.doc =
        scanMarks right (lines.map Line.text) ∧
      (scanLines left index lines).2.forget =
        (scanEnd right (lines.map Line.text)).forget := by
  induction lines generalizing left right index with
  | nil => exact ⟨rfl, hForget⟩
  | cons line lines ih =>
      have hStep :=
        HeaderState.step_congr hForget index 0 line.text
      have hRest := ih hStep.2 (index + 1)
      simp only [scanLines, List.map_cons, scanMarks,
        scanEnd]
      exact ⟨by rw [hStep.1, hRest.1], hRest.2⟩

/- The scan changes nothing but the marks. -/
theorem map_scanLines
    {α : Type}
    {view : Line → α}
    (hView :
      ∀ line doc, view { line with doc } = view line)
    (state : HeaderState)
    (index : Nat)
    (lines : List Line) :
    (scanLines state index lines).1.map view =
      lines.map view := by
  induction lines generalizing state index with
  | nil => rfl
  | cons line lines ih =>
      simp only [scanLines, List.map_cons, hView, ih]

------------------------------------------------------------
-- The Whole Source
------------------------------------------------------------

/- The text of a line without its terminator. -/
def lineText (raw : Text) : Text :=
  (splitTerminator raw).1

/- The first line names an interpreter. -/
def namesInterpreter : List Text → Bool
  | [] => false
  | first :: _ => isInterpreterLine first

/- The number of lines in front of the header. -/
def headerStart (texts : List Text) : Nat :=
  if namesInterpreter texts then 1 else 0

/- The marks of all lines: none in front of the header. -/
def headerMarks
    (texts : List Text) : List (Option DocText) :=
  (texts.take (headerStart texts)).map (fun _ => none) ++
    scanMarks .header (texts.drop (headerStart texts))

/- The state that the scan of all lines ends in. -/
def headerEnd (texts : List Text) : HeaderState :=
  scanEnd .header (texts.drop (headerStart texts))

theorem headerStart_append
    {before : List Text}
    (hBefore : before ≠ [])
    (after : List Text) :
    headerStart (before ++ after) = headerStart before := by
  cases before with
  | nil => exact absurd rfl hBefore
  | cons first before => rfl

theorem headerStart_le_length
    {texts : List Text}
    (hTexts : texts ≠ []) :
    headerStart texts ≤ texts.length := by
  have hLength : 0 < texts.length :=
    List.length_pos_iff.mpr hTexts
  unfold headerStart
  split <;> omega

theorem length_headerMarks (texts : List Text) :
    (headerMarks texts).length = texts.length := by
  simp only [headerMarks, List.length_append,
    List.length_map, List.length_take, length_scanMarks,
    List.length_drop]
  omega

/- Lines that follow are scanned from where others end. -/
theorem headerMarks_append
    {before : List Text}
    (hBefore : before ≠ [])
    (after : List Text) :
    headerMarks (before ++ after) =
      headerMarks before ++
        scanMarks (headerEnd before) after := by
  have hStart := headerStart_le_length hBefore
  unfold headerMarks headerEnd
  rw [headerStart_append hBefore,
    List.take_append_of_le_length hStart,
    List.drop_append_of_le_length hStart, scanMarks_append,
    List.append_assoc]

theorem headerEnd_append
    {before : List Text}
    (hBefore : before ≠ [])
    (after : List Text) :
    headerEnd (before ++ after) =
      scanEnd (headerEnd before) after := by
  have hStart := headerStart_le_length hBefore
  unfold headerEnd
  rw [headerStart_append hBefore,
    List.drop_append_of_le_length hStart, scanEnd_append]

theorem namesInterpreter_append
    {before : List Text}
    (hBefore : before ≠ [])
    (after : List Text) :
    namesInterpreter (before ++ after) =
      namesInterpreter before := by
  cases before with
  | nil => exact absurd rfl hBefore
  | cons first before => rfl

/- A scan that marks its last line ends in the header. -/
theorem scanEnd_of_marked
    {state : HeaderState}
    {texts : List Text}
    {text : Text}
    {marks : List (Option DocText)}
    {doc : DocText}
    (hMarks :
      scanMarks state (texts ++ [text]) =
        marks ++ [some doc]) :
    scanEnd state (texts ++ [text]) = .header := by
  rw [scanMarks_append] at hMarks
  have hLast :=
    (List.append_inj' hMarks rfl).2
  simp only [scanMarks, List.cons.injEq, and_true] at hLast
  rcases HeaderState.of_step_eq_some hLast with
    ⟨hState, hText⟩
  rw [scanEnd_append, hState]
  simp only [scanEnd,
    HeaderState.step_header_of_ofLine? hText]

/- The texts of the lines of a script. -/
def lineTexts (script : Text) : List Text :=
  (rawLines script).map lineText

theorem map_text_placeLines
    (start : Nat)
    (raws : List Text) :
    (placeLines start raws).map Line.text =
      raws.map lineText := by
  induction raws generalizing start with
  | nil => rfl
  | cons raw raws ih =>
      simp only [placeLines, List.map_cons, ih, lineText]

theorem map_doc_placeLines
    (start : Nat)
    (raws : List Text) :
    (placeLines start raws).map Line.doc =
      raws.map (fun _ => none) := by
  induction raws generalizing start with
  | nil => rfl
  | cons raw raws ih =>
      simp only [placeLines, List.map_cons, ih]

namespace Source

/- The texts of a script are those of its lines. -/
theorem map_text_splitText (script : Text) :
    (Line.splitText script).map Line.text =
      lineTexts script :=
  map_text_placeLines 0 _

theorem length_splitText (script : Text) :
    (Line.splitText script).length =
      (lineTexts script).length := by
  rw [← map_text_splitText, List.length_map]

/- The lines of a script with the header read. -/
def markedLines (script : Text) : List Line :=
  let lines := Line.splitText script
  let skipped := headerStart (lineTexts script)
  lines.take skipped ++
    (scanLines .header skipped (lines.drop skipped)).1

theorem map_markedLines
    {α : Type}
    {view : Line → α}
    (hView :
      ∀ line doc, view { line with doc } = view line)
    (script : Text) :
    (markedLines script).map view =
      (Line.splitText script).map view := by
  simp only [markedLines]
  rw [List.map_append, map_scanLines hView,
    ← List.map_append, List.take_append_drop]

theorem map_raw_markedLines (script : Text) :
    (markedLines script).map Line.raw =
      rawLines script := by
  rw [map_markedLines (fun _ _ => rfl)]
  exact map_raw_placeLines 0 _

theorem map_text_markedLines (script : Text) :
    (markedLines script).map Line.text =
      lineTexts script := by
  rw [map_markedLines (fun _ _ => rfl)]
  exact map_text_placeLines 0 _

theorem map_doc_markedLines (script : Text) :
    (markedLines script).map Line.doc =
      headerMarks (lineTexts script) := by
  have hTexts := map_text_placeLines 0 (rawLines script)
  have hDocs := map_doc_placeLines 0 (rawLines script)
  simp only [markedLines, headerMarks]
  rw [List.map_append, List.map_take,
    (scanLines_eq (Eq.refl HeaderState.header.forget)
      _ _).1,
    List.map_drop]
  unfold Line.splitText
  rw [hTexts, hDocs]
  simp [lineTexts, Function.comp_def]

theorem isSplit_of_mem_markedLines
    {script : Text}
    {line : Line}
    (hMem : line ∈ markedLines script) :
    line.IsSplit := by
  have hAll :
      ∀ split ∈ (markedLines script).map Line.IsSplit,
        split := by
    rw [map_markedLines (fun _ _ => rfl)]
    intro split hSplit
    rcases List.mem_map.mp hSplit with ⟨line, hLine, rfl⟩
    exact isSplit_of_mem_placeLines hLine
  exact hAll _ (List.mem_map_of_mem hMem)

/- The state in which the scan leaves a script. -/
def lastState (script : Text) : HeaderState :=
  let skipped := headerStart (lineTexts script)
  (scanLines .header skipped
    ((Line.splitText script).drop skipped)).2

theorem isClosed_lastState_iff (script : Text) :
    (lastState script).IsClosed ↔
      (headerEnd (lineTexts script)).IsClosed := by
  have hForget :
      (lastState script).forget =
        (headerEnd (lineTexts script)).forget := by
    simp only [lastState, headerEnd]
    rw [(scanLines_eq
        (Eq.refl HeaderState.header.forget) _ _).2,
      List.map_drop]
    unfold Line.splitText
    rw [map_text_placeLines]
    rfl
  exact
    ⟨HeaderState.isClosed_of_forget_eq hForget.symm,
      HeaderState.isClosed_of_forget_eq hForget⟩

/- Reading a script in terms of its marked lines. -/
theorem ofText_eq (script : Text) :
    ofText script =
      match lastState script with
      | .comment _ openedAt =>
        .error
          (faultAt .blockComment
            (Line.splitText script) openedAt)
      | .attribute _ openedAt =>
        .error
          (faultAt .innerAttribute
            (Line.splitText script) openedAt)
      | _ =>
        .ok
          { lines := markedLines script
            shebang :=
              namesInterpreter (lineTexts script) } := by
  have hTexts :
      lineTexts script =
        (Line.splitText script).map Line.text :=
    (map_text_placeLines 0 _).symm
  simp only [lastState, markedLines, headerStart, hTexts]
  unfold ofText
  cases Line.splitText script with
  | nil => rfl
  | cons first rest => rfl

/- Reading succeeds when the scan ends with nothing open. -/
theorem ofText_eq_ok
    {script : Text}
    (hClosed :
      (headerEnd (lineTexts script)).IsClosed) :
    ofText script =
      .ok
        { lines := markedLines script
          shebang :=
            namesInterpreter (lineTexts script) } := by
  rw [← isClosed_lastState_iff] at hClosed
  rw [ofText_eq]
  cases hLast : lastState script with
  | header => rfl
  | comment depth openedAt =>
      simp [hLast, HeaderState.IsClosed] at hClosed
  | «attribute» depth openedAt =>
      simp [hLast, HeaderState.IsClosed] at hClosed
  | code => rfl

/- What is read is the marked lines. -/
theorem of_ofText
    {script : Text}
    {source : Source}
    (hRead : ofText script = .ok source) :
    (headerEnd (lineTexts script)).IsClosed ∧
      source.lines = markedLines script ∧
      source.shebang =
        namesInterpreter (lineTexts script) := by
  rw [← isClosed_lastState_iff]
  rw [ofText_eq] at hRead
  cases hLast : lastState script with
  | header =>
      rw [hLast] at hRead
      rw [← Except.ok.inj hRead]
      exact ⟨True.intro, rfl, rfl⟩
  | comment depth openedAt => simp [hLast] at hRead
  | «attribute» depth openedAt => simp [hLast] at hRead
  | code =>
      rw [hLast] at hRead
      rw [← Except.ok.inj hRead]
      exact ⟨True.intro, rfl, rfl⟩

end Source

end Script

end ScriptWorkspace
