import ScriptWorkspace.Proofs.Script.Locality

/-
  What can be wrong with a script.

  A script has a header that is not closed, or it has no
  manifest; reading and replacing the manifest fail on the
  same scripts, with the same fault. Where they succeed, the
  span that the search answers is made of documentation
  lines, one of which is in front of it, so the place of the
  manifest is never looked up in vain.

  Main declarations:
    * `HeaderState.OpenedBefore`
    * `Source.namesLine_of_ofText`
    * `ScriptFault.BlamesScript`
    * `Source.Holds`
    * `replace_agrees_with_extract`
-/

namespace ScriptWorkspace

namespace Script

open Text Markdown

------------------------------------------------------------
-- Lines That Are Blamed
------------------------------------------------------------

namespace HeaderState

/- What is open was opened by a line before the given one. -/
def OpenedBefore (index : Nat) : HeaderState → Prop
  | .header => True
  | .comment _ openedAt => openedAt < index
  | .attribute _ openedAt => openedAt < index
  | .code => True

variable {index openedAt : Nat}

theorem openedBefore_ofCommentDepth
    (hOpened : openedAt < index)
    (depth : Nat) :
    (ofCommentDepth depth openedAt).OpenedBefore index := by
  unfold ofCommentDepth
  split
  · exact True.intro
  · exact hOpened

theorem openedBefore_ofBracketDepth
    (hOpened : openedAt < index)
    (depth : Nat) :
    (ofBracketDepth depth openedAt).OpenedBefore index := by
  unfold ofBracketDepth
  split
  · exact True.intro
  · exact hOpened

/- A line opens something itself, or leaves open what was. -/
theorem OpenedBefore.step
    {state : HeaderState}
    (hState : state.OpenedBefore index)
    (text : Text) :
    (state.step index text).1.OpenedBefore (index + 1) := by
  have hHere : index < index + 1 := Nat.lt_succ_self index
  cases state with
  | header =>
      simp only [HeaderState.step]
      split
      · exact True.intro
      · split
        · exact True.intro
        · split
          · exact openedBefore_ofCommentDepth hHere _
          · split
            · exact openedBefore_ofBracketDepth hHere _
            · exact True.intro
  | comment depth openedAt =>
      exact
        openedBefore_ofCommentDepth
          (Nat.lt_succ_of_lt hState) _
  | «attribute» depth openedAt =>
      exact
        openedBefore_ofBracketDepth
          (Nat.lt_succ_of_lt hState) _
  | code => exact True.intro

/- So it is when some lines have been read. -/
theorem OpenedBefore.scanLines
    {state : HeaderState}
    (hState : state.OpenedBefore index)
    (lines : List Line) :
    (scanLines state index lines).2.OpenedBefore
      (index + lines.length) := by
  induction lines generalizing state index with
  | nil => exact hState
  | cons line lines ih =>
      have hRest := ih (hState.step line.text)
      rw [List.length_cons, Nat.add_comm lines.length,
        ← Nat.add_assoc]
      exact hRest

end HeaderState

/- The fault gives the number of a line, and its text. -/
def HeaderFault.NamesLine
    (script : Text)
    (fault : HeaderFault) : Prop :=
  0 < fault.lineNumber ∧
    (lineTexts script)[fault.lineNumber - 1]? =
      some fault.line

namespace Source

variable {script : Text}

/- Only a line of the script leaves something open. -/
theorem openedBefore_lastState (script : Text) :
    (lastState script).OpenedBefore
      (lineTexts script).length := by
  have hLength := length_splitText script
  by_cases hNil : lineTexts script = []
  · rw [hNil, List.length_nil,
      List.length_eq_zero_iff] at hLength
    simp only [lastState, hLength, List.drop_nil]
    exact True.intro
  · have hStart := headerStart_le_length hNil
    have hHeader :
        HeaderState.header.OpenedBefore
          (headerStart (lineTexts script)) :=
      True.intro
    have hScan :=
      hHeader.scanLines
        ((Line.splitText script).drop
          (headerStart (lineTexts script)))
    rw [List.length_drop, hLength,
      Nat.add_sub_cancel' hStart] at hScan
    exact hScan

theorem namesLine_faultAt
    (opening : HeaderOpening)
    {index : Nat}
    (hIndex : index < (lineTexts script).length) :
    (faultAt opening (Line.splitText script)
      index).NamesLine script := by
  rw [← map_text_splitText, List.length_map] at hIndex
  refine ⟨Nat.succ_pos index, ?_⟩
  unfold faultAt
  rw [← map_text_splitText]
  simp [hIndex]

/- A header that is not closed names the line that opens it. -/
theorem namesLine_of_ofText
    {fault : HeaderFault}
    (hRead : ofText script = .error fault) :
    fault.NamesLine script := by
  have hOpened := openedBefore_lastState script
  rw [ofText_eq] at hRead
  cases hLast : lastState script with
  | header => simp [hLast] at hRead
  | comment depth openedAt =>
      rw [hLast] at hRead hOpened
      rw [← Except.error.inj hRead]
      exact namesLine_faultAt .blockComment hOpened
  | «attribute» depth openedAt =>
      rw [hLast] at hRead hOpened
      rw [← Except.error.inj hRead]
      exact namesLine_faultAt .innerAttribute hOpened
  | code => simp [hLast] at hRead

end Source

------------------------------------------------------------
-- Faults Of Scripts
------------------------------------------------------------

/-
  The fault is one of the script: its header is not closed,
  or it has no manifest. The others would be faults of the
  search.
-/
def ScriptFault.BlamesScript
    (script : Text) : ScriptFault → Prop
  | .header fault => fault.NamesLine script
  | .noManifest => True
  | .offBoundary _ => False
  | .noDocLine => False

theorem blamesScript_of_extract
    {script : Text}
    {fault : ScriptFault}
    (hExtract : extract script = .error fault) :
    fault.BlamesScript script := by
  simp only [extract, bind, Except.bind] at hExtract
  unfold Source.read Source.manifestSpan at hExtract
  cases hRead : Source.ofText script with
  | error header =>
      simp only [hRead, Except.error.injEq] at hExtract
      rw [← hExtract]
      exact Source.namesLine_of_ofText hRead
  | ok source =>
      cases hLocate : locate? manifestInfo source.body with
      | some span =>
          simp [hRead, hLocate, pure, Except.pure] at hExtract
      | none =>
          simp only [hRead, hLocate,
            Except.error.injEq] at hExtract
          rw [← hExtract]
          exact True.intro

------------------------------------------------------------
-- Spans Of Documentation Lines
------------------------------------------------------------

/-
  A span of the body is made of documentation lines, from the
  first one of a place up to the one where the place stops.
  There is at least one, and another one is in front.
-/
structure Source.Holds
    (source : Source)
    (span : Span)
    (place : ManifestPlace) : Prop where
  first_eq :
    source.docIndexAt? span.start = some place.first
  stop_eq : source.docIndexAt? span.stop = some place.stop
  text_eq : source.bodyPart span = place.text
  first_pos : 0 < place.first
  first_lt_stop : place.first < place.stop
  stop_le : place.stop ≤ source.docIndices.length

/- The span of a manifest that is read is of that kind. -/
theorem exists_holds_of_extract
    {script manifest : Text}
    (hExtract : extract script = .ok manifest) :
    ∃ source span place,
      Source.read script = .ok source ∧
        source.manifestSpan = .ok span ∧
        source.manifestPlace = .ok place ∧
        source.Holds span place ∧
        place.text = manifest := by
  rcases exists_isManifestRegion hExtract with
    ⟨source, first, stop, anchor, before, region, after,
      hRead, hRegion, hText⟩
  have hBounds := hRegion.toIsRegion.le_stop
  have hCount :
      source.docIndices.length = source.docContents.length :=
    Source.length_docIndicesFrom 0 source.lines
  have hLt : first < stop := by
    rcases hRegion.starts with ⟨line, doc, rest, hRest, hDoc⟩
    have hStop := hRegion.stop_eq
    rw [hRest, contentsOf_cons_of_some hDoc,
      List.length_cons] at hStop
    omega
  refine
    ⟨source, lineSpan source.bodyLines first stop,
      { text := linesText (contentsOf region), first, stop },
      Source.read_eq_ok_iff.mpr hRead,
      Source.manifestSpan_eq_ok hRegion.located, ?_,
      { first_eq :=
          Source.docIndexAt?_lineOffset
            (Nat.le_trans hBounds.1 hBounds.2)
        stop_eq := Source.docIndexAt?_lineOffset hBounds.2
        text_eq := ?_
        first_pos := hRegion.first_pos
        first_lt_stop := hLt
        stop_le := hCount ▸ hBounds.2 },
      hText.symm⟩
  · rw [Source.manifestPlace_eq hRegion.located hBounds.1
      hBounds.2, hRegion.toIsRegion.contentsOf_region]
  · rw [source.bodyPart_lineSpan hBounds.1,
      hRegion.toIsRegion.contentsOf_region]

/-
  Replacing a manifest answers the manifest that is read, or
  the fault with which reading fails. Such a fault is one of
  the script, and a manifest that is read is held by
  documentation lines.
-/
theorem replace_agrees_with_extract
    (script manifest : Text) :
    (replace script manifest).map Prod.snd =
        extract script ∧
      (∀ fault,
        extract script = .error fault →
          fault.BlamesScript script) ∧
      ∀ found,
        extract script = .ok found →
          ∃ source span place,
            Source.read script = .ok source ∧
              source.manifestSpan = .ok span ∧
              source.manifestPlace = .ok place ∧
              source.Holds span place ∧
              place.text = found := by
  refine
    ⟨?_, fun fault => blamesScript_of_extract,
      fun found => exists_holds_of_extract⟩
  cases hExtract : extract script with
  | error fault =>
      rw [(replace_of_extract_eq_error hExtract manifest).1]
      rfl
  | ok found =>
      rcases exists_replace_of_extract hExtract manifest with
        ⟨replaced, hReplace⟩
      rw [hReplace]
      rfl

end Script

end ScriptWorkspace
