import Mathlib.Data.List.Forall2
import ScriptWorkspace.Proofs.Script.Locality

/-
  Scripts whose lines end with a line feed, and the same
  scripts with a carriage return in front of each.

  The lines of the two have the same texts and the same
  marks, so the body is the same, and the manifest is at the
  same place. A line that is written takes the end of the
  line that opens the fence, and a last line without an end
  that gets one takes it too, so what is written for the one
  is what is written for the other, up to the ends of lines.

  Main declarations:
    * `Text.withReturns`
    * `Text.rawLines_withReturns`
    * `Line.IsReturned`
    * `Source.exists_ofText_withReturns`
    * `Source.exists_isRegion_returned`
    * `respell_returned`
    * `line_ends_do_not_matter`
-/

namespace ScriptWorkspace

------------------------------------------------------------
-- Texts With Carriage Returns
------------------------------------------------------------

namespace Text

/- The text with a carriage return before each line feed. -/
def withReturns (text : Text) : Text :=
  text.flatMap fun c =>
    if c = '\n' then ['\r', '\n'] else [c]

theorem withReturns_append
    (front back : Text) :
    withReturns (front ++ back) =
      withReturns front ++ withReturns back :=
  List.flatMap_append

theorem withReturns_flatten (lines : List Text) :
    withReturns lines.flatten =
      (lines.map withReturns).flatten := by
  induction lines with
  | nil => rfl
  | cons line lines ih =>
      rw [List.flatten_cons, withReturns_append, ih,
        List.map_cons, List.flatten_cons]

theorem withReturns_of_not_mem
    {text : Text}
    (hFree : '\n' ∉ text) :
    withReturns text = text := by
  induction text with
  | nil => rfl
  | cons c text ih =>
      rw [List.mem_cons, not_or] at hFree
      have hHead : c ≠ '\n' := fun hEq => hFree.1 hEq.symm
      have hRest := ih hFree.2
      unfold withReturns at hRest ⊢
      rw [List.flatMap_cons, if_neg hHead, hRest,
        List.singleton_append]

theorem withReturns_lineFeed :
    withReturns ['\n'] = ['\r', '\n'] := by
  decide

/- The last character is the same. -/
theorem endsWith_withReturns (text : Text) :
    (withReturns text).endsWith ['\n'] =
      text.endsWith ['\n'] := by
  rcases List.eq_nil_or_concat text with
    rfl | ⟨init, c, rfl⟩
  · rfl
  · rw [List.concat_eq_append, withReturns_append,
      Bool.eq_iff_iff, endsWith_singleton_iff,
      endsWith_singleton_iff]
    by_cases hFeed : c = '\n'
    · rw [hFeed, withReturns_lineFeed]
      exact
        ⟨fun _ => ⟨init, rfl⟩,
          fun _ =>
            ⟨withReturns init ++ ['\r'], by simp⟩⟩
    · have hFree : '\n' ∉ [c] := by
        simpa using fun hEq : '\n' = c => hFeed hEq.symm
      rw [withReturns_of_not_mem hFree]
      constructor
      · rintro ⟨start, hStart⟩
        have hLast := (List.append_inj' hStart rfl).2
        exact absurd (List.cons.inj hLast).1 hFeed
      · rintro ⟨start, hStart⟩
        have hLast := (List.append_inj' hStart rfl).2
        exact absurd (List.cons.inj hLast).1 hFeed

theorem EndedLine.withReturns
    {line : Text}
    (hEnded : EndedLine line) :
    EndedLine line.withReturns := by
  rcases hEnded with ⟨body, hBody, rfl⟩
  refine ⟨body ++ ['\r'], by simp [hBody], ?_⟩
  rw [withReturns_append, withReturns_of_not_mem hBody,
    withReturns_lineFeed, List.append_assoc]
  rfl

theorem IsLine.withReturns
    {line : Text}
    (hLine : IsLine line) :
    IsLine line.withReturns := by
  rcases hLine with hEnded | ⟨hNe, hFree⟩
  · exact hEnded.withReturns.isLine
  · rw [withReturns_of_not_mem hFree]
    exact .inr ⟨hNe, hFree⟩

theorem AreLines.withReturns
    {lines : List Text}
    (hLines : AreLines lines) :
    AreLines (lines.map Text.withReturns) := by
  induction lines with
  | nil => exact True.intro
  | cons line lines ih =>
      cases lines with
      | nil => exact IsLine.withReturns hLines
      | cons next lines =>
          exact ⟨hLines.1.withReturns, ih hLines.2⟩

/- The lines are the same, up to their ends. -/
theorem rawLines_withReturns (text : Text) :
    rawLines text.withReturns =
      (rawLines text).map withReturns := by
  conv => lhs; rw [← flatten_rawLines text]
  rw [withReturns_flatten]
  exact rawLines_flatten (areLines_rawLines text).withReturns

end Text

namespace Script

open Text Markdown

------------------------------------------------------------
-- Lines With Carriage Returns
------------------------------------------------------------

/- The terminator with a carriage return, if there is one. -/
def Terminator.withReturn : Terminator → Terminator
  | .none => .none
  | .lineFeed => .carriageReturnLineFeed
  | .carriageReturnLineFeed => .carriageReturnLineFeed

theorem Terminator.toText_withReturn
    {terminator : Terminator}
    (hPlain : terminator ≠ .carriageReturnLineFeed) :
    terminator.withReturn.toText =
      terminator.toText.withReturns := by
  cases terminator with
  | none => rfl
  | lineFeed => rfl
  | carriageReturnLineFeed => exact absurd rfl hPlain

/- The text of a line does not change, its terminator does. -/
theorem splitTerminator_withReturns
    {raw : Text}
    (hLine : IsLine raw)
    (hPlain :
      (splitTerminator raw).2 ≠ .carriageReturnLineFeed) :
    splitTerminator raw.withReturns =
      ((splitTerminator raw).1,
        (splitTerminator raw).2.withReturn) := by
  have hFree := not_mem_of_splitTerminator hLine
  have hText :
      raw.withReturns =
        (splitTerminator raw).1 ++
          (splitTerminator raw).2.withReturn.toText := by
    conv => lhs; rw [← splitTerminator_append raw]
    rw [withReturns_append, withReturns_of_not_mem hFree,
      Terminator.toText_withReturn hPlain]
  rw [hText]
  cases hEnd : (splitTerminator raw).2 with
  | none =>
      simpa [Terminator.withReturn, Terminator.toText] using
        splitTerminator_of_not_mem hFree
  | lineFeed =>
      exact
        splitTerminator_append_toText (by decide)
          fun _ => rfl
  | carriageReturnLineFeed => exact absurd hEnd hPlain

/-
  Two lines with the same text and the same mark. The first
  ends with a line feed if it ends with anything, and then
  the second has a carriage return in front of it.
-/
structure Line.IsReturned (line other : Line) : Prop where
  text_eq : other.text = line.text
  doc_eq : other.doc = line.doc
  free : '\n' ∉ line.text
  plain : line.terminator ≠ .carriageReturnLineFeed
  terminator_eq :
    other.terminator = line.terminator.withReturn

namespace Line.IsReturned

variable {line other : Line}

theorem raw_eq (hReturned : line.IsReturned other) :
    other.raw = line.raw.withReturns := by
  unfold Line.raw
  rw [hReturned.text_eq, hReturned.terminator_eq,
    Terminator.toText_withReturn hReturned.plain,
    withReturns_append,
    withReturns_of_not_mem hReturned.free]

theorem isDoc_eq (hReturned : line.IsReturned other) :
    other.isDoc = line.isDoc := by
  unfold Line.isDoc
  rw [hReturned.doc_eq]

theorem newline_eq
    (hReturned : line.IsReturned other)
    (hEnds : line.terminator ≠ .none) :
    other.newline = line.newline.withReturns := by
  have hPlain := hReturned.plain
  unfold Line.newline
  rw [hReturned.terminator_eq]
  cases hTerminator : line.terminator with
  | none => exact absurd hTerminator hEnds
  | lineFeed => rfl
  | carriageReturnLineFeed => exact absurd hTerminator hPlain

/- What is written beside the one and beside the other. -/
theorem renderDoc_eq
    (hReturned : line.IsReturned other)
    (hEnds : line.terminator ≠ .none)
    {content : Text}
    (hContent : '\n' ∉ content) :
    renderDoc other other.newline content =
      (renderDoc line line.newline content).withReturns := by
  have hText :
      renderText other content = renderText line content := by
    unfold renderText renderDoc Line.indentation
    rw [hReturned.text_eq]
  rw [Script.renderDoc_eq, Script.renderDoc_eq, hText,
    hReturned.newline_eq hEnds, withReturns_append,
    withReturns_of_not_mem
      (not_mem_renderText hReturned.free hContent)]

end Line.IsReturned

------------------------------------------------------------
-- Lists Of Lines
------------------------------------------------------------

/- Lines of which each is returned in the same place. -/
abbrev AreReturned (lines others : List Line) : Prop :=
  List.Forall₂ Line.IsReturned lines others

/- No carriage return stands in front of a line feed. -/
def IsPlain (script : Text) : Prop :=
  ∀ raw ∈ rawLines script,
    (splitTerminator raw).2 ≠ .carriageReturnLineFeed

theorem isPlain_of_not_mem
    {script : Text}
    (hReturn : '\r' ∉ script) :
    IsPlain script := by
  intro raw hMem hTerminator
  apply hReturn
  rw [← flatten_rawLines script, List.mem_flatten]
  refine ⟨raw, hMem, ?_⟩
  rw [← splitTerminator_append raw, hTerminator]
  simp [Terminator.toText]

theorem areReturned_placeLines
    {raws : List Text}
    (hLine : ∀ raw ∈ raws, IsLine raw)
    (hPlain :
      ∀ raw ∈ raws,
        (splitTerminator raw).2 ≠ .carriageReturnLineFeed)
    (start start' : Nat) :
    AreReturned (placeLines start raws)
      (placeLines start' (raws.map withReturns)) := by
  induction raws generalizing start start' with
  | nil => exact .nil
  | cons raw raws ih =>
      have hRaw := hLine raw List.mem_cons_self
      have hEnd := hPlain raw List.mem_cons_self
      have hSplit := splitTerminator_withReturns hRaw hEnd
      have hRest :=
        ih
          (fun other hMem =>
            hLine other (List.mem_cons_of_mem _ hMem))
          (fun other hMem =>
            hPlain other (List.mem_cons_of_mem _ hMem))
      simp only [List.map_cons, placeLines, hSplit]
      exact
        .cons
          { text_eq := rfl
            doc_eq := rfl
            free := not_mem_of_splitTerminator hRaw
            plain := hEnd
            terminator_eq := rfl }
          (hRest _ _)

theorem areReturned_splitText
    {script : Text}
    (hPlain : IsPlain script) :
    AreReturned (Line.splitText script)
      (Line.splitText script.withReturns) := by
  unfold Line.splitText
  rw [rawLines_withReturns]
  exact
    areReturned_placeLines
      (fun raw => (areLines_rawLines script).isLine_of_mem)
      hPlain 0 0

namespace AreReturned

variable {lines others : List Line}
variable (hLines : AreReturned lines others)

include hLines

theorem map_text :
    others.map Line.text = lines.map Line.text := by
  induction hLines with
  | nil => rfl
  | cons hHead _ ih =>
      rw [List.map_cons, List.map_cons, hHead.text_eq, ih]

theorem map_raw :
    others.map Line.raw =
      (lines.map Line.raw).map withReturns := by
  induction hLines with
  | nil => rfl
  | cons hHead _ ih =>
      rw [List.map_cons, List.map_cons, List.map_cons,
        hHead.raw_eq, ih]

theorem contentsOf_eq :
    contentsOf others = contentsOf lines := by
  induction hLines with
  | nil => rfl
  | cons hHead _ ih =>
      unfold contentsOf at ih ⊢
      rw [List.filterMap_cons, List.filterMap_cons,
        hHead.doc_eq, ih]

theorem docIndicesFrom_eq (index : Nat) :
    Source.docIndicesFrom index others =
      Source.docIndicesFrom index lines := by
  induction hLines generalizing index with
  | nil => rfl
  | cons hHead _ ih =>
      rw [Source.docIndicesFrom, Source.docIndicesFrom,
        hHead.isDoc_eq, ih]

theorem exists_getElem?
    {index : Nat}
    {line : Line}
    (hLine : lines[index]? = some line) :
    ∃ other,
      others[index]? = some other ∧
        line.IsReturned other := by
  induction hLines generalizing index with
  | nil => simp at hLine
  | cons hHead _ ih =>
      cases index with
      | zero =>
          rw [List.getElem?_cons_zero,
            Option.some.injEq] at hLine
          exact ⟨_, List.getElem?_cons_zero, hLine ▸ hHead⟩
      | succ index =>
          rw [List.getElem?_cons_succ] at hLine ⊢
          exact ih hLine

/- The parts of the one are returned in parts of the other. -/
theorem exists_append
    {front back : List Line}
    (hEq : lines = front ++ back) :
    ∃ front' back',
      others = front' ++ back' ∧
        AreReturned front front' ∧
        AreReturned back back' := by
  have hFront := List.forall₂_take front.length hLines
  have hBack := List.forall₂_drop front.length hLines
  rw [hEq, List.take_left] at hFront
  rw [hEq, List.drop_left] at hBack
  exact
    ⟨_, _, (List.take_append_drop _ others).symm, hFront,
      hBack⟩

theorem startsWithDoc
    (hStarts : StartsWithDoc lines) :
    StartsWithDoc others := by
  rcases hStarts with ⟨line, doc, rest, rfl, hDoc⟩
  cases hLines with
  | cons hHead _ =>
      exact ⟨_, doc, _, rfl, hHead.doc_eq.trans hDoc⟩

theorem endsWithDoc
    (hEnds : EndsWithDoc lines) :
    EndsWithDoc others := by
  rcases hEnds with ⟨init, line, doc, hEq, hDoc⟩
  rcases hLines.exists_append hEq with
    ⟨front, back, rfl, _, hBack⟩
  cases hBack with
  | cons hHead hNil =>
      cases hNil
      exact ⟨front, _, doc, rfl, hHead.doc_eq.trans hDoc⟩

/- The scan marks the same lines and ends in the same state. -/
theorem scanLines
    (state : HeaderState)
    (index : Nat) :
    AreReturned (scanLines state index lines).1
        (Script.scanLines state index others).1 ∧
      (Script.scanLines state index others).2 =
        (Script.scanLines state index lines).2 := by
  induction hLines generalizing state index with
  | nil => exact ⟨.nil, rfl⟩
  | @cons line other _ _ hHead _ ih =>
      have hStep :
          state.step index other.text =
            state.step index line.text := by
        rw [hHead.text_eq]
      simp only [Script.scanLines, hStep]
      refine ⟨.cons ?_ (ih _ _).1, (ih _ _).2⟩
      exact
        { text_eq := hHead.text_eq
          doc_eq := rfl
          free := hHead.free
          plain := hHead.plain
          terminator_eq := hHead.terminator_eq }

end AreReturned

------------------------------------------------------------
-- Sources
------------------------------------------------------------

namespace Source

section Reading

variable {script : Text} (hPlain : IsPlain script)

include hPlain

theorem lineTexts_withReturns :
    lineTexts script.withReturns = lineTexts script := by
  have hTexts := (areReturned_splitText hPlain).map_text
  rwa [map_text_splitText, map_text_splitText] at hTexts

theorem lastState_withReturns :
    lastState script.withReturns = lastState script := by
  simp only [lastState]
  rw [lineTexts_withReturns hPlain]
  exact
    (AreReturned.scanLines
      (List.forall₂_drop _ (areReturned_splitText hPlain))
      _ _).2

theorem areReturned_markedLines :
    AreReturned (markedLines script)
      (markedLines script.withReturns) := by
  have hLines := areReturned_splitText hPlain
  simp only [markedLines]
  rw [lineTexts_withReturns hPlain]
  exact
    List.rel_append (List.forall₂_take _ hLines)
      (AreReturned.scanLines
        (List.forall₂_drop _ hLines) _ _).1

theorem faultAt_withReturns
    (opening : HeaderOpening)
    (index : Nat) :
    faultAt opening (Line.splitText script.withReturns)
        index =
      faultAt opening (Line.splitText script) index := by
  unfold faultAt
  rw [← List.getElem?_map, ← List.getElem?_map,
    (areReturned_splitText hPlain).map_text]

/- A script that cannot be read fails in the same way. -/
theorem ofText_withReturns_eq_error
    {fault : HeaderFault}
    (hRead : ofText script = .error fault) :
    ofText script.withReturns = .error fault := by
  rw [ofText_eq] at hRead ⊢
  rw [lastState_withReturns hPlain]
  cases hLast : lastState script with
  | header => simp [hLast] at hRead
  | comment depth openedAt =>
      simpa [hLast, faultAt_withReturns hPlain] using hRead
  | «attribute» depth openedAt =>
      simpa [hLast, faultAt_withReturns hPlain] using hRead
  | code => simp [hLast] at hRead

/- One that can be read has the same lines, up to their ends. -/
theorem exists_ofText_withReturns
    {source : Source}
    (hRead : ofText script = .ok source) :
    ∃ other,
      ofText script.withReturns = .ok other ∧
        AreReturned source.lines other.lines := by
  rcases of_ofText hRead with ⟨hClosed, hLines, _⟩
  rw [← lineTexts_withReturns hPlain] at hClosed
  refine ⟨_, ofText_eq_ok hClosed, ?_⟩
  rw [hLines]
  exact areReturned_markedLines hPlain

end Reading

section Lines

variable {source other : Source}
variable (hLines : AreReturned source.lines other.lines)

include hLines

theorem exists_docLine?_returned
    {number : Nat}
    {line : Line}
    (hLine : source.docLine? number = some line) :
    ∃ returned,
      other.docLine? number = some returned ∧
        line.IsReturned returned := by
  unfold docLine? docIndices at hLine ⊢
  rw [hLines.docIndicesFrom_eq]
  rcases Option.bind_eq_some_iff.mp hLine with
    ⟨index, hIndex, hAt⟩
  rcases hLines.exists_getElem? hAt with
    ⟨returned, hReturned, hSame⟩
  refine ⟨returned, ?_, hSame⟩
  exact Option.bind_eq_some_iff.mpr ⟨index, hIndex, hReturned⟩

/- A region of the one has the same numbers in the other. -/
theorem exists_isRegion_returned
    {first stop : Nat}
    {before region after : List Line}
    (hRegion :
      IsRegion source first stop before region after) :
    ∃ before' region' after',
      IsRegion other first stop before' region' after' ∧
        AreReturned before before' ∧
        AreReturned region region' ∧
        AreReturned after after' := by
  rcases hLines.exists_append hRegion.lines_eq with
    ⟨front, after', hOther, hFront, hAfter⟩
  rcases hFront.exists_append rfl with
    ⟨before', region', rfl, hBefore, hMiddle⟩
  refine
    ⟨before', region', after', ?_, hBefore, hMiddle, hAfter⟩
  exact
    { lines_eq := hOther
      first_eq := by
        rw [hBefore.contentsOf_eq, hRegion.first_eq]
      stop_eq := by
        rw [hMiddle.contentsOf_eq, hRegion.stop_eq]
      starts := hMiddle.startsWithDoc hRegion.starts
      ends := hMiddle.endsWithDoc hRegion.ends }

end Lines

end Source

------------------------------------------------------------
-- Splices
------------------------------------------------------------

/- New contents in the lines of the one and of the other. -/
theorem respell_returned
    {render render' : Text → Text}
    {lines others : List Line}
    (hLines : AreReturned lines others)
    {contents : List Text}
    (hRender :
      ∀ content ∈ contents,
        render' content = (render content).withReturns) :
    respell render' others contents =
      (respell render lines contents).map withReturns := by
  induction hLines generalizing contents with
  | nil =>
      simp only [respell, List.map_map]
      exact List.map_congr_left hRender
  | @cons line other lines others hHead _ ih =>
      cases hDoc : line.doc with
      | none =>
          simp only [respell, hHead.doc_eq, hDoc,
            List.map_cons, hHead.raw_eq, ih hRender]
      | some doc =>
          cases contents with
          | nil =>
              simp only [respell, hHead.doc_eq, hDoc,
                ih hRender]
          | cons content rest =>
              have hRest :=
                ih fun other hMem =>
                  hRender other (List.mem_cons_of_mem _ hMem)
              simp only [respell, hHead.doc_eq, hDoc,
                List.map_cons, hRest, hHead.raw_eq,
                hRender content List.mem_cons_self]
              split
              · rfl
              · rfl

theorem joinLines_withReturns
    (newline : Text)
    (lines : List Text) :
    joinLines newline.withReturns
        (lines.map withReturns) =
      (joinLines newline lines).withReturns := by
  fun_induction joinLines newline lines with
  | case1 => rfl
  | case2 last => rfl
  | case3 line lines hNext ih =>
      cases lines with
      | nil => exact absurd rfl hNext
      | cons next lines =>
          rw [List.map_cons] at ih
          simp only [List.map_cons, joinLines,
            endsWith_withReturns, withReturns_append, ih]
          split
          · rfl
          · rw [withReturns_append]

/-
  What a region becomes. The line in front of it has an end,
  which is that of the lines that are written.
-/
theorem joinLines_respelled_returned
    {anchor returned : Line}
    (hAnchor : anchor.IsReturned returned)
    (hEnds : anchor.terminator ≠ .none)
    {before region after : List Line}
    {before' region' after' : List Line}
    (hBefore : AreReturned before before')
    (hRegion : AreReturned region region')
    (hAfter : AreReturned after after')
    {contents : List Text}
    (hFeed : ∀ content ∈ contents, '\n' ∉ content) :
    joinLines returned.newline
        (IsRegion.respelled returned before' region' after'
          contents) =
      (joinLines anchor.newline
        (IsRegion.respelled anchor before region after
          contents)).withReturns := by
  have hSpelled :=
    respell_returned hRegion fun content hMem =>
      hAnchor.renderDoc_eq hEnds (hFeed content hMem)
  unfold IsRegion.respelled
  rw [hSpelled, hBefore.map_raw, hAfter.map_raw,
    ← List.map_append, ← List.map_append,
    hAnchor.newline_eq hEnds, joinLines_withReturns]

------------------------------------------------------------
-- Scripts
------------------------------------------------------------

/- Reading a manifest fails alike, or answers the same. -/
theorem extract_withReturns_of_isPlain
    {script : Text}
    (hPlain : IsPlain script) :
    extract script.withReturns = extract script := by
  cases hRead : Source.ofText script with
  | error fault =>
      have hOther :=
        Source.ofText_withReturns_eq_error hPlain hRead
      simp only [extract, Source.read, hRead, hOther, bind,
        Except.bind]
  | ok source =>
      rcases Source.exists_ofText_withReturns hPlain hRead with
        ⟨other, hOther, hLines⟩
      exact extract_congr hRead hOther hLines.contentsOf_eq

/- What is written is the same, up to the ends of lines. -/
theorem replace_withReturns_of_isPlain
    {script : Text}
    (hPlain : IsPlain script)
    (manifest : Text) :
    replace script.withReturns manifest =
      (replace script manifest).map fun result =>
        (result.1.withReturns, result.2) := by
  have hSame := extract_withReturns_of_isPlain hPlain
  cases hExtract : extract script with
  | error fault =>
      rw [hExtract] at hSame
      rw [(replace_of_extract_eq_error hSame manifest).1,
        (replace_of_extract_eq_error hExtract manifest).1]
      rfl
  | ok found =>
      rcases exists_isManifestRegion hExtract with
        ⟨source, first, stop, anchor, before, region, after,
          hRead, hRegion, _⟩
      rcases Source.exists_ofText_withReturns hPlain hRead with
        ⟨other, hOther, hLines⟩
      rcases Source.exists_docLine?_returned hLines
          hRegion.anchor_eq with
        ⟨returned, hReturned, hAnchor⟩
      rcases Source.exists_isRegion_returned hLines
          hRegion.toIsRegion with
        ⟨before', region', after', hRegion', hBefore, hMiddle,
          hAfter⟩
      have hLocated :=
        Source.located_congr hLines.contentsOf_eq
          hRegion.located
      have hFeed :
          ∀ content ∈ manifestLines (terminated manifest),
            '\n' ∉ content := by
        intro content
        exact not_mem_of_mem_manifestLines
      have hWritten :=
        joinLines_respelled_returned hAnchor
          (hRegion.anchor_ended hRead) hBefore hMiddle hAfter
          hFeed
      rw [replace_eq hRead hRegion.located hRegion.toIsRegion
          hRegion.anchor_eq manifest,
        replace_eq hOther hLocated hRegion' hReturned manifest,
        hWritten, hMiddle.contentsOf_eq]
      rfl

/-
  A carriage return in front of each line feed changes
  neither the manifest that is read nor the fault that keeps
  it from being read. What is written in its place is the
  same, with a carriage return in front of each line feed.
-/
theorem line_ends_do_not_matter
    {script : Text}
    (hReturn : '\r' ∉ script)
    (manifest : Text) :
    extract script.withReturns = extract script ∧
      replace script.withReturns manifest =
        (replace script manifest).map fun result =>
          (result.1.withReturns, result.2) := by
  have hPlain := isPlain_of_not_mem hReturn
  exact
    ⟨extract_withReturns_of_isPlain hPlain,
      replace_withReturns_of_isPlain hPlain manifest⟩

/- A last line without an end gets that of the fence. -/
theorem line_ends_do_not_matter_unclosed :
    '\r' ∉ ("//! ```cargo\n//! a = 1" : Text) ∧
      extract "//! ```cargo\r\n//! a = 1" = .ok "a = 1\n" ∧
      replace "//! ```cargo\r\n//! a = 1" "a = 1\nb = 2" =
        .ok
          ("//! ```cargo\r\n//! a = 1\r\n//! b = 2\r\n",
            "a = 1\n") := by
  have hReturn :
      '\r' ∉ ("//! ```cargo\n//! a = 1" : Text) := by
    decide
  have hSame := line_ends_do_not_matter hReturn "a = 1\nb = 2"
  refine ⟨hReturn, hSame.1.trans ?_, hSame.2.trans ?_⟩
  · decide +kernel
  · decide +kernel

end Script

end ScriptWorkspace
