import ScriptWorkspace.Proofs.Script.Body

/-
  A source with its documentation lines respelled, read
  again.

  The lines that are replaced and the opaque lines between
  them are a region of the source. Every line outside of it
  stays, so the scan comes to the region in the state in
  which it came there before, and since the region begins
  and ends with a documentation line this state is the
  header, before and after. Inside, documentation lines come
  and go without any effect on the scan.

  Main declarations:
    * `IsRegion`
    * `IsRegion.splice_eq`
    * `respell_contentsOf`
    * `joinLines_of_areLines`
    * `endLines`, `joinLines_eq`
    * `IsRefilled.scan`
    * `IsRegion.ofText_respelled`
    * `IsRegion.docContents_respelled`
-/

namespace ScriptWorkspace

namespace Script

open Text

------------------------------------------------------------
-- Regions
------------------------------------------------------------

/- The first of some lines is a documentation line. -/
def StartsWithDoc (lines : List Line) : Prop :=
  ∃ line doc rest,
    lines = line :: rest ∧ line.doc = some doc

/- The last of some lines is a documentation line. -/
def EndsWithDoc (lines : List Line) : Prop :=
  ∃ init line doc,
    lines = init ++ [line] ∧ line.doc = some doc

/-
  The lines of a source from one documentation line up to
  the line after another one, both by their numbers.
-/
structure IsRegion
    (source : Source)
    (first stop : Nat)
    (before region after : List Line) : Prop where
  lines_eq : source.lines = before ++ region ++ after
  first_eq : (contentsOf before).length = first
  stop_eq : first + (contentsOf region).length = stop
  starts : StartsWithDoc region
  ends : EndsWithDoc region

/-
  Lines cut at two documentation lines, the second of which
  is not before the first.
-/
theorem exists_isRegion
    {source : Source}
    {first stop : Nat}
    (hLt : first < stop)
    (hStop : stop ≤ source.docContents.length) :
    ∃ before region after,
      IsRegion source first stop before region after := by
  have hFirst :
      first < (contentsOf source.lines).length :=
    Nat.lt_of_lt_of_le hLt hStop
  rcases exists_split_of_lt_length hFirst with
    ⟨before, head, tail, headDoc, hLines, hHead, hCount⟩
  have hTotal :
      (contentsOf source.lines).length =
        first + (contentsOf (head :: tail)).length := by
    rw [hLines, contentsOf_append, List.length_append,
      hCount]
  have hLast :
      stop - 1 - first <
        (contentsOf (head :: tail)).length := by
    have hBound : stop ≤ (contentsOf source.lines).length :=
      hStop
    omega
  rcases exists_split_of_lt_length hLast with
    ⟨init, last, after, lastDoc, hTail, hLastDoc,
      hLastCount⟩
  refine ⟨before, init ++ [last], after, ?_, hCount, ?_, ?_,
    ⟨init, last, lastDoc, rfl, hLastDoc⟩⟩
  · rw [hLines, hTail]
    simp
  · rw [contentsOf_append, List.length_append, hLastCount,
      contentsOf_cons_of_some hLastDoc]
    simp only [contentsOf_nil, List.length_singleton]
    omega
  · cases init with
    | nil =>
        refine ⟨last, lastDoc, [], rfl, hLastDoc⟩
    | cons first init =>
        rw [List.cons_append, List.cons.injEq] at hTail
        exact ⟨first, headDoc, init ++ [last], rfl,
          hTail.1 ▸ hHead⟩

namespace IsRegion

variable {source : Source}
variable {first stop : Nat}
variable {before region after : List Line}

/- The contents of a region are those between its numbers. -/
theorem contentsOf_region
    (hRegion :
      IsRegion source first stop before region after) :
    contentsOf region =
      (source.docContents.take stop).drop first := by
  have hContents :
      source.docContents =
        contentsOf before ++ contentsOf region ++
          contentsOf after := by
    change contentsOf source.lines = _
    rw [hRegion.lines_eq, contentsOf_append,
      contentsOf_append]
  rw [hContents, ← hRegion.stop_eq, ← hRegion.first_eq,
    ← List.length_append, List.take_left, List.drop_left]

/- What a splice answers, by the lines of the region. -/
theorem splice_eq
    (hRegion :
      IsRegion source first stop before region after)
    {anchor : Line}
    (hAnchor : source.docLine? (first - 1) = some anchor)
    (manifest : Text) :
    source.splice first stop manifest =
      .ok
        (joinLines anchor.newline
          (before.map Line.raw ++
            respell (renderDoc anchor anchor.newline) region
              (manifestLines manifest) ++
            after.map Line.raw)) := by
  rcases hRegion.starts with
    ⟨head, headDoc, rest, hRest, hHead⟩
  rcases hRegion.ends with
    ⟨init, last, lastDoc, hInit, hLast⟩
  have hStart :
      source.docIndices[first]? = some before.length := by
    have hLines :
        source.lines = before ++ head :: (rest ++ after) := by
      rw [hRegion.lines_eq, hRest, List.append_assoc,
        List.cons_append]
    rw [← hRegion.first_eq]
    exact Source.getElem?_docIndices hLines hHead
  have hRegionLength : region.length = init.length + 1 := by
    simp [hInit]
  have hStop :
      source.docIndices[stop - 1]? =
        some (before.length + init.length) := by
    have hNumber :
        stop - 1 = (contentsOf (before ++ init)).length := by
      have hCount := hRegion.stop_eq
      rw [hInit, contentsOf_append, List.length_append,
        contentsOf_cons_of_some hLast] at hCount
      rw [contentsOf_append, List.length_append,
        hRegion.first_eq]
      simp only [contentsOf_nil,
        List.length_singleton] at hCount
      omega
    have hLines :
        source.lines = (before ++ init) ++ last :: after := by
      rw [hRegion.lines_eq, hInit]
      simp
    rw [hNumber, ← List.length_append]
    exact Source.getElem?_docIndices hLines hLast
  have hBefore :
      source.lines.take before.length = before := by
    rw [hRegion.lines_eq, List.append_assoc, List.take_left]
  have hTake :
      source.lines.take (before.length + init.length + 1) =
        before ++ region := by
    have hLength :
        before.length + init.length + 1 =
          (before ++ region).length := by
      rw [List.length_append, hRegionLength]
      omega
    rw [hLength, hRegion.lines_eq, List.take_left]
  have hAfter :
      source.lines.drop (before.length + init.length + 1) =
        after := by
    have hLength :
        before.length + init.length + 1 =
          (before ++ region).length := by
      rw [List.length_append, hRegionLength]
      omega
    rw [hLength, hRegion.lines_eq, List.drop_left]
  unfold Source.splice
  rw [hAnchor, hStart, hStop]
  simp only [hBefore, hTake, hAfter, List.drop_left]
  unfold Line.newline
  cases anchor.terminator <;> rfl

end IsRegion

------------------------------------------------------------
-- Contents That Stay
------------------------------------------------------------

/- Lines given their own contents stay as they are. -/
theorem respell_contentsOf
    (render : Text → Text)
    (lines : List Line) :
    respell render lines (contentsOf lines) =
      lines.map Line.raw := by
  induction lines with
  | nil => rfl
  | cons line lines ih =>
      cases hDoc : line.doc with
      | none =>
          rw [contentsOf_cons_of_none hDoc]
          simp [respell, hDoc, ih]
      | some doc =>
          rw [contentsOf_cons_of_some hDoc]
          simp [respell, hDoc, ih]

/- Lines that are ended where they must be are only joined. -/
theorem joinLines_of_areLines
    (newline : Text)
    {lines : List Text}
    (hLines : AreLines lines) :
    joinLines newline lines = lines.flatten := by
  induction lines with
  | nil => rfl
  | cons line lines ih =>
      cases lines with
      | nil => simp [joinLines]
      | cons next lines =>
          have hRest := ih hLines.2
          simp only [joinLines, hLines.1.endsWith, if_true,
            hRest, List.flatten_cons]

------------------------------------------------------------
-- Ending Lines
------------------------------------------------------------

/- Lines of which all but the last are ended. -/
def endLines (newline : Text) : List Text → List Text
  | [] => []
  | [last] => [last]
  | line :: lines =>
    (if line.endsWith ['\n'] then line else line ++ newline)
      :: endLines newline lines

theorem joinLines_eq
    (newline : Text)
    (lines : List Text) :
    joinLines newline lines =
      (endLines newline lines).flatten := by
  fun_induction endLines newline lines with
  | case1 => rfl
  | case2 last => simp [joinLines]
  | case3 line lines hNext ih =>
      cases lines with
      | nil => exact absurd rfl hNext
      | cons next lines =>
          rw [List.flatten_cons, ← ih]
          rfl

/- Lines that are lines need no ending. -/
theorem endLines_of_areLines
    (newline : Text)
    {lines : List Text}
    (hLines : AreLines lines) :
    endLines newline lines = lines := by
  fun_induction endLines newline lines with
  | case1 => rfl
  | case2 last => rfl
  | case3 line lines hNext ih =>
      cases lines with
      | nil => exact absurd rfl hNext
      | cons next lines =>
          rw [ih hLines.2, if_pos hLines.1.endsWith]

/- A line that is ended stays as it is. -/
theorem endLines_cons_of_endsWith
    (newline : Text)
    {line : Text}
    (hEnds : line.endsWith ['\n'] = true)
    (lines : List Text) :
    endLines newline (line :: lines) =
      line :: endLines newline lines := by
  cases lines with
  | nil => rfl
  | cons next lines => simp [endLines, hEnds]

theorem endLines_append_of_endsWith
    (newline : Text)
    {front : List Text}
    (hEnds :
      ∀ line ∈ front, line.endsWith ['\n'] = true)
    (back : List Text) :
    endLines newline (front ++ back) =
      front ++ endLines newline back := by
  induction front with
  | nil => rfl
  | cons line front ih =>
      have hRest :=
        ih fun other hMem =>
          hEnds other (List.mem_cons_of_mem _ hMem)
      rw [List.cons_append,
        endLines_cons_of_endsWith newline
          (hEnds line List.mem_cons_self), hRest,
        List.cons_append]

/- Ended lines are lines. -/
theorem areLines_endLines
    (anchor : Line)
    {lines : List Text}
    (hLines : ∀ line ∈ lines, IsLine line) :
    AreLines (endLines anchor.newline lines) := by
  induction lines with
  | nil => exact True.intro
  | cons line lines ih =>
      have hLine := hLines line (by simp)
      have hRest :=
        ih fun other hMem =>
          hLines other (List.mem_cons_of_mem _ hMem)
      have hHead :
          EndedLine
            (if line.endsWith ['\n'] then line
              else line ++ anchor.newline) := by
        split
        · next hEnds =>
            exact hLine.endedLine_of_endsWith hEnds
        · next hEnds =>
            exact endedLine_append_newline
              (hLine.not_mem_of_not_endsWith hEnds) anchor
      cases lines with
      | nil => exact hLine
      | cons next lines =>
          rw [endLines]
          cases hTail : endLines anchor.newline
              (next :: lines) with
          | nil => exact hHead.isLine
          | cons other others =>
              rw [hTail] at hRest
              exact ⟨hHead, hRest⟩
          · simp

/-
  Ending a line keeps its text, unless that would run into
  the terminator.
-/
theorem map_lineText_endLines
    (anchor : Line)
    {lines : List Text}
    (hLines : ∀ line ∈ lines, IsLine line)
    (hReturn :
      ∀ line ∈ lines.dropLast,
        line.getLast? ≠ some '\r') :
    (endLines anchor.newline lines).map lineText =
      lines.map lineText := by
  induction lines with
  | nil => rfl
  | cons line lines ih =>
      cases lines with
      | nil => rfl
      | cons next lines =>
          have hLine := hLines line (by simp)
          have hRest :=
            ih (fun other hMem =>
                hLines other (List.mem_cons_of_mem _ hMem))
              (fun other hMem =>
                hReturn other (List.mem_cons_of_mem _ hMem))
          rw [endLines, List.map_cons, hRest,
            List.map_cons (l := next :: lines)]
          · congr 1
            split
            · rfl
            · next hEnds =>
                have hFree :=
                  hLine.not_mem_of_not_endsWith hEnds
                unfold lineText
                rw [splitTerminator_append_newline
                    (hReturn line (by simp)) anchor,
                  splitTerminator_of_not_mem hFree]
          · simp

------------------------------------------------------------
-- Respelled Marks
------------------------------------------------------------

/- The marks of lines that are given new contents. -/
def respellMarks
    (render : Text → Option DocText) :
    List Line → List Text → List (Option DocText)
  | [], contents => contents.map render
  | line :: lines, contents =>
    match line.doc, contents with
    | none, _ => none :: respellMarks render lines contents
    | some _, [] => respellMarks render lines []
    | some doc, content :: rest =>
      (if doc.content = content then some doc
        else render content) ::
        respellMarks render lines rest

/- The parts of the line that is written for a content. -/
def renderMark
    (anchor : Line)
    (content : Text) : Option DocText :=
  DocText.ofLine? (renderText anchor content)

/- The new lines carry the new contents. -/
theorem filterMap_respellMarks
    (anchor : Line)
    (lines : List Line)
    {contents : List Text}
    (hLines :
      ∀ line ∈ lines, ∀ doc, line.doc = some doc →
        DocText.ofLine? line.text = some doc)
    (hReturn : ∀ content ∈ contents, '\r' ∉ content) :
    (respellMarks (renderMark anchor) lines
          contents).filterMap
        (Option.map DocText.content) =
      contents.map (List.dropWhile (· == ' ')) := by
  induction lines generalizing contents with
  | nil =>
      induction contents with
      | nil => rfl
      | cons content contents ih =>
          rcases ofLine?_renderText anchor
              (hReturn content (by simp)) with
            ⟨marker, hMark⟩
          have hRest :=
            ih fun other hMem =>
              hReturn other (List.mem_cons_of_mem _ hMem)
          simp only [respellMarks] at hRest ⊢
          simp [renderMark, hMark] at hRest ⊢
          exact hRest
  | cons line lines ih =>
      have hTail :
          ∀ line ∈ lines, ∀ doc, line.doc = some doc →
            DocText.ofLine? line.text = some doc := by
        intro other hMem
        exact hLines other (List.mem_cons_of_mem _ hMem)
      cases hDoc : line.doc with
      | none =>
          simpa [respellMarks, hDoc] using
            ih hTail hReturn
      | some doc =>
          cases contents with
          | nil =>
              simpa [respellMarks, hDoc] using
                ih hTail hReturn
          | cons content contents =>
              have hRest :=
                ih hTail fun other hMem =>
                  hReturn other
                    (List.mem_cons_of_mem _ hMem)
              simp only [respellMarks, hDoc, List.map_cons]
              split
              · next hSame =>
                  have hOwn := DocText.dropWhile_content
                    (hLines line (by simp) doc hDoc)
                  rw [← hSame, hOwn]
                  simp [hRest]
              · rcases ofLine?_renderText anchor
                    (hReturn content (by simp)) with
                  ⟨marker, hMark⟩
                simp [renderMark, hMark, hRest]

------------------------------------------------------------
-- The Scan Of Respelled Lines
------------------------------------------------------------

theorem lineText_renderDoc
    (anchor : Line)
    {content : Text}
    (hReturn : '\r' ∉ content) :
    lineText (renderDoc anchor anchor.newline content) =
      renderText anchor content := by
  unfold lineText
  rw [renderDoc_eq, splitTerminator_append_newline
    (getLast?_renderText anchor hReturn)]

theorem lineText_raw
    {line : Line}
    (hSplit : line.IsSplit) :
    lineText line.raw = line.text := by
  unfold lineText
  rw [show splitTerminator line.raw = _ from hSplit]

/-
  Texts in the places of some lines, with their marks. Lines
  that are no documentation stay. In the place of one that is
  there is another one or none, and further ones can follow.
-/
inductive IsRefilled :
    List Line → List Text → List (Option DocText) → Prop
  | nil : IsRefilled [] [] []
  | kept
      {line : Line}
      {lines : List Line}
      {texts : List Text}
      {marks : List (Option DocText)}
      (hDoc : line.doc = none)
      (hRest : IsRefilled lines texts marks) :
      IsRefilled (line :: lines) (line.text :: texts)
        (none :: marks)
  | dropped
      {line : Line}
      {old : DocText}
      {lines : List Line}
      {texts : List Text}
      {marks : List (Option DocText)}
      (hDoc : line.doc = some old)
      (hRest : IsRefilled lines texts marks) :
      IsRefilled (line :: lines) texts marks
  | written
      {line : Line}
      {old doc : DocText}
      {lines : List Line}
      {text : Text}
      {texts : List Text}
      {marks : List (Option DocText)}
      (hDoc : line.doc = some old)
      (hText : DocText.ofLine? text = some doc)
      (hRest : IsRefilled lines texts marks) :
      IsRefilled (line :: lines) (text :: texts)
        (some doc :: marks)
  | added
      {doc : DocText}
      {text : Text}
      {texts : List Text}
      {marks : List (Option DocText)}
      (hText : DocText.ofLine? text = some doc)
      (hRest : IsRefilled [] texts marks) :
      IsRefilled [] (text :: texts) (some doc :: marks)

/-
  The induction is on the lines, from any state in which
  they lead to the header: the state changes at lines that
  are no documentation alone, and these stay.
-/
theorem IsRefilled.scan
    {lines : List Line}
    {texts : List Text}
    {marks : List (Option DocText)}
    (hRefilled : IsRefilled lines texts marks)
    {state : HeaderState}
    (hMarks :
      scanMarks state (lines.map Line.text) =
        lines.map Line.doc)
    (hEnd :
      scanEnd state (lines.map Line.text) = .header) :
    scanMarks state texts = marks ∧
      scanEnd state texts = .header := by
  induction hRefilled generalizing state with
  | nil => exact ⟨rfl, hEnd⟩
  | kept hDoc hRest ih =>
      simp only [List.map_cons, scanMarks, scanEnd,
        List.cons.injEq] at hMarks hEnd
      have hTail := ih hMarks.2 hEnd
      simp only [scanMarks, scanEnd, hMarks.1, hDoc, hTail,
        and_self]
  | dropped hDoc hRest ih =>
      simp only [List.map_cons, scanMarks, scanEnd,
        List.cons.injEq, hDoc] at hMarks hEnd
      rcases HeaderState.of_step_eq_some hMarks.1 with
        ⟨rfl, hText⟩
      rw [HeaderState.step_header_of_ofLine? hText]
        at hMarks hEnd
      exact ih hMarks.2 hEnd
  | written hDoc hText hRest ih =>
      simp only [List.map_cons, scanMarks, scanEnd,
        List.cons.injEq, hDoc] at hMarks hEnd
      rcases HeaderState.of_step_eq_some hMarks.1 with
        ⟨rfl, hOld⟩
      rw [HeaderState.step_header_of_ofLine? hOld]
        at hMarks hEnd
      have hTail := ih hMarks.2 hEnd
      simp only [scanMarks, scanEnd,
        HeaderState.step_header_of_ofLine? hText, hTail,
        and_self]
  | added hText hRest ih =>
      obtain rfl : state = .header := hEnd
      have hTail := ih rfl rfl
      simp only [scanMarks, scanEnd,
        HeaderState.step_header_of_ofLine? hText, hTail,
        and_self]

/- What is read where a content was written. -/
theorem exists_renderMark_eq
    (anchor : Line)
    {content : Text}
    (hReturn : '\r' ∉ content) :
    ∃ doc,
      renderMark anchor content = some doc ∧
        DocText.ofLine?
            (lineText
              (renderDoc anchor anchor.newline content)) =
          some doc := by
  rcases ofLine?_renderText anchor hReturn with
    ⟨marker, hMark⟩
  rw [lineText_renderDoc anchor hReturn]
  exact ⟨_, hMark, hMark⟩

/- Contents that are left over are added. -/
theorem isRefilled_map_renderDoc
    (anchor : Line)
    {contents : List Text}
    (hReturn : ∀ content ∈ contents, '\r' ∉ content) :
    IsRefilled []
      ((contents.map
        (renderDoc anchor anchor.newline)).map lineText)
      (contents.map (renderMark anchor)) := by
  induction contents with
  | nil => exact .nil
  | cons content contents ih =>
      rcases List.forall_mem_cons.mp hReturn with
        ⟨hHead, hTail⟩
      rcases exists_renderMark_eq anchor hHead with
        ⟨doc, hMark, hText⟩
      rw [List.map_cons, List.map_cons, List.map_cons, hMark]
      exact .added hText (ih hTail)

/- The lines of a region are refilled when it is respelled. -/
theorem isRefilled_respell
    (anchor : Line)
    {lines : List Line}
    {contents : List Text}
    (hSplit : ∀ line ∈ lines, line.IsSplit)
    (hLines :
      ∀ line ∈ lines, ∀ doc, line.doc = some doc →
        DocText.ofLine? line.text = some doc)
    (hReturn : ∀ content ∈ contents, '\r' ∉ content) :
    IsRefilled lines
      ((respell (renderDoc anchor anchor.newline) lines
        contents).map lineText)
      (respellMarks (renderMark anchor) lines contents) := by
  induction lines generalizing contents with
  | nil => exact isRefilled_map_renderDoc anchor hReturn
  | cons line lines ih =>
      rcases List.forall_mem_cons.mp hSplit with
        ⟨hOwn, hSplits⟩
      rcases List.forall_mem_cons.mp hLines with
        ⟨hLine, hOthers⟩
      cases hDoc : line.doc with
      | none =>
          simp only [respell, respellMarks, hDoc,
            List.map_cons, lineText_raw hOwn]
          exact .kept hDoc (ih hSplits hOthers hReturn)
      | some doc =>
          cases contents with
          | nil =>
              simp only [respell, respellMarks, hDoc]
              exact .dropped hDoc (ih hSplits hOthers hReturn)
          | cons content contents =>
              rcases List.forall_mem_cons.mp hReturn with
                ⟨hHead, hTail⟩
              rcases exists_renderMark_eq anchor hHead with
                ⟨new, hMark, hText⟩
              have hRest := ih hSplits hOthers hTail
              simp only [respell, respellMarks, hDoc,
                List.map_cons, hMark]
              split
              · rw [lineText_raw hOwn]
                exact .written hDoc (hLine doc hDoc) hRest
              · exact .written hDoc hText hRest

------------------------------------------------------------
-- Reading Again
------------------------------------------------------------

/- Every line that respelling gives is an old or a new one. -/
theorem mem_respell
    {render : Text → Text}
    {lines : List Line}
    {contents : List Text}
    {raw : Text}
    (hMem : raw ∈ respell render lines contents) :
    (∃ line ∈ lines, line.doc = none ∧ raw = line.raw) ∨
      (∃ line ∈ lines, ∃ doc,
        line.doc = some doc ∧ doc.content ∈ contents ∧
          raw = line.raw) ∨
      ∃ content ∈ contents, raw = render content := by
  fun_induction respell render lines contents with
  | case1 contents =>
      rcases List.mem_map.mp hMem with
        ⟨content, hContent, rfl⟩
      exact Or.inr (Or.inr ⟨content, hContent, rfl⟩)
  | case2 line lines contents hDoc ih =>
      rcases List.mem_cons.mp hMem with rfl | hMem
      · exact Or.inl ⟨line, by simp, hDoc, rfl⟩
      · rcases ih hMem with
          ⟨other, hOther, hNone⟩ |
          ⟨other, hOther, hSome⟩ | hNew
        · exact Or.inl ⟨other, by simp [hOther], hNone⟩
        · exact Or.inr
            (Or.inl ⟨other, by simp [hOther], hSome⟩)
        · exact Or.inr (Or.inr hNew)
  | case3 line lines doc hDoc ih =>
      rcases ih hMem with
        ⟨other, hOther, hNone⟩ |
        ⟨other, hOther, hSome⟩ | hNew
      · exact Or.inl ⟨other, by simp [hOther], hNone⟩
      · exact Or.inr
          (Or.inl ⟨other, by simp [hOther], hSome⟩)
      · exact Or.inr (Or.inr hNew)
  | case4 line lines doc content rest hDoc ih =>
      rcases List.mem_cons.mp hMem with hRaw | hMem
      · split at hRaw
        · next hSame =>
            exact Or.inr
              (Or.inl
                ⟨line, by simp, doc, hDoc,
                  by simp [hSame], hRaw⟩)
        · exact Or.inr
            (Or.inr ⟨content, by simp, hRaw⟩)
      · rcases ih hMem with
          ⟨other, hOther, hNone⟩ |
          ⟨other, hOther, lineDoc, hSome, hIn, hEq⟩ |
          ⟨other, hIn, hEq⟩
        · exact Or.inl ⟨other, by simp [hOther], hNone⟩
        · exact Or.inr
            (Or.inl
              ⟨other, by simp [hOther], lineDoc, hSome,
                by simp [hIn], hEq⟩)
        · exact Or.inr (Or.inr ⟨other, by simp [hIn], hEq⟩)

namespace IsRegion

variable {script : Text} {source : Source}
variable {first stop : Nat}
variable {before region after : List Line}

/- The lines of a source with new contents in a region. -/
def respelled
    (anchor : Line)
    (before region after : List Line)
    (contents : List Text) : List Text :=
  before.map Line.raw ++
    respell (renderDoc anchor anchor.newline) region
      contents ++
    after.map Line.raw

theorem region_ne_nil
    (hRegion :
      IsRegion source first stop before region after) :
    region ≠ [] := by
  rcases hRegion.starts with ⟨line, doc, rest, rfl, _⟩
  simp

theorem before_ne_nil
    (hRegion :
      IsRegion source first stop before region after)
    (hFirst : 0 < first) :
    before ≠ [] := by
  rintro rfl
  have hCount := hRegion.first_eq
  simp only [contentsOf_nil, List.length_nil] at hCount
  omega

/- Which lines of a source must be ended. -/
theorem areLines
    (hRegion :
      IsRegion source first stop before region after)
    (hRead : Source.ofText script = .ok source) :
    (∀ line ∈ before, EndedLine line.raw) ∧
      AreLines (region.map Line.raw ++
        after.map Line.raw) := by
  have hLines := Source.areLines_map_raw hRead
  rw [hRegion.lines_eq, List.map_append, List.map_append,
    List.append_assoc, areLines_append_iff] at hLines
  · constructor
    · intro line hMem
      exact hLines.1 _ (List.mem_map_of_mem hMem)
    · exact hLines.2
  · simp [hRegion.region_ne_nil]

/-
  Of the lines of a region only a documentation line can be
  without a line feed: the last one.
-/
theorem endedLine_of_opaque
    (hRegion :
      IsRegion source first stop before region after)
    (hRead : Source.ofText script = .ok source)
    {line : Line}
    (hMem : line ∈ region)
    (hDoc : line.doc = none) :
    EndedLine line.raw := by
  rcases hRegion.ends with
    ⟨init, last, lastDoc, hInit, hLast⟩
  have hLines := (hRegion.areLines hRead).2
  rw [hInit, List.map_append, List.append_assoc,
    areLines_append_iff _ (by simp)] at hLines
  rw [hInit] at hMem
  rcases List.mem_append.mp hMem with hIn | hIn
  · exact hLines.1 _ (List.mem_map_of_mem hIn)
  · rw [List.mem_singleton.mp hIn, hLast] at hDoc
    simp at hDoc

/- Each line of a respelled region is a line. -/
theorem isLine_of_mem_respell
    (hRegion :
      IsRegion source first stop before region after)
    (hRead : Source.ofText script = .ok source)
    {anchor : Line}
    (hAnchor : '\n' ∉ anchor.text)
    {contents : List Text}
    (hFeed : ∀ content ∈ contents, '\n' ∉ content)
    {raw : Text}
    (hMem :
      raw ∈ respell (renderDoc anchor anchor.newline) region
        contents) :
    IsLine raw := by
  rcases mem_respell hMem with
    ⟨line, hLine, hDoc, rfl⟩ |
    ⟨line, hLine, _, _, _, rfl⟩ |
    ⟨content, hContent, rfl⟩
  · exact
      (hRegion.endedLine_of_opaque hRead hLine hDoc).isLine
  · exact
      (hRegion.areLines hRead).2.isLine_of_mem
        (List.mem_append_left _
          (List.mem_map_of_mem hLine))
  · rw [renderDoc_eq]
    exact
      (endedLine_append_newline
        (not_mem_renderText hAnchor (hFeed content hContent))
        anchor).isLine

/- And it does not end with a carriage return. -/
theorem getLast?_of_mem_respell
    (hRegion :
      IsRegion source first stop before region after)
    (hRead : Source.ofText script = .ok source)
    {anchor : Line}
    (hAnchor : '\n' ∉ anchor.text)
    {contents : List Text}
    (hFeed : ∀ content ∈ contents, '\n' ∉ content)
    (hReturn : ∀ content ∈ contents, '\r' ∉ content)
    {raw : Text}
    (hMem :
      raw ∈ respell (renderDoc anchor anchor.newline) region
        contents) :
    raw.getLast? ≠ some '\r' := by
  have hIsLine :=
    hRegion.isLine_of_mem_respell hRead hAnchor hFeed hMem
  rcases hIsLine with hEnded | ⟨_, hFree⟩
  · exact hEnded.getLast?_ne
  rcases mem_respell hMem with
    ⟨line, hLine, hDoc, rfl⟩ |
    ⟨line, hLine, doc, hDoc, hContent, rfl⟩ |
    ⟨content, hContent, rfl⟩
  · exact
      (hRegion.endedLine_of_opaque hRead hLine
        hDoc).getLast?_ne
  · have hIn : line ∈ source.lines := by
      rw [hRegion.lines_eq]
      simp [hLine]
    have hText : line.text = line.raw := by
      have hSplit := Source.isSplit_of_ofText hRead hIn
      unfold Line.IsSplit at hSplit
      rw [splitTerminator_of_not_mem hFree] at hSplit
      exact (congrArg Prod.fst hSplit).symm
    rw [← hText]
    apply DocText.getLast?_text
      (Source.ofLine?_of_ofText hRead hIn hDoc)
    intro hLast
    exact hReturn _ hContent (List.mem_of_getLast? hLast)
  · rw [renderDoc_eq]
    exact
      (endedLine_append_newline
        (not_mem_renderText hAnchor (hFeed content hContent))
        anchor).getLast?_ne

/- Respelled lines are lines. -/
theorem isLine_of_mem_respelled
    (hRegion :
      IsRegion source first stop before region after)
    (hRead : Source.ofText script = .ok source)
    {anchor : Line}
    (hAnchor : '\n' ∉ anchor.text)
    {contents : List Text}
    (hFeed : ∀ content ∈ contents, '\n' ∉ content) :
    ∀ raw ∈ respelled anchor before region after contents,
      IsLine raw := by
  have hLines := hRegion.areLines hRead
  intro raw hMem
  rcases List.mem_append.mp hMem with hMem | hMem
  · rcases List.mem_append.mp hMem with hMem | hMem
    · rcases List.mem_map.mp hMem with ⟨line, hLine, rfl⟩
      exact (hLines.1 line hLine).isLine
    · exact
        hRegion.isLine_of_mem_respell hRead hAnchor hFeed
          hMem
  · exact hLines.2.isLine_of_mem
      (List.mem_append_right _ hMem)

/- None that another one follows ends in a carriage return. -/
theorem getLast?_of_mem_respelled
    (hRegion :
      IsRegion source first stop before region after)
    (hRead : Source.ofText script = .ok source)
    {anchor : Line}
    (hAnchor : '\n' ∉ anchor.text)
    {contents : List Text}
    (hFeed : ∀ content ∈ contents, '\n' ∉ content)
    (hReturn : ∀ content ∈ contents, '\r' ∉ content) :
    ∀ raw ∈
        (respelled anchor before region after
          contents).dropLast,
      raw.getLast? ≠ some '\r' := by
  have hLines := hRegion.areLines hRead
  have hRespelled :
      ∀ raw ∈ respell (renderDoc anchor anchor.newline)
          region contents,
        raw.getLast? ≠ some '\r' := by
    intro raw hMem
    exact
      hRegion.getLast?_of_mem_respell hRead hAnchor hFeed
        hReturn hMem
  intro raw hMem
  rcases List.eq_nil_or_concat (after.map Line.raw) with
    hNil | ⟨init, last, hConcat⟩
  · have hIn := List.dropLast_subset _ hMem
    unfold respelled at hIn
    rw [hNil, List.append_nil] at hIn
    rcases List.mem_append.mp hIn with hIn | hIn
    · rcases List.mem_map.mp hIn with ⟨line, hLine, rfl⟩
      exact (hLines.1 line hLine).getLast?_ne
    · exact hRespelled raw hIn
  · rw [List.concat_eq_append] at hConcat
    unfold respelled at hMem
    rw [hConcat, ← List.append_assoc,
      List.dropLast_concat] at hMem
    have hAfter := hLines.2
    rw [hConcat, ← List.append_assoc,
      areLines_append_iff _ (by simp)] at hAfter
    rcases List.mem_append.mp hMem with hMem | hMem
    · rcases List.mem_append.mp hMem with hMem | hMem
      · rcases List.mem_map.mp hMem with ⟨line, hLine, rfl⟩
        exact (hLines.1 line hLine).getLast?_ne
      · exact hRespelled raw hMem
    · exact
        (hAfter.1 raw
          (List.mem_append_right _ hMem)).getLast?_ne

theorem isSplit_of_mem
    (hRegion :
      IsRegion source first stop before region after)
    (hRead : Source.ofText script = .ok source)
    {line : Line}
    (hMem : line ∈ before ++ region ++ after) :
    line.IsSplit := by
  rw [← hRegion.lines_eq] at hMem
  exact Source.isSplit_of_ofText hRead hMem

/- The documentation lines of a region are read as such. -/
theorem ofLine?_of_mem
    (hRegion :
      IsRegion source first stop before region after)
    (hRead : Source.ofText script = .ok source) :
    ∀ line ∈ region, ∀ doc, line.doc = some doc →
      DocText.ofLine? line.text = some doc := by
  intro line hMem doc hDoc
  apply Source.ofLine?_of_ofText hRead _ hDoc
  rw [hRegion.lines_eq]
  simp [hMem]

/- The texts of the lines of a source. -/
theorem map_lineText_raw
    (hRegion :
      IsRegion source first stop before region after)
    (hRead : Source.ofText script = .ok source)
    {lines : List Line}
    (hIn :
      ∀ line ∈ lines, line ∈ before ++ region ++ after) :
    (lines.map Line.raw).map lineText =
      lines.map Line.text := by
  rw [List.map_map]
  apply List.map_congr_left
  intro line hMem
  apply lineText_raw
  exact hRegion.isSplit_of_mem hRead (hIn line hMem)

/-
  The marks of a source, cut at a region. A region ends in
  the header, so what follows it is read as if it stood
  behind any other documentation line.
-/
theorem marks_eq
    (hRegion :
      IsRegion source first stop before region after)
    (hFirst : 0 < first)
    (hRead : Source.ofText script = .ok source) :
    headerMarks (before.map Line.text) =
        before.map Line.doc ∧
      scanMarks (headerEnd (before.map Line.text))
          (region.map Line.text) =
        region.map Line.doc ∧
      scanEnd (headerEnd (before.map Line.text))
          (region.map Line.text) =
        .header ∧
      scanMarks .header (after.map Line.text) =
        after.map Line.doc := by
  have hBeforeNe : before.map Line.text ≠ [] := by
    simp [hRegion.before_ne_nil hFirst]
  have hMarks := Source.map_doc_of_ofText hRead
  rw [← Source.map_text_of_ofText hRead,
    hRegion.lines_eq] at hMarks
  simp only [List.map_append, List.append_assoc] at hMarks
  rw [headerMarks_append hBeforeNe, scanMarks_append]
    at hMarks
  have hBefore :=
    List.append_inj hMarks (by simp [length_headerMarks])
  have hInside := List.append_inj hBefore.2 (by simp)
  have hEnd :
      scanEnd (headerEnd (before.map Line.text))
          (region.map Line.text) =
        .header := by
    rcases hRegion.ends with
      ⟨init, last, lastDoc, hInit, hLast⟩
    have hMarked :
        scanMarks (headerEnd (before.map Line.text))
            (init.map Line.text ++ [last].map Line.text) =
          init.map Line.doc ++ [some lastDoc] := by
      simpa [hInit, hLast] using hInside.1.symm
    rw [hInit, List.map_append]
    exact scanEnd_of_marked hMarked
  have hAfter := hInside.2
  rw [hEnd] at hAfter
  exact
    ⟨hBefore.1.symm, hInside.1.symm, hEnd, hAfter.symm⟩

/- The lines of the script that respelled lines make. -/
theorem rawLines_respelled
    (hRegion :
      IsRegion source first stop before region after)
    (hRead : Source.ofText script = .ok source)
    {anchor : Line}
    (hAnchor : '\n' ∉ anchor.text)
    {contents : List Text}
    (hFeed : ∀ content ∈ contents, '\n' ∉ content) :
    rawLines
        (joinLines anchor.newline
          (respelled anchor before region after
            contents)) =
      endLines anchor.newline
        (respelled anchor before region after contents) := by
  rw [joinLines_eq]
  exact
    rawLines_flatten
      (areLines_endLines anchor
        (hRegion.isLine_of_mem_respelled hRead hAnchor
          hFeed))

theorem lineTexts_respelled
    (hRegion :
      IsRegion source first stop before region after)
    (hRead : Source.ofText script = .ok source)
    {anchor : Line}
    (hAnchor : '\n' ∉ anchor.text)
    {contents : List Text}
    (hFeed : ∀ content ∈ contents, '\n' ∉ content)
    (hReturn : ∀ content ∈ contents, '\r' ∉ content) :
    lineTexts
        (joinLines anchor.newline
          (respelled anchor before region after
            contents)) =
      before.map Line.text ++
        ((respell (renderDoc anchor anchor.newline)
            region contents).map lineText ++
          after.map Line.text) := by
  have hIsLine :=
    hRegion.isLine_of_mem_respelled hRead hAnchor hFeed
  have hReturns :=
    hRegion.getLast?_of_mem_respelled hRead hAnchor hFeed
      hReturn
  unfold lineTexts
  rw [hRegion.rawLines_respelled hRead hAnchor hFeed,
    map_lineText_endLines anchor hIsLine hReturns]
  unfold respelled
  rw [List.map_append, List.map_append,
    hRegion.map_lineText_raw hRead
      (by intro line hMem; simp [hMem]),
    hRegion.map_lineText_raw hRead
      (by intro line hMem; simp [hMem]),
    List.append_assoc]

/-
  Other texts in the place of a region, from which the header
  goes on, leave a source that can be read. Nothing outside
  of the region is read in another way.
-/
theorem ofText_of_lineTexts
    (hRegion :
      IsRegion source first stop before region after)
    (hFirst : 0 < first)
    (hRead : Source.ofText script = .ok source)
    {replaced : Text}
    {middle : List Text}
    (hTexts :
      lineTexts replaced =
        before.map Line.text ++
          (middle ++ after.map Line.text))
    (hScan :
      scanEnd (headerEnd (before.map Line.text)) middle =
        .header) :
    ∃ next,
      Source.ofText replaced = .ok next ∧
        next.shebang = source.shebang ∧
        next.lines.map Line.raw = rawLines replaced ∧
        next.lines.map Line.doc =
          before.map Line.doc ++
            scanMarks (headerEnd (before.map Line.text))
              middle ++
            after.map Line.doc := by
  have hBeforeNe : before.map Line.text ≠ [] := by
    simp [hRegion.before_ne_nil hFirst]
  rcases hRegion.marks_eq hFirst hRead with
    ⟨hBeforeMarks, _, hRegionEnd, hAfterMarks⟩
  have hOldTexts := Source.map_text_of_ofText hRead
  rw [hRegion.lines_eq] at hOldTexts
  simp only [List.map_append, List.append_assoc] at hOldTexts
  have hClosed : (headerEnd (lineTexts replaced)).IsClosed := by
    have hOld := (Source.of_ofText hRead).1
    rw [← hOldTexts, headerEnd_append hBeforeNe,
      scanEnd_append, hRegionEnd] at hOld
    rw [hTexts, headerEnd_append hBeforeNe, scanEnd_append,
      hScan]
    exact hOld
  refine ⟨_, Source.ofText_eq_ok hClosed, ?_, ?_, ?_⟩
  · rw [(Source.of_ofText hRead).2.2, hTexts, ← hOldTexts,
      namesInterpreter_append hBeforeNe,
      namesInterpreter_append hBeforeNe]
  · exact Source.map_raw_markedLines _
  · rw [Source.map_doc_markedLines, hTexts,
      headerMarks_append hBeforeNe, scanMarks_append,
      hScan, hBeforeMarks, hAfterMarks, List.append_assoc]

/-
  A source with a region respelled is read again: nothing
  outside of the region is read in another way.
-/
theorem ofText_respelled
    (hRegion :
      IsRegion source first stop before region after)
    (hFirst : 0 < first)
    (hRead : Source.ofText script = .ok source)
    {anchor : Line}
    (hAnchor : '\n' ∉ anchor.text)
    {contents : List Text}
    (hFeed : ∀ content ∈ contents, '\n' ∉ content)
    (hReturn : ∀ content ∈ contents, '\r' ∉ content) :
    ∃ next,
      Source.ofText
          (joinLines anchor.newline
            (respelled anchor before region after
              contents)) =
        .ok next ∧
        next.shebang = source.shebang ∧
        next.lines.map Line.raw =
          endLines anchor.newline
            (respelled anchor before region after
              contents) ∧
        next.lines.map Line.doc =
          before.map Line.doc ++
            respellMarks (renderMark anchor) region
              contents ++
            after.map Line.doc := by
  rcases hRegion.marks_eq hFirst hRead with
    ⟨_, hRegionMarks, hRegionEnd, _⟩
  have hScan :=
    (isRefilled_respell anchor
        (fun line hMem =>
          hRegion.isSplit_of_mem hRead (by simp [hMem]))
        (hRegion.ofLine?_of_mem hRead) hReturn).scan
      hRegionMarks hRegionEnd
  have hTexts :=
    hRegion.lineTexts_respelled hRead hAnchor hFeed hReturn
  rcases hRegion.ofText_of_lineTexts hFirst hRead hTexts
      hScan.2 with
    ⟨next, hNext, hShebang, hRaws, hDocs⟩
  rw [hRegion.rawLines_respelled hRead hAnchor hFeed]
    at hRaws
  rw [hScan.1] at hDocs
  exact ⟨next, hNext, hShebang, hRaws, hDocs⟩

/- What the documentation says after a region is respelled. -/
theorem docContents_respelled
    (hRegion :
      IsRegion source first stop before region after)
    (hRead : Source.ofText script = .ok source)
    {anchor : Line}
    {contents : List Text}
    (hReturn : ∀ content ∈ contents, '\r' ∉ content)
    {next : Source}
    (hDocs :
      next.lines.map Line.doc =
        before.map Line.doc ++
          respellMarks (renderMark anchor) region contents ++
          after.map Line.doc) :
    next.docContents =
      contentsOf before ++
        contents.map (List.dropWhile (· == ' ')) ++
        contentsOf after := by
  change contentsOf next.lines = _
  rw [contentsOf_eq_filterMap, hDocs, List.filterMap_append,
    List.filterMap_append, ← contentsOf_eq_filterMap,
    ← contentsOf_eq_filterMap,
    filterMap_respellMarks anchor region
      (hRegion.ofLine?_of_mem hRead) hReturn]

end IsRegion

end Script

end ScriptWorkspace
