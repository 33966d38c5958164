import ScriptWorkspace.Proofs.Script.Locality

/-
  Manifests with carriage returns, read again.

  Of a line of a manifest, neither a carriage return at its
  end nor the spaces in front of it are sure to be read
  again. All else is, whatever the ends of the lines of the
  script are.

  Main declarations:
    * `AreReread`
    * `DocText.exists_of_append_return`
    * `exists_isRefilled_respellEnded`
    * `IsRegion.exists_reread`
    * `extract_replace_reread`
-/

namespace ScriptWorkspace

namespace Script

open Text Markdown

------------------------------------------------------------
-- Contents That Are Read Again
------------------------------------------------------------

/-
  The contents that are read where some were written: apart
  from carriage returns at their ends they are the same,
  without the spaces in front.
-/
def AreReread (contents news : List Text) : Prop :=
  news.map dropCarriageReturn =
    contents.map fun content =>
      (dropCarriageReturn content).dropWhile (· == ' ')

theorem dropCarriageReturn_append (text : Text) :
    dropCarriageReturn (text ++ ['\r']) = text := by
  unfold dropCarriageReturn
  rw [if_pos, List.dropLast_concat]
  rw [endsWith_singleton_iff]
  exact ⟨text, rfl⟩

theorem dropCarriageReturn_append_of_ne
    {c : Char}
    (hChar : c ≠ '\r')
    (text : Text) :
    dropCarriageReturn (text ++ [c]) = text ++ [c] := by
  apply if_neg
  rw [endsWith_singleton_iff]
  rintro ⟨start, hStart⟩
  have hParts := List.append_inj' hStart rfl
  cases hParts.2
  exact hChar rfl

/- A text without one carriage return is what it was before. -/
theorem dropCarriageReturn_cases (text : Text) :
    dropCarriageReturn text = text ∨
      text = dropCarriageReturn text ++ ['\r'] := by
  by_cases hEnds : text.endsWith ['\r'] = true
  · rcases (endsWith_singleton_iff _ _).mp hEnds with
      ⟨start, rfl⟩
    rw [dropCarriageReturn_append]
    exact .inr rfl
  · exact .inl (if_neg hEnds)

theorem not_mem_dropCarriageReturn
    {c : Char}
    {text : Text}
    (hMissing : c ∉ text) :
    c ∉ dropCarriageReturn text := by
  intro hMem
  apply hMissing
  rcases dropCarriageReturn_cases text with hSame | hText
  · rwa [hSame] at hMem
  · rw [hText]
    exact List.mem_append_left _ hMem

/- What begins with no space still begins with none. -/
theorem dropWhile_dropCarriageReturn
    {text : Text}
    (hSpaces : text.dropWhile (· == ' ') = text) :
    (dropCarriageReturn text).dropWhile (· == ' ') =
      dropCarriageReturn text := by
  rcases dropCarriageReturn_cases text with hSame | hText
  · rw [hSame, hSpaces]
  · generalize dropCarriageReturn text = start at hText
    subst hText
    cases start with
    | nil => rfl
    | cons c start =>
        cases hChar : c == ' ' with
        | false => simp [hChar]
        | true =>
            have hLength := congrArg List.length hSpaces
            have hLess :=
              (List.dropWhile_suffix (· == ' ')
                (l := start ++ ['\r'])).length_le
            simp only [List.cons_append, List.dropWhile_cons,
              hChar, if_true, List.length_cons] at hLength
            omega

/- A carriage return at the end of a content is not written. -/
theorem renderDoc_dropCarriageReturn
    {content : Text}
    (hReturn : '\r' ∉ dropCarriageReturn content)
    (anchor : Line)
    (newline : Text) :
    renderDoc anchor newline (dropCarriageReturn content) =
      renderDoc anchor newline content := by
  unfold renderDoc
  rw [dropCarriageReturn_of_not_mem hReturn]

/- What is read where a content was written. -/
theorem exists_ofLine?_renderDoc
    (anchor : Line)
    {content : Text}
    (hReturn : '\r' ∉ dropCarriageReturn content) :
    ∃ doc,
      DocText.ofLine?
          (lineText (renderDoc anchor anchor.newline content)) =
        some doc ∧
        dropCarriageReturn doc.content =
          (dropCarriageReturn content).dropWhile
            (· == ' ') := by
  rcases ofLine?_renderText anchor hReturn with
    ⟨marker, hMark⟩
  rw [← renderDoc_dropCarriageReturn hReturn,
    lineText_renderDoc anchor hReturn]
  refine ⟨_, hMark, ?_⟩
  apply dropCarriageReturn_of_not_mem
  intro hMem
  exact hReturn ((List.dropWhile_suffix _).subset hMem)

/- A documentation line that loses its last character. -/
theorem DocText.exists_of_append_return
    {body : Text}
    {doc : DocText}
    (hDoc : DocText.ofLine? (body ++ ['\r']) = some doc) :
    ∃ other,
      DocText.ofLine? body = some other ∧
        other.content = dropCarriageReturn doc.content := by
  rcases DocText.exists_of_ofLine? hDoc with
    ⟨rest, hText, hContent⟩
  have hIndent :
      ∀ c ∈ (body ++ ['\r']).indentation,
        isBlank c = true := by
    intro c hMem
    exact isBlank_of_mem_indentation hMem
  generalize (body ++ ['\r']).indentation = indent
    at hText hIndent
  rcases List.eq_nil_or_concat rest with
    rfl | ⟨init, c, rfl⟩
  · have hLast := congrArg List.getLast? hText
    simp [docToken] at hLast
  · rw [List.concat_eq_append] at hText hContent
    rw [← List.append_assoc] at hText
    have hParts := List.append_inj' hText rfl
    cases hParts.2
    rw [hParts.1, DocText.ofLine?_docLine hIndent]
    refine ⟨_, rfl, ?_⟩
    rw [hContent, List.dropWhile_append]
    split
    · next hNil =>
      rw [List.isEmpty_iff] at hNil
      rw [hNil]
      rfl
    · rw [dropCarriageReturn_append]

/-
  The text of a line that gets another end: if it ends with a
  carriage return, that may become part of the end.
-/
theorem lineText_append_newline
    (anchor : Line)
    (text : Text) :
    lineText (text ++ anchor.newline) = text ∨
      text = lineText (text ++ anchor.newline) ++ ['\r'] := by
  unfold lineText
  by_cases hLast : text.getLast? = some '\r'
  · rcases List.eq_nil_or_concat text with
      rfl | ⟨body, c, rfl⟩
    · cases hLast
    rw [List.concat_eq_append] at hLast ⊢
    have hChar : c = '\r' := by simpa using hLast
    subst hChar
    by_cases hEnd :
        anchor.terminator.orLineFeed =
          .carriageReturnLineFeed
    · left
      unfold Line.newline
      rw [hEnd, splitTerminator_append_toText (by simp)
        (fun _ => rfl)]
    · right
      have hFeed : anchor.newline = ['\n'] := by
        unfold Line.newline
        cases hTerminator : anchor.terminator with
        | none => rfl
        | lineFeed => rfl
        | carriageReturnLineFeed =>
            rw [hTerminator] at hEnd
            exact absurd rfl hEnd
      have hSplit :
          splitTerminator
              (body ++
                Terminator.carriageReturnLineFeed.toText) =
            (body, .carriageReturnLineFeed) :=
        splitTerminator_append_toText (by simp) fun _ => rfl
      rw [Terminator.toText] at hSplit
      rw [hFeed, List.append_assoc, List.singleton_append,
        hSplit]
  · left
    rw [splitTerminator_append_newline hLast]

/- What is read where a line was kept. -/
theorem exists_ofLine?_kept
    (anchor : Line)
    {line : Line}
    (hSplit : line.IsSplit)
    {doc : DocText}
    (hDoc : DocText.ofLine? line.text = some doc)
    (hReturn : '\r' ∉ dropCarriageReturn doc.content)
    (isLast : Bool) :
    ∃ other,
      DocText.ofLine? (lineText (anchor.kept line isLast)) =
        some other ∧
        dropCarriageReturn other.content =
          dropCarriageReturn doc.content := by
  unfold Line.kept
  split
  · next hEnd =>
    have hRaw : line.raw = line.text := by
      unfold Line.raw
      rw [hEnd.1, Terminator.toText, List.append_nil]
    rw [hRaw]
    rcases lineText_append_newline anchor line.text with
      hText | hText
    · rw [hText]
      exact ⟨doc, hDoc, rfl⟩
    · rw [hText] at hDoc
      rcases DocText.exists_of_append_return hDoc with
        ⟨other, hOther, hContent⟩
      refine ⟨other, hOther, ?_⟩
      rw [hContent, dropCarriageReturn_of_not_mem hReturn]
  · rw [lineText_raw hSplit]
    exact ⟨doc, hDoc, rfl⟩

/- A line that is kept or written anew is read again. -/
theorem exists_ofLine?_written
    (anchor : Line)
    {line : Line}
    {doc : DocText}
    {content : Text}
    (hSplit : line.IsSplit)
    (hText : DocText.ofLine? line.text = some doc)
    (hReturn : '\r' ∉ dropCarriageReturn content)
    (last : Bool) :
    ∃ new,
      DocText.ofLine?
          (lineText
            (if doc.content = content then
              anchor.kept line last
            else
              renderDoc anchor anchor.newline content)) =
        some new ∧
        dropCarriageReturn new.content =
          (dropCarriageReturn content).dropWhile
            (· == ' ') := by
  split
  · next hSame =>
    rw [← hSame] at hReturn ⊢
    rw [dropWhile_dropCarriageReturn
      (DocText.dropWhile_content hText)]
    exact exists_ofLine?_kept anchor hSplit hText hReturn _
  · exact exists_ofLine?_renderDoc anchor hReturn

------------------------------------------------------------
-- Refilled Lines That Are Read Again
------------------------------------------------------------

/- The contents of some marks. -/
def markContents (marks : List (Option DocText)) : List Text :=
  marks.filterMap (Option.map DocText.content)

/- One content more is read again. -/
theorem AreReread.cons
    {contents : List Text}
    {marks : List (Option DocText)}
    (hRest : AreReread contents (markContents marks))
    {content : Text}
    {doc : DocText}
    (hContent :
      dropCarriageReturn doc.content =
        (dropCarriageReturn content).dropWhile (· == ' ')) :
    AreReread (content :: contents)
      (markContents (some doc :: marks)) := by
  unfold AreReread markContents at hRest ⊢
  simp only [List.map_cons, List.filterMap_cons,
    Option.map_some, hContent, hRest]

/- Contents that are left over are added and read again. -/
theorem exists_isRefilled_map_renderDoc
    (anchor : Line)
    {contents : List Text}
    (hReturn :
      ∀ content ∈ contents,
        '\r' ∉ dropCarriageReturn content) :
    ∃ marks,
      IsRefilled []
          ((contents.map
            (renderDoc anchor anchor.newline)).map
              lineText)
          marks ∧
        AreReread contents (markContents marks) := by
  induction contents with
  | nil => exact ⟨[], .nil, rfl⟩
  | cons content contents ih =>
      rcases List.forall_mem_cons.mp hReturn with
        ⟨hHead, hTail⟩
      rcases exists_ofLine?_renderDoc anchor hHead with
        ⟨doc, hDoc, hContent⟩
      rcases ih hTail with ⟨marks, hRefilled, hReread⟩
      exact
        ⟨some doc :: marks, .added hDoc hRefilled,
          hReread.cons hContent⟩

/-
  The lines of a region are refilled when it is respelled, and
  what is read there are the contents.
-/
theorem exists_isRefilled_respellEnded
    (anchor : Line)
    {lines : List Line}
    {contents : List Text}
    (hSplit : ∀ line ∈ lines, line.IsSplit)
    (hLines :
      ∀ line ∈ lines, ∀ doc, line.doc = some doc →
        DocText.ofLine? line.text = some doc)
    (hReturn :
      ∀ content ∈ contents,
        '\r' ∉ dropCarriageReturn content) :
    ∃ marks,
      IsRefilled lines
          ((respellEnded anchor lines contents).map lineText)
          marks ∧
        AreReread contents (markContents marks) := by
  induction lines generalizing contents with
  | nil => exact exists_isRefilled_map_renderDoc anchor hReturn
  | cons line lines ih =>
      rcases List.forall_mem_cons.mp hSplit with
        ⟨hOwn, hSplits⟩
      rcases List.forall_mem_cons.mp hLines with
        ⟨hLine, hOthers⟩
      cases hDoc : line.doc with
      | none =>
          rcases ih hSplits hOthers hReturn with
            ⟨marks, hRefilled, hReread⟩
          simp only [respellEnded, hDoc, List.map_cons,
            lineText_raw hOwn]
          exact ⟨none :: marks, .kept hDoc hRefilled, hReread⟩
      | some doc =>
          cases contents with
          | nil =>
              rcases ih hSplits hOthers hReturn with
                ⟨marks, hRefilled, hReread⟩
              simp only [respellEnded, hDoc]
              exact ⟨marks, .dropped hDoc hRefilled, hReread⟩
          | cons content contents =>
              rcases List.forall_mem_cons.mp hReturn with
                ⟨hHead, hTail⟩
              rcases ih hSplits hOthers hTail with
                ⟨marks, hRefilled, hReread⟩
              rcases exists_ofLine?_written anchor hOwn
                  (hLine doc hDoc) hHead contents.isEmpty with
                ⟨new, hNew, hContent⟩
              simp only [respellEnded, hDoc, List.map_cons]
              exact
                ⟨some new :: marks,
                  .written hDoc hNew hRefilled,
                  hReread.cons hContent⟩

------------------------------------------------------------
-- Reading Again
------------------------------------------------------------

/-
  A source with a region respelled is read again, and the
  contents of the region with it.
-/
theorem IsRegion.exists_reread
    {script : Text}
    {source : Source}
    {first stop : Nat}
    {before region after : List Line}
    (hRegion :
      IsRegion source first stop before region after)
    (hFirst : 0 < first)
    (hRead : Source.ofText script = .ok source)
    {anchor : Line}
    (hAnchor : '\n' ∉ anchor.text)
    {contents : List Text}
    (hFeed : ∀ content ∈ contents, '\n' ∉ content)
    (hReturn :
      ∀ content ∈ contents,
        '\r' ∉ dropCarriageReturn content) :
    ∃ next news,
      Source.ofText
          (joinLines anchor.newline
            (respelled anchor before region after
              contents)) =
        .ok next ∧
        AreReread contents news ∧
        next.docContents =
          contentsOf before ++ news ++ contentsOf after := by
  rcases hRegion.marks_eq hFirst hRead with
    ⟨_, hRegionMarks, hRegionEnd, _⟩
  rcases exists_isRefilled_respellEnded anchor
      (fun line hMem =>
        hRegion.isSplit_of_mem hRead (by simp [hMem]))
      (hRegion.ofLine?_of_mem hRead) hReturn with
    ⟨marks, hRefilled, hReread⟩
  have hScan := hRefilled.scan hRegionMarks hRegionEnd
  have hTexts :
      lineTexts
          (joinLines anchor.newline
            (respelled anchor before region after
              contents)) =
        before.map Line.text ++
          ((respellEnded anchor region contents).map lineText ++
            after.map Line.text) := by
    unfold lineTexts
    rw [hRegion.rawLines_respelled hRead hAnchor hFeed,
      hRegion.endLines_respelled hRead, List.map_append,
      List.map_append,
      hRegion.map_lineText_raw hRead
        (by intro line hMem; simp [hMem]),
      hRegion.map_lineText_raw hRead
        (by intro line hMem; simp [hMem]),
      List.append_assoc]
  rcases hRegion.ofText_of_lineTexts hFirst hRead hTexts
      hScan.2 with
    ⟨next, hNext, _, _, hDocs⟩
  refine ⟨next, _, hNext, hReread, ?_⟩
  rw [hScan.1] at hDocs
  change contentsOf next.lines = _
  rw [contentsOf_eq_filterMap, hDocs, List.filterMap_append,
    List.filterMap_append, ← contentsOf_eq_filterMap,
    ← contentsOf_eq_filterMap]
  rfl

------------------------------------------------------------
-- Lines That Do Not Close The Fence
------------------------------------------------------------

/- Spaces in front of a line do not matter for a fence. -/
theorem isClosingLine_of_dropWhile
    {mark : Char}
    {length : Nat}
    {line : Text}
    (hClosing :
      IsClosingLine mark length
        (line.dropWhile (· == ' '))) :
    IsClosingLine mark length line := by
  rcases hClosing with
    ⟨before, run, after, hLine, hLength, hBefore, hAfter⟩
  refine
    ⟨line.takeWhile (· == ' ') ++ before, run, after, ?_,
      hLength, ?_, hAfter⟩
  · rw [List.append_assoc, List.append_assoc,
      ← List.append_assoc before, ← hLine,
      List.takeWhile_append_dropWhile]
  · intro c hMem
    rcases List.mem_append.mp hMem with hMem | hMem
    · have hSpace :=
        List.all_eq_true.mp List.all_takeWhile c hMem
      rw [beq_iff_eq] at hSpace
      rw [hSpace]
      rfl
    · exact hBefore c hMem

/- Nor does a blank at its end. -/
theorem isClosingLine_of_append_blank
    {mark : Char}
    (hMark : mark ≠ ' ')
    {length : Nat}
    {line : Text}
    (hClosing : IsClosingLine mark length (line ++ [' '])) :
    IsClosingLine mark length line := by
  rcases hClosing with
    ⟨before, run, after, hLine, hLength, hBefore, hAfter⟩
  rcases List.eq_nil_or_concat after with
    rfl | ⟨init, c, rfl⟩
  · rw [List.append_nil] at hLine
    cases run with
    | zero =>
        -- Only blanks are left, so no mark is asked for.
        rw [List.replicate_zero, List.append_nil] at hLine
        rw [← hLine] at hBefore
        refine ⟨line, 0, [], by simp, hLength, ?_, hAfter⟩
        intro c hMem
        exact hBefore c (List.mem_append_left _ hMem)
    | succ run =>
        rw [List.replicate_succ', ← List.append_assoc] at hLine
        have hParts := List.append_inj' hLine rfl
        rw [List.cons.injEq] at hParts
        exact absurd hParts.2.1.symm hMark
  · rw [List.concat_eq_append] at hLine hAfter
    rw [← List.append_assoc] at hLine
    have hParts := List.append_inj' hLine rfl
    refine
      ⟨before, run, init, hParts.1, hLength, hBefore, ?_⟩
    intro d hMem
    exact hAfter d (List.mem_append_left _ hMem)

/- What is read again closes no more fences than before. -/
theorem AreReread.not_isClosingLine
    {contents news : List Text}
    (hNews : AreReread contents news)
    (hReturn :
      ∀ content ∈ contents,
        '\r' ∉ dropCarriageReturn content)
    {mark : Char}
    (hMark : mark ≠ ' ')
    {length : Nat}
    (hOpen :
      ∀ content ∈ contents,
        ¬ IsClosingLine mark length
          (dropCarriageReturn content)) :
    ∀ new ∈ news,
      ¬ IsClosingLine mark length
        (replaceChar '\r' ' ' new) := by
  intro new hNew hClosing
  have hMem : dropCarriageReturn new ∈
      contents.map fun content =>
        (dropCarriageReturn content).dropWhile (· == ' ') := by
    rw [← hNews]
    exact List.mem_map_of_mem hNew
  rcases List.mem_map.mp hMem with
    ⟨content, hContent, hSame⟩
  have hNone : '\r' ∉ dropCarriageReturn new := by
    rw [← hSame]
    intro hIn
    exact
      hReturn content hContent
        ((List.dropWhile_suffix _).subset hIn)
  apply hOpen content hContent
  apply isClosingLine_of_dropWhile
  rw [hSame]
  rcases dropCarriageReturn_cases new with hText | hText
  · rw [hText] at hNone ⊢
    rwa [replaceChar_of_not_mem ' ' hNone] at hClosing
  · rw [hText, replaceChar_append,
      replaceChar_of_not_mem ' ' hNone] at hClosing
    exact isClosingLine_of_append_blank hMark hClosing

/-
  A manifest none of whose lines closes the fence is read
  again, apart from spaces and carriage returns.
-/
theorem extract_replace_reread
    {script : Text}
    {source : Source}
    (hRead : Source.read script = .ok source)
    {fence : Fence}
    (hFind :
      (fences source.body).find?
          (Fence.marked manifestInfo) =
        some fence)
    (hFilled : fence.filled = true)
    {opening : FenceOpening}
    (hOpening :
      (documentFrame source.body).fenceOpening?
          fence.first =
        some opening)
    {manifest : Text}
    (hNe : manifest ≠ [])
    (hReturn :
      ∀ line ∈ manifestLines (terminated manifest),
        '\r' ∉ dropCarriageReturn line)
    (hOpen :
      ∀ line ∈ manifestLines (terminated manifest),
        ¬ IsClosingLine opening.mark opening.length
          (dropCarriageReturn line)) :
    ∃ replaced old news,
      replace script manifest = .ok (replaced, old) ∧
        extract replaced = .ok (linesText news) ∧
        AreReread (manifestLines (terminated manifest))
          news ∧
        ∀ new ∈ news, '\n' ∉ new := by
  rw [Source.read_eq_ok_iff] at hRead
  rcases exists_region_of_find? hRead hFind hFilled with
    ⟨hLocate, anchor, before, region, after, hAnchor,
      hAnchorMem, hRegion⟩
  rcases hRegion.exists_reread (Nat.succ_pos _) hRead
      (Source.not_mem_text_of_ofText hRead hAnchorMem)
      (fun _ => not_mem_of_mem_manifestLines) hReturn with
    ⟨next, news, hNext, hNews, hContents⟩
  have hLength :
      news.length =
        (manifestLines (terminated manifest)).length := by
    have hMaps := congrArg List.length hNews
    rw [List.length_map, List.length_map] at hMaps
    exact hMaps
  have hSome : news ≠ [] := by
    rintro rfl
    exact
      manifestLines_ne_nil hNe
        (List.eq_nil_of_length_eq_zero hLength.symm)
  have hMark : opening.mark ≠ ' ' := by
    have hMarks :=
      (eq_of_ofText?
        (Frame.isCode_of_fenceOpening? hOpening).2).1
    exact (ne_of_isMark hMarks (by decide) (by decide)).symm
  have hFound :=
    locate?_replaced hRead hFind hOpening hRegion hSome
      (hNews.not_isClosingLine hReturn hMark hOpen) hNext
      hContents
  have hBetween :
      (next.docContents.take
          (fence.first + 1 + news.length)).drop
          (fence.first + 1) =
        news := by
    rw [hContents, ← hRegion.first_eq,
      ← List.length_append, List.take_left, List.drop_left]
  refine
    ⟨_, _, news,
      replace_eq hRead hLocate hRegion hAnchor manifest, ?_,
      hNews, ?_⟩
  · refine
      (extract_eq hNext hFound (Nat.le_add_right _ _)).trans
        ?_
    rw [hBetween]
  · intro new hNew
    apply Source.not_mem_content_of_ofText hNext
    rw [hContents]
    simp [hNew]

end Script

end ScriptWorkspace
