import ScriptWorkspace.Proofs.Script.Manifest

/-
  What replacing a manifest changes in a script, and what it
  leaves.

  Everything before the first line of the manifest and behind
  the last one stays. Between them the opaque lines stay, and
  among them the documentation lines are those of the new
  manifest: one that says what the old line of the same
  number said is that line, and any other is written anew.

  Main declarations:
    * `IsManifestRegion`
    * `of_replace_eq_ok`
    * `respellEnded`
    * `IsRegion.endLines_respelled`
    * `Interleaves`
    * `AreRewritten`
    * `IsBlockContent`
    * `replaced_in_block_iff`
-/

namespace ScriptWorkspace

namespace Script

open Text Markdown

------------------------------------------------------------
-- Regions Of Located Manifests
------------------------------------------------------------

/-
  The region of the manifest that the search locates, and the
  documentation line in front of it.
-/
structure IsManifestRegion
    (source : Source)
    (first stop : Nat)
    (anchor : Line)
    (before region after : List Line) : Prop
    extends
      IsRegion source first stop before region after where
  located :
    locate? manifestInfo source.body =
      some (lineSpan source.bodyLines first stop)
  first_pos : 0 < first
  anchor_eq : source.docLine? (first - 1) = some anchor
  anchor_mem : anchor ∈ before

/- A documentation line in front of a region is before it. -/
theorem IsRegion.mem_before_of_docLine?
    {source : Source}
    {first stop number : Nat}
    {before region after : List Line}
    (hRegion :
      IsRegion source first stop before region after)
    (hNumber : number < first)
    {line : Line}
    (hLine : source.docLine? number = some line) :
    line ∈ before := by
  rw [← hRegion.first_eq] at hNumber
  rcases exists_split_of_lt_length hNumber with
    ⟨front, other, back, doc, hBefore, hDoc, hCount⟩
  have hLines :
      source.lines =
        front ++ other :: (back ++ region ++ after) := by
    rw [hRegion.lines_eq, hBefore]
    simp
  have hOther := Source.docLine?_eq_some hLines hDoc
  rw [hCount, hLine] at hOther
  rw [Option.some.inj hOther, hBefore]
  simp

/- A manifest that is read has a region. -/
theorem exists_isManifestRegion
    {script manifest : Text}
    (hExtract : extract script = .ok manifest) :
    ∃ source first stop anchor before region after,
      Source.ofText script = .ok source ∧
        IsManifestRegion source first stop anchor before
          region after ∧
        manifest = linesText (contentsOf region) := by
  rcases of_extract_eq_ok hExtract with
    ⟨source, first, stop, hRead, hLt, hStop, hLocate, rfl⟩
  rcases exists_isRegion hLt hStop with
    ⟨before, region, after, hRegion⟩
  have hStart :=
    start_pos_of_locate? (Source.forall_ended_body hRead)
      hLocate
  have hFirst : 0 < first := by
    rw [Nat.pos_iff_ne_zero]
    rintro rfl
    exact Nat.lt_irrefl _ hStart
  rcases exists_docLine? source (first - 1) (by omega) with
    ⟨_, anchor, _, _, _, _, _, hAnchor⟩
  refine
    ⟨source, first, stop, anchor, before, region, after,
      hRead, ?_, by rw [hRegion.contentsOf_region]⟩
  exact
    { toIsRegion := hRegion
      located := hLocate
      first_pos := hFirst
      anchor_eq := hAnchor
      anchor_mem :=
        hRegion.mem_before_of_docLine? (by omega) hAnchor }

/- A manifest that can be replaced can be read. -/
theorem exists_extract_of_replace
    {script manifest replaced old : Text}
    (hReplace :
      replace script manifest = .ok (replaced, old)) :
    ∃ found, extract script = .ok found := by
  simp only [replace, Source.manifestPlace, bind,
    Except.bind] at hReplace
  simp only [extract, bind, Except.bind]
  cases hRead : Source.read script with
  | error fault => simp [hRead] at hReplace
  | ok source =>
      cases hSpan : source.manifestSpan with
      | error fault => simp [hRead, hSpan] at hReplace
      | ok span =>
          refine ⟨source.bodyPart span, ?_⟩
          simp only [hSpan, pure, Except.pure]

/- A manifest that can be read can be replaced. -/
theorem exists_replace_of_extract
    {script found : Text}
    (hExtract : extract script = .ok found)
    (manifest : Text) :
    ∃ replaced,
      replace script manifest = .ok (replaced, found) := by
  rcases exists_isManifestRegion hExtract with
    ⟨_, _, _, _, _, _, _, hRead, hRegion, rfl⟩
  exact
    ⟨_, replace_eq hRead hRegion.located hRegion.toIsRegion
      hRegion.anchor_eq manifest⟩

/- A manifest that cannot be read cannot be replaced. -/
theorem replace_of_extract_eq_error
    {script : Text}
    {fault : ScriptFault}
    (hExtract : extract script = .error fault)
    (manifest : Text) :
    replace script manifest = .error fault ∧
      (fault = .noManifest ∨
        ∃ header, fault = .header header) := by
  simp only [extract, bind, Except.bind] at hExtract
  simp only [replace, Source.manifestPlace, bind,
    Except.bind]
  unfold Source.read at *
  cases hRead : Source.ofText script with
  | error header =>
      simp only [hRead, Except.error.injEq] at hExtract ⊢
      exact ⟨hExtract, .inr ⟨header, hExtract.symm⟩⟩
  | ok source =>
      unfold Source.manifestSpan at *
      cases hLocate : locate? manifestInfo source.body with
      | some span =>
          simp [hRead, hLocate, pure, Except.pure] at hExtract
      | none =>
          simp only [hRead, hLocate,
            Except.error.injEq] at hExtract ⊢
          exact ⟨hExtract, .inl hExtract.symm⟩

/- What replacing a manifest respells. -/
theorem of_replace_eq_ok
    {script manifest replaced old : Text}
    (hReplace :
      replace script manifest = .ok (replaced, old)) :
    ∃ source first stop anchor before region after,
      Source.ofText script = .ok source ∧
        IsManifestRegion source first stop anchor before
          region after ∧
        replaced =
          joinLines anchor.newline
            (IsRegion.respelled anchor before region after
              (manifestLines (terminated manifest))) ∧
        old = linesText (contentsOf region) := by
  rcases exists_extract_of_replace hReplace with
    ⟨found, hExtract⟩
  rcases exists_isManifestRegion hExtract with
    ⟨source, first, stop, anchor, before, region, after,
      hRead, hRegion, _⟩
  rw [replace_eq hRead hRegion.located hRegion.toIsRegion
      hRegion.anchor_eq manifest,
    Except.ok.injEq, Prod.mk.injEq] at hReplace
  exact
    ⟨source, first, stop, anchor, before, region, after,
      hRead, hRegion, hReplace.1.symm, hReplace.2.symm⟩

------------------------------------------------------------
-- Respelled Lines With Their Ends
------------------------------------------------------------

/- The content of a documentation line. -/
def Line.content? (line : Line) : Option Text :=
  line.doc.map DocText.content

/-
  A line that is kept. The last line of a source may have no
  end, and needs one if it is no longer the last.
-/
def Line.kept
    (anchor line : Line)
    (isLast : Bool) : Text :=
  if line.terminator = .none ∧ isLast = false then
    line.raw ++ anchor.newline
  else
    line.raw

/- What `respell` gives, with the end of a line put in. -/
def respellEnded
    (anchor : Line) :
    List Line →
    List Text →
    List Text
  | [], contents =>
    contents.map (renderDoc anchor anchor.newline)
  | line :: lines, contents =>
    match line.doc, contents with
    | none, _ =>
      line.raw :: respellEnded anchor lines contents
    | some _, [] => respellEnded anchor lines []
    | some doc, content :: rest =>
      (if doc.content = content then
          anchor.kept line rest.isEmpty
        else
          renderDoc anchor anchor.newline content) ::
        respellEnded anchor lines rest

theorem Line.kept_of_terminator
    (anchor : Line)
    {line : Line}
    (hEnd : line.terminator ≠ .none)
    (isLast : Bool) :
    anchor.kept line isLast = line.raw := by
  unfold Line.kept
  rw [if_neg]
  intro hBoth
  exact hEnd hBoth.1

theorem Line.endsWith_raw
    {line : Line}
    (hEnd : line.terminator ≠ .none) :
    line.raw.endsWith ['\n'] = true := by
  rw [endsWith_singleton_iff]
  unfold Line.raw
  cases hTerminator : line.terminator with
  | none => exact absurd hTerminator hEnd
  | lineFeed => exact ⟨line.text, rfl⟩
  | carriageReturnLineFeed =>
      exact ⟨line.text ++ ['\r'], by simp [Terminator.toText]⟩

/- A line whose text is free of line feeds and that is ended. -/
theorem Line.terminator_ne_none
    {line : Line}
    (hFree : '\n' ∉ line.text)
    (hEnded : EndedLine line.raw) :
    line.terminator ≠ .none := by
  intro hNone
  rcases hEnded with ⟨body, _, hRaw⟩
  unfold Line.raw at hRaw
  rw [hNone, Terminator.toText, List.append_nil] at hRaw
  rw [hRaw] at hFree
  simp at hFree

/- The line in front of a manifest has an end. -/
theorem IsManifestRegion.anchor_ended
    {script : Text}
    {source : Source}
    {first stop : Nat}
    {anchor : Line}
    {before region after : List Line}
    (hRegion :
      IsManifestRegion source first stop anchor before
        region after)
    (hRead : Source.ofText script = .ok source) :
    anchor.terminator ≠ .none :=
  Line.terminator_ne_none
    (Source.not_mem_text_of_ofText hRead
      (Source.mem_lines_of_docLine? hRegion.anchor_eq))
    ((hRegion.toIsRegion.areLines hRead).1 anchor
      hRegion.anchor_mem)

theorem renderDoc_endsWith
    (anchor : Line)
    (content : Text) :
    (renderDoc anchor anchor.newline content).endsWith
        ['\n'] =
      true := by
  rcases anchor.terminator.exists_toText_orLineFeed with
    ⟨start, _, hNewline⟩
  rw [renderDoc_eq, endsWith_singleton_iff]
  refine ⟨renderText anchor content ++ start, ?_⟩
  unfold Line.newline
  rw [hNewline, List.append_assoc]

theorem endLines_map_renderDoc
    (anchor : Line)
    (contents : List Text)
    (back : List Text) :
    endLines anchor.newline
        (contents.map (renderDoc anchor anchor.newline) ++
          back) =
      contents.map (renderDoc anchor anchor.newline) ++
        endLines anchor.newline back := by
  apply endLines_append_of_endsWith
  intro line hMem
  rcases List.mem_map.mp hMem with ⟨content, _, rfl⟩
  exact renderDoc_endsWith anchor content

/- Nothing follows a line that has no end. -/
theorem nil_of_areLines_cons
    {line : Line}
    (hFree : '\n' ∉ line.text)
    (hEnd : line.terminator = .none)
    {lines : List Text}
    (hLines : AreLines (line.raw :: lines)) :
    lines = [] := by
  cases lines with
  | nil => rfl
  | cons next lines =>
      exact
        absurd hEnd (Line.terminator_ne_none hFree hLines.1)

/- A kept line without an end gets one if it needs it. -/
theorem endLines_kept
    (anchor : Line)
    {line : Line}
    (hFree : '\n' ∉ line.text)
    (hEnd : line.terminator = .none)
    (contents : List Text) :
    endLines anchor.newline
        (line.raw ::
          contents.map
            (renderDoc anchor anchor.newline)) =
      anchor.kept line contents.isEmpty ::
        contents.map (renderDoc anchor anchor.newline) := by
  cases contents with
  | nil => simp [endLines, Line.kept]
  | cons content contents =>
      have hRaw : line.raw = line.text := by
        unfold Line.raw
        rw [hEnd, Terminator.toText, List.append_nil]
      have hEnds : line.raw.endsWith ['\n'] = false := by
        rw [← Bool.not_eq_true, endsWith_singleton_iff]
        rintro ⟨start, hStart⟩
        rw [← hRaw, hStart] at hFree
        simp at hFree
      have hRest :=
        endLines_map_renderDoc anchor
          (content :: contents) []
      rw [List.append_nil] at hRest
      simp only [List.map_cons] at hRest ⊢
      rw [endLines, hRest]
      · simp [hEnds, Line.kept, hEnd, endLines]
      · simp

/-
  The induction is on the lines. A line without an end can
  only be the last one, with nothing behind it, so an end is
  put in just where contents are left over for it.
-/
theorem endLines_respell
    (anchor : Line)
    {lines : List Line}
    {back : List Text}
    (hFree : ∀ line ∈ lines, '\n' ∉ line.text)
    (hOpaque :
      ∀ line ∈ lines, line.doc = none →
        line.terminator ≠ .none)
    (hLines : AreLines (lines.map Line.raw ++ back))
    (contents : List Text) :
    endLines anchor.newline
        (respell (renderDoc anchor anchor.newline) lines
            contents ++
          back) =
      respellEnded anchor lines contents ++ back := by
  induction lines generalizing contents with
  | nil =>
      have hBack : AreLines back := hLines
      rw [respell, respellEnded, endLines_map_renderDoc,
        endLines_of_areLines _ hBack]
  | cons line lines ih =>
      rw [List.map_cons, List.cons_append] at hLines
      have hTail :=
        ih
          (fun other hMem =>
            hFree other (List.mem_cons_of_mem _ hMem))
          (fun other hMem =>
            hOpaque other (List.mem_cons_of_mem _ hMem))
          hLines.tail
      cases hDoc : line.doc with
      | none =>
          have hEnds :=
            Line.endsWith_raw
              (hOpaque line List.mem_cons_self hDoc)
          simp only [respell, respellEnded, hDoc,
            List.cons_append]
          rw [endLines_cons_of_endsWith _ hEnds, hTail]
      | some doc =>
          cases contents with
          | nil =>
              simp only [respell, respellEnded, hDoc]
              exact hTail []
          | cons content rest =>
              simp only [respell, respellEnded, hDoc,
                List.cons_append]
              by_cases hSame : doc.content = content
              · rw [if_pos hSame, if_pos hSame]
                by_cases hEnd : line.terminator = .none
                · have hNil :=
                    nil_of_areLines_cons
                      (hFree line List.mem_cons_self) hEnd
                      hLines
                  rw [List.append_eq_nil_iff,
                    List.map_eq_nil_iff] at hNil
                  rw [hNil.1, hNil.2, List.append_nil]
                  simpa [respell, respellEnded] using
                    endLines_kept anchor
                      (hFree line List.mem_cons_self) hEnd
                      rest
                · rw [Line.kept_of_terminator anchor hEnd,
                    endLines_cons_of_endsWith _
                      (Line.endsWith_raw hEnd),
                    hTail]
              · rw [if_neg hSame, if_neg hSame,
                  endLines_cons_of_endsWith _
                    (renderDoc_endsWith anchor content),
                  hTail]

/- The lines that replacing a manifest puts together. -/
theorem IsRegion.endLines_respelled
    {script : Text}
    {source : Source}
    {first stop : Nat}
    {before region after : List Line}
    (hRegion :
      IsRegion source first stop before region after)
    (hRead : Source.ofText script = .ok source)
    (anchor : Line)
    (contents : List Text) :
    endLines anchor.newline
        (respelled anchor before region after contents) =
      before.map Line.raw ++
        respellEnded anchor region contents ++
        after.map Line.raw := by
  have hLines := hRegion.areLines hRead
  have hFree :
      ∀ line ∈ region, '\n' ∉ line.text := by
    intro line hMem
    apply Source.not_mem_text_of_ofText hRead
    rw [hRegion.lines_eq]
    simp [hMem]
  have hOpaque :
      ∀ line ∈ region, line.doc = none →
        line.terminator ≠ .none := by
    intro line hMem hDoc
    exact
      Line.terminator_ne_none (hFree line hMem)
        (hRegion.endedLine_of_opaque hRead hMem hDoc)
  have hBefore :
      ∀ raw ∈ before.map Line.raw,
        raw.endsWith ['\n'] = true := by
    intro raw hMem
    rcases List.mem_map.mp hMem with ⟨line, hLine, rfl⟩
    exact (hLines.1 line hLine).endsWith
  unfold respelled
  rw [List.append_assoc,
    endLines_append_of_endsWith _ hBefore,
    endLines_respell anchor hFree hOpaque hLines.2,
    List.append_assoc]

------------------------------------------------------------
-- Documentation Lines Among Opaque Lines
------------------------------------------------------------

/- Two lists merged into one, each in its order. -/
inductive Interleaves {α : Type} :
    List α → List α → List α → Prop
  | nil : Interleaves [] [] []
  | left
      (item : α)
      {lefts rights merged : List α}
      (rest : Interleaves lefts rights merged) :
      Interleaves (item :: lefts) rights (item :: merged)
  | right
      (item : α)
      {lefts rights merged : List α}
      (rest : Interleaves lefts rights merged) :
      Interleaves lefts (item :: rights) (item :: merged)

theorem interleaves_nil_left
    {α : Type}
    (rights : List α) :
    Interleaves [] rights rights := by
  induction rights with
  | nil => exact .nil
  | cons item rights ih => exact .right item ih

/- The documentation lines among some lines. -/
def docLines (lines : List Line) : List Line :=
  lines.filter Line.isDoc

/- The other lines among some lines. -/
def opaqueLines (lines : List Line) : List Line :=
  lines.filter fun line => !line.isDoc

section Kinds

variable {line : Line}

theorem docLines_cons_of_none
    (hDoc : line.doc = none)
    (lines : List Line) :
    docLines (line :: lines) = docLines lines := by
  simp [docLines, Line.isDoc, hDoc]

theorem docLines_cons_of_some
    {doc : DocText}
    (hDoc : line.doc = some doc)
    (lines : List Line) :
    docLines (line :: lines) = line :: docLines lines := by
  simp [docLines, Line.isDoc, hDoc]

theorem opaqueLines_cons_of_none
    (hDoc : line.doc = none)
    (lines : List Line) :
    opaqueLines (line :: lines) =
      line :: opaqueLines lines := by
  simp [opaqueLines, Line.isDoc, hDoc]

theorem opaqueLines_cons_of_some
    {doc : DocText}
    (hDoc : line.doc = some doc)
    (lines : List Line) :
    opaqueLines (line :: lines) = opaqueLines lines := by
  simp [opaqueLines, Line.isDoc, hDoc]

end Kinds

/-
  Respelled lines are the opaque lines and the respelled
  documentation lines.
-/
theorem interleaves_respellEnded
    (anchor : Line)
    (lines : List Line)
    (contents : List Text) :
    Interleaves
      ((opaqueLines lines).map Line.raw)
      (respellEnded anchor (docLines lines) contents)
      (respellEnded anchor lines contents) := by
  induction lines generalizing contents with
  | nil => exact interleaves_nil_left _
  | cons line lines ih =>
      cases hDoc : line.doc with
      | none =>
          rw [opaqueLines_cons_of_none hDoc,
            docLines_cons_of_none hDoc, List.map_cons]
          simp only [respellEnded, hDoc]
          exact .left _ (ih contents)
      | some doc =>
          rw [opaqueLines_cons_of_some hDoc,
            docLines_cons_of_some hDoc]
          cases contents with
          | nil =>
              simp only [respellEnded, hDoc]
              exact ih []
          | cons content rest =>
              simp only [respellEnded, hDoc]
              exact .right _ (ih rest)

------------------------------------------------------------
-- Lines That Are Kept And Lines That Are Written
------------------------------------------------------------

/-
  New lines for contents beside an anchor, given old lines.
  One whose content is that of the old line of its number is
  this line; only if the old one had no end, and further
  lines follow now, an end is added. Any other is written
  with the indentation and the end of the anchor.
-/
structure AreRewritten
    (anchor : Line)
    (olds : List Line)
    (contents news : List Text) : Prop where
  length_eq : news.length = contents.length
  kept :
    ∀ {number : Nat} {line : Line} {content : Text},
      olds[number]? = some line →
      contents[number]? = some content →
      line.content? = some content →
      news[number]? =
        some
          (if line.terminator = .none ∧
              number + 1 < contents.length then
            line.raw ++ anchor.terminator.toText
          else
            line.raw)
  written :
    ∀ {number : Nat} {content : Text},
      contents[number]? = some content →
      (∀ line, olds[number]? = some line →
        line.content? ≠ some content) →
      news[number]? =
        some
          (anchor.indentation ++ docToken ++
            (if (dropCarriageReturn content).isEmpty then []
              else ' ' :: dropCarriageReturn content) ++
            anchor.terminator.toText)

/- The end that lines beside an ended anchor have. -/
theorem Line.newline_eq
    {anchor : Line}
    (hAnchor : anchor.terminator ≠ .none) :
    anchor.newline = anchor.terminator.toText := by
  unfold Line.newline
  cases hTerminator : anchor.terminator with
  | none => exact absurd hTerminator hAnchor
  | lineFeed => rfl
  | carriageReturnLineFeed => rfl

theorem renderDoc_eq_append
    {anchor : Line}
    (hAnchor : anchor.terminator ≠ .none)
    (content : Text) :
    renderDoc anchor anchor.newline content =
      anchor.indentation ++ docToken ++
        (if (dropCarriageReturn content).isEmpty then []
          else ' ' :: dropCarriageReturn content) ++
        anchor.terminator.toText := by
  rw [← Line.newline_eq hAnchor]
  unfold renderDoc
  cases hEmpty : (dropCarriageReturn content).isEmpty with
  | true => simp [hEmpty]
  | false => simp [hEmpty]

/- Contents for which there are no old lines are written. -/
theorem areRewritten_nil
    {anchor : Line}
    (hAnchor : anchor.terminator ≠ .none)
    (contents : List Text) :
    AreRewritten anchor [] contents
      (contents.map (renderDoc anchor anchor.newline)) := by
  constructor
  · exact List.length_map _
  · intro number line content hLine
    simp at hLine
  · intro number content hContent _
    rw [List.getElem?_map, hContent, Option.map_some,
      renderDoc_eq_append hAnchor]

/- One line and one content more. -/
theorem AreRewritten.cons
    {anchor : Line}
    (hAnchor : anchor.terminator ≠ .none)
    {olds : List Line}
    {contents news : List Text}
    (hRest : AreRewritten anchor olds contents news)
    {line : Line}
    {doc : DocText}
    (hDoc : line.doc = some doc)
    (content : Text) :
    AreRewritten anchor (line :: olds) (content :: contents)
      ((if doc.content = content then
          anchor.kept line contents.isEmpty
        else
          renderDoc anchor anchor.newline content) ::
        news) := by
  have hOwn : line.content? = some doc.content := by
    unfold Line.content?
    rw [hDoc, Option.map_some]
  constructor
  · rw [List.length_cons, List.length_cons, hRest.length_eq]
  · intro number other wanted hOld hWanted hSame
    cases number with
    | zero =>
        simp only [List.getElem?_cons_zero,
          Option.some.injEq] at hOld hWanted
        subst hOld hWanted
        rw [hOwn, Option.some.injEq] at hSame
        have hMore :
            contents.isEmpty = false ↔
              0 + 1 < (content :: contents).length := by
          cases contents <;> simp
        simp only [List.getElem?_cons_zero, if_pos hSame,
          Line.kept, hMore, Line.newline_eq hAnchor]
    | succ number =>
        simp only [List.getElem?_cons_succ] at hOld hWanted ⊢
        rw [hRest.kept hOld hWanted hSame]
        simp only [List.length_cons, Nat.add_lt_add_iff_right]
  · intro number wanted hWanted hOther
    cases number with
    | zero =>
        simp only [List.getElem?_cons_zero,
          Option.some.injEq] at hWanted
        subst hWanted
        have hNe : doc.content ≠ content := by
          intro hSame
          apply hOther line rfl
          rw [hOwn, hSame]
        rw [List.getElem?_cons_zero, if_neg hNe,
          renderDoc_eq_append hAnchor]
    | succ number =>
        simp only [List.getElem?_cons_succ] at hWanted hOther ⊢
        exact hRest.written hWanted hOther

theorem areRewritten_respellEnded
    {anchor : Line}
    (hAnchor : anchor.terminator ≠ .none)
    {olds : List Line}
    (hOlds : ∀ line ∈ olds, ∃ doc, line.doc = some doc)
    (contents : List Text) :
    AreRewritten anchor olds contents
      (respellEnded anchor olds contents) := by
  induction olds generalizing contents with
  | nil => exact areRewritten_nil hAnchor contents
  | cons line olds ih =>
      have hTail := ih fun other hMem =>
        hOlds other (List.mem_cons_of_mem _ hMem)
      rcases hOlds line List.mem_cons_self with ⟨doc, hDoc⟩
      cases contents with
      | nil =>
          have hNil := hTail []
          simp only [respellEnded, hDoc]
          constructor
          · exact hNil.length_eq
          · intro number other content _ hContent
            simp at hContent
          · intro number content hContent
            simp at hContent
      | cons content contents =>
          simp only [respellEnded, hDoc]
          exact (hTail contents).cons hAnchor hDoc content

------------------------------------------------------------
-- Local Rewriting
------------------------------------------------------------

/-
  The lines of a place are the content of a fence: of the
  first one that has the info of a manifest and some content.
-/
structure IsBlockContent
    (source : Source)
    (place : ManifestPlace)
    (fence : Fence) : Prop where
  wanted : wanted? manifestInfo source.body = some fence
  first_eq : place.first = fence.first + 1
  stop_eq : place.stop = fence.contentStop

section Located

variable {script : Text}
variable {source : Source}
variable {first stop : Nat}
variable {anchor : Line}
variable {before region after : List Line}

/-
  What is located is the content of the first filled fence if
  it spans the lines of that.
-/
theorem IsManifestRegion.not_misled
    (hRegion :
      IsManifestRegion source first stop anchor before
        region after)
    (hRead : Source.ofText script = .ok source)
    {fence : Fence}
    (hWanted :
      wanted? manifestInfo source.body = some fence)
    (hFirst : first = fence.first + 1)
    (hStop : stop = fence.contentStop) :
    ¬ Misled manifestInfo source.body := by
  intro hMisled
  have hEnded := Source.forall_ended_body hRead
  apply locate?_ne_of_misled hEnded hMisled
  rw [hRegion.located, hWanted, Option.map_some, contentSpan,
    Source.rawLines_body hRead, hFirst, hStop]

/- And it spans those lines if the search is not misled. -/
theorem IsManifestRegion.exists_wanted
    (hRegion :
      IsManifestRegion source first stop anchor before
        region after)
    (hRead : Source.ofText script = .ok source)
    (hNot : ¬ Misled manifestInfo source.body) :
    ∃ fence,
      wanted? manifestInfo source.body = some fence ∧
        first = fence.first + 1 ∧
        stop = fence.contentStop := by
  have hEnded := Source.forall_ended_body hRead
  have hLocated := hRegion.located
  rw [locate?_eq_of_not_misled hEnded hNot,
    Option.map_eq_some_iff] at hLocated
  rcases hLocated with ⟨fence, hWanted, hSpan⟩
  rcases layout_of_mem_fences hEnded
      (List.mem_of_find?_eq_some hWanted) with
    ⟨opening, hLayout⟩
  have hOpens := hLayout.lt_contentStop
  have hContent := hLayout.contentStop_le
  have hBounds := hRegion.toIsRegion.le_stop
  rw [contentSpan, Source.rawLines_body hRead] at hSpan
  rw [Source.rawLines_body hRead] at hContent
  rw [← source.length_bodyLines] at hBounds
  have hOffsets
      {line other : Nat}
      (hLine : line ≤ source.bodyLines.length)
      (hOther : other ≤ source.bodyLines.length)
      (hSame :
        lineOffset source.bodyLines line =
          lineOffset source.bodyLines other) :
      line = other :=
    lineOffset_inj (fun _ => Source.ne_nil_of_mem_bodyLines)
      hLine hOther hSame
  refine ⟨fence, hWanted, ?_, ?_⟩
  · exact
      hOffsets (by omega) (by omega)
        (congrArg Span.start hSpan.symm)
  · exact
      hOffsets hBounds.2 hContent
        (congrArg Span.stop hSpan.symm)

end Located

/-
  A script and what it becomes with another manifest in a
  place. Both begin with the same lines and end with the same
  lines. Between these, in the place of the region of the old
  manifest, there are its opaque lines and one new line for
  each line of the manifest, beside the line in front of the
  region.
-/
structure IsLocalRewrite
    (source : Source)
    (place : ManifestPlace)
    (script manifest replaced : Text)
    (anchor : Line)
    (before region after : List Line)
    (news middle : List Text) : Prop where
  isRegion :
    IsRegion source place.first place.stop before region
      after
  first_pos : 0 < place.first
  anchor_eq :
    source.docLine? (place.first - 1) = some anchor
  script_eq :
    script =
      before.flatMap Line.raw ++ region.flatMap Line.raw ++
        after.flatMap Line.raw
  replaced_eq :
    replaced =
      before.flatMap Line.raw ++ middle.flatten ++
        after.flatMap Line.raw
  interleaves :
    Interleaves ((opaqueLines region).map Line.raw) news
      middle
  areRewritten :
    AreRewritten anchor (docLines region)
      (manifestLines (terminated manifest)) news

/-
  Replacing a manifest rewrites the region that the search
  for it locates, and nothing else.
-/
theorem exists_isLocalRewrite
    {script manifest replaced old : Text}
    (hReplace :
      replace script manifest = .ok (replaced, old)) :
    ∃ source place anchor before region after news middle,
      Source.ofText script = .ok source ∧
        source.manifestPlace = .ok place ∧
        IsManifestRegion source place.first place.stop anchor
          before region after ∧
        IsLocalRewrite source place script manifest replaced
          anchor before region after news middle := by
  rcases of_replace_eq_ok hReplace with
    ⟨source, first, stop, anchor, before, region, after,
      hRead, hRegion, hReplaced, _⟩
  have hBounds := hRegion.toIsRegion.le_stop
  have hAnchor := hRegion.anchor_ended hRead
  have hDocs :
      ∀ line ∈ docLines region,
        ∃ doc, line.doc = some doc := by
    intro line hMem
    have hIsDoc := (List.mem_filter.mp hMem).2
    exact Option.isSome_iff_exists.mp hIsDoc
  refine
    ⟨source, _, anchor, before, region, after, _, _, hRead,
      Source.manifestPlace_eq hRegion.located hBounds.1
        hBounds.2,
      hRegion,
      { isRegion := hRegion.toIsRegion
        first_pos := hRegion.first_pos
        anchor_eq := hRegion.anchor_eq
        script_eq := ?_
        replaced_eq := ?_
        interleaves :=
          interleaves_respellEnded anchor region
            (manifestLines (terminated manifest))
        areRewritten :=
          areRewritten_respellEnded hAnchor hDocs _ }⟩
  · rw [← List.flatMap_append, ← List.flatMap_append,
      ← hRegion.lines_eq, List.flatMap_def,
      Source.map_raw_of_ofText hRead, flatten_rawLines]
  · rw [hReplaced, joinLines_eq,
      hRegion.toIsRegion.endLines_respelled hRead]
    simp [List.flatMap_def]

/-
  Replacing a manifest rewrites one region, beside the line
  in front of it. This is the content of the first filled
  fence of a manifest, and that line the one that opens the
  fence, exactly if the search was not misled.
-/
theorem replaced_in_block_iff
    {script manifest replaced old : Text}
    (hReplace :
      replace script manifest = .ok (replaced, old)) :
    ∃ source place anchor before region after news middle,
      Source.read script = .ok source ∧
        source.manifestPlace = .ok place ∧
        IsLocalRewrite source place script manifest replaced
          anchor before region after news middle ∧
        ((∃ fence,
            IsBlockContent source place fence ∧
              source.docLine? fence.first = some anchor) ↔
          ¬ Misled manifestInfo source.body) := by
  rcases exists_isLocalRewrite hReplace with
    ⟨source, place, anchor, before, region, after, news,
      middle, hRead, hPlace, hRegion, hLocal⟩
  refine
    ⟨source, place, anchor, before, region, after, news,
      middle, Source.read_eq_ok_iff.mpr hRead, hPlace, hLocal,
      ?_, ?_⟩
  · rintro ⟨fence, hBlock, _⟩
    exact
      hRegion.not_misled hRead hBlock.wanted hBlock.first_eq
        hBlock.stop_eq
  · intro hNot
    rcases hRegion.exists_wanted hRead hNot with
      ⟨fence, hWanted, hFirst, hStop⟩
    have hAnchor := hLocal.anchor_eq
    rw [hFirst, Nat.add_sub_cancel] at hAnchor
    exact ⟨fence, ⟨hWanted, hFirst, hStop⟩, hAnchor⟩

/-
  A fence that is not closed, with an opaque line before the
  last line of the manifest, which is not ended.
-/
def openScript : Text :=
  "//! ```cargo\n//! a = 1\n// note\n  //!b = 2"

/- Lines for both, and one more. -/
def openManifest : Text := "a = 3\r\nb = 2\nc = 4"

/-
  The first line is written anew, the opaque line stays, the
  last line is kept and gets an end, and one is added.
-/
def openReplaced : Text :=
  "//! ```cargo\n//! a = 3\n// note\n" ++
    "  //!b = 2\n//! c = 4\n"

theorem replaced_in_block_of_unclosed :
    replace openScript openManifest =
        .ok (openReplaced, "a = 1\nb = 2\n") ∧
      ∃ source place anchor before region after news middle
          fence,
        Source.read openScript = .ok source ∧
          source.manifestPlace = .ok place ∧
          IsLocalRewrite source place openScript openManifest
            openReplaced anchor before region after news
            middle ∧
          IsBlockContent source place fence ∧
          source.docLine? fence.first = some anchor := by
  have hReplace :
      replace openScript openManifest =
        .ok (openReplaced, "a = 1\nb = 2\n") := by
    decide +kernel
  rcases replaced_in_block_iff hReplace with
    ⟨source, place, anchor, before, region, after, news,
      middle, hRead, hPlace, hLocal, hIff⟩
  have hLocated :
      (Source.read openScript).toOption.all fun source =>
        locate? manifestInfo source.body =
          (wanted? manifestInfo source.body).map
            (contentSpan source.body) := by
    decide +kernel
  simp only [hRead, Except.toOption, Option.all_some,
    decide_eq_true_eq] at hLocated
  have hEnded :=
    Source.forall_ended_body (Source.read_eq_ok_iff.mp hRead)
  have hNot : ¬ Misled manifestInfo source.body :=
    fun hMisled => locate?_ne_of_misled hEnded hMisled hLocated
  rcases hIff.mpr hNot with ⟨fence, hBlock, hAnchor⟩
  exact
    ⟨hReplace, source, place, anchor, before, region, after,
      news, middle, fence, hRead, hPlace, hLocal, hBlock,
      hAnchor⟩

/-
  A paragraph between an empty fence and a filled one, behind
  a documentation line that is indented.
-/
def strayParagraph : Text :=
  "//! ```cargo\n//! ```\n    //!\n//! text\n//!\n" ++
    "//! ```cargo\n//! x = 1\n//! ```\n"

/- The paragraph is taken for the manifest. -/
def strayReplaced : Text :=
  "//! ```cargo\n//! ```\n    //!\n    //! new = 1\n//!\n" ++
    "//! ```cargo\n//! x = 1\n//! ```\n"

/-
  The paragraph is rewritten, beside a line that opens none
  of the fences: the new line is indented as that one is.
-/
theorem paragraph_rewritten :
    replace strayParagraph "new = 1\n" =
        .ok (strayReplaced, "text\n") ∧
      ¬ ∃ source place anchor before region after news middle
          fence,
        Source.read strayParagraph = .ok source ∧
          source.manifestPlace = .ok place ∧
          IsLocalRewrite source place strayParagraph
            "new = 1\n" strayReplaced anchor before region
            after news middle ∧
          fence ∈ fences source.body ∧
          source.docLine? fence.first = some anchor := by
  refine ⟨by decide +kernel, ?_⟩
  rintro
    ⟨source, place, anchor, before, region, after, news,
      middle, fence, hRead, hPlace, hLocal, hMem, hOpens⟩
  -- The place begins at the fourth documentation line.
  have hPlaces :
      (Source.read strayParagraph).toOption.all fun source =>
        (source.manifestPlace.toOption.all (·.first = 3)) &&
          (fences source.body).all fun fence =>
            source.docLine? fence.first ≠
              source.docLine? 2 := by
    decide +kernel
  simp only [hRead, hPlace, Except.toOption, Option.all_some,
    Bool.and_eq_true, decide_eq_true_eq, List.all_eq_true]
    at hPlaces
  apply hPlaces.2 fence hMem
  have hAnchor := hLocal.anchor_eq
  rw [hPlaces.1] at hAnchor
  exact hOpens.trans hAnchor.symm

end Script

end ScriptWorkspace
