import ScriptWorkspace.Script.Package
import ScriptWorkspace.Proofs.Script.Manifest

/-
  Round trips between scripts and their manifests.

  Putting back the manifest that was read gives the script
  that it was read from. A manifest that was put into a
  script is read again, if none of its lines closes the fence
  or loses spaces. A script that is split into a package and
  embedded again is the script, if its manifest is written
  in the canonical form.

  Main declarations:
    * `replace_extract`
    * `extract_replace`
    * `embed_split`
-/

namespace ScriptWorkspace

namespace Script

open Text Markdown

------------------------------------------------------------
-- Putting Back A Manifest
------------------------------------------------------------

/-
  The manifest that was read out of a script leaves the
  script as it is: each line of the region is given its own
  content.
-/
theorem replace_extract
    {script manifest : Text}
    (hExtract : extract script = .ok manifest) :
    replace script manifest = .ok (script, manifest) := by
  rcases of_extract_eq_ok hExtract with
    ⟨source, first, stop, hRead, hLt, hStop, hLocate, rfl⟩
  rcases exists_isRegion hLt hStop with
    ⟨before, region, after, hRegion⟩
  rcases exists_docLine? source (first - 1) (by omega) with
    ⟨_, anchor, _, _, _, _, _, hAnchor⟩
  have hFeed := hRegion.not_mem_of_mem_contentsOf hRead
  rw [← hRegion.contentsOf_region,
    replace_eq hRead hLocate hRegion hAnchor,
    terminated_linesText, manifestLines_linesText hFeed]
  unfold IsRegion.respelled
  rw [respell_contentsOf,
    hRegion.joinLines_map_raw hRead anchor.newline]

/- An opaque line, a blank token and a missing line feed. -/
theorem replace_extract_of_opaque :
    extract
          "//! ```cargo\n//!x = 1\n\n  //!\r\n//! ```" =
        .ok "x = 1\n\n" ∧
      replace
          "//! ```cargo\n//!x = 1\n\n  //!\r\n//! ```"
          "x = 1\n\n" =
        .ok
          ("//! ```cargo\n//!x = 1\n\n  //!\r\n//! ```",
            "x = 1\n\n") := by
  have hExtract :
      extract
          "//! ```cargo\n//!x = 1\n\n  //!\r\n//! ```" =
        .ok "x = 1\n\n" := by
    decide +kernel
  exact ⟨hExtract, replace_extract hExtract⟩

------------------------------------------------------------
-- Reading A New Manifest
------------------------------------------------------------

theorem dropWhile_of_head?_ne
    {line : Text}
    (hSpace : line.head? ≠ some ' ') :
    line.dropWhile (· == ' ') = line := by
  cases line with
  | nil => rfl
  | cons c rest =>
      rw [List.dropWhile_cons_of_neg]
      simpa using hSpace

/-
  A manifest whose lines neither close the fence nor begin
  with a space is read as it was written.
-/
theorem extract_replace
    {script : Text}
    {source : Source}
    (hRead : Source.read script = .ok source)
    {fence : Fence}
    (hFind :
      (fences source.body).find?
          (Fence.marked manifestInfo) =
        some fence)
    (hFilled : fence.filled = true)
    {opening : FenceOpening}
    (hOpening :
      (documentFrame source.body).fenceOpening?
          fence.first =
        some opening)
    {manifest : Text}
    (hNe : manifest ≠ [])
    (hReturn : '\r' ∉ manifest)
    (hSpace :
      ∀ line ∈ manifest.splitOn '\n',
        line.head? ≠ some ' ')
    (hOpen :
      ∀ line ∈ manifest.splitOn '\n',
        ¬ IsClosingLine opening.mark opening.length line) :
    ∃ replaced old,
      replace script manifest = .ok (replaced, old) ∧
        extract replaced = .ok (terminated manifest) := by
  rw [Source.read_eq_ok_iff] at hRead
  rcases exists_region_of_find? hRead hFind hFilled with
    ⟨hLocate, anchor, before, region, after, hAnchor,
      hAnchorMem, hRegion⟩
  have hLineReturn :
      ∀ line ∈ manifestLines (terminated manifest),
        '\r' ∉ line := by
    intro line hMem
    exact not_mem_of_mem_lines hReturn hMem
  have hLineFeed :
      ∀ line ∈ manifestLines (terminated manifest),
        '\n' ∉ line := by
    intro line hMem
    exact not_mem_of_mem_manifestLines hMem
  have hLineOpen :
      ∀ line ∈ manifestLines (terminated manifest),
        ¬ IsClosingLine opening.mark opening.length
          line := by
    intro line hMem
    apply hOpen
    exact mem_splitOn_of_mem_manifestLines hMem
  -- The lines keep their spaces, as none begins with one.
  have hLines :
      (manifestLines (terminated manifest)).map
          (List.dropWhile (· == ' ')) =
        manifestLines (terminated manifest) := by
    have hSame :
        ∀ line ∈ manifestLines (terminated manifest),
          line.dropWhile (· == ' ') = id line := by
      intro line hMem
      apply dropWhile_of_head?_ne
      apply hSpace
      exact mem_splitOn_of_mem_manifestLines hMem
    rw [List.map_congr_left hSame, List.map_id]
  rcases hRegion.ofText_respelled (Nat.succ_pos _) hRead
      (Source.not_mem_text_of_ofText hRead hAnchorMem)
      hLineFeed hLineReturn with
    ⟨next, hNext, _, _, hDocs⟩
  have hContents :=
    hRegion.docContents_respelled hRead hLineReturn hDocs
  rw [hLines] at hContents
  have hFound :=
    locate?_respelled hRead hFind hOpening hRegion
      (manifestLines_ne_nil hNe) hLineReturn hLineOpen hNext
      hContents
  refine
    ⟨_, _, replace_eq hRead hLocate hRegion hAnchor manifest,
      ?_⟩
  have hBetween :
      (next.docContents.take
          (fence.first + 1 +
            (manifestLines (terminated manifest)).length)).drop
          (fence.first + 1) =
        manifestLines (terminated manifest) := by
    rw [hContents, ← hRegion.first_eq,
      ← List.length_append, List.take_left, List.drop_left]
  refine
    (extract_eq hNext hFound (Nat.le_add_right _ _)).trans ?_
  rw [hBetween, linesText_manifestLines]

/- A script of one manifest, as a source. -/
def plainSource : Source :=
  { lines :=
      [{ text := "//! ```cargo", terminator := .lineFeed
         start := 0
         doc :=
          some { marker := "//! ", content := "```cargo" } },
        { text := "//! x = 1", terminator := .lineFeed
          start := 13
          doc :=
            some { marker := "//! ", content := "x = 1" } },
        { text := "//! ```", terminator := .lineFeed
          start := 23
          doc :=
            some { marker := "//! ", content := "```" } }]
    shebang := false }

/- The fence around its manifest. -/
def plainFence : Fence :=
  { info := "cargo", first := 0, stop := 3
    contentStop := 2, lineFeeds := 1 }

theorem read_plainSource :
    Source.read "//! ```cargo\n//! x = 1\n//! ```\n" =
      .ok plainSource := by
  decide +kernel

theorem find?_plainSource :
    (fences plainSource.body).find?
        (Fence.marked manifestInfo) =
      some plainFence := by
  decide +kernel

theorem extract_replace_of_two_lines :
    ∃ replaced old,
      replace "//! ```cargo\n//! x = 1\n//! ```\n"
          "y = 2\nz = 3" =
        .ok (replaced, old) ∧
        extract replaced =
          .ok (terminated "y = 2\nz = 3") := by
  have hOpening :
      (documentFrame plainSource.body).fenceOpening?
          plainFence.first =
        some { mark := '`', length := 3, info := "cargo" } := by
    decide +kernel
  refine
    extract_replace read_plainSource find?_plainSource
      (by decide) hOpening (by decide) (by decide)
      (by decide) ?_
  intro line hMem
  have hLine :
      line = ("y = 2" : Text) ∨ line = ("z = 3" : Text) := by
    simpa [splitOn] using hMem
  rcases hLine with rfl | rfl
  · exact
      not_isClosingLine_of_mem (c := 'y') (by decide)
        (by decide) (by decide)
  · exact
      not_isClosingLine_of_mem (c := 'z') (by decide)
        (by decide) (by decide)

------------------------------------------------------------
-- Canonical Lines
------------------------------------------------------------

/-
  The line is the one that is written for its content beside
  an anchor.
-/
def Line.IsCanonical (anchor line : Line) : Prop :=
  ∃ doc,
    line.doc = some doc ∧
      line.raw = renderDoc anchor anchor.newline doc.content

instance (anchor line : Line) :
    Decidable (anchor.IsCanonical line) :=
  match hDoc : line.doc with
  | none => isFalse (by simp [Line.IsCanonical, hDoc])
  | some doc =>
    decidable_of_iff
      (line.raw = renderDoc anchor anchor.newline doc.content)
      (by simp [Line.IsCanonical, hDoc])

section Canonical

variable {anchor : Line} {lines : List Line}
variable (hLines : ∀ line ∈ lines, anchor.IsCanonical line)

include hLines

/- Canonical lines are as good as newly written ones. -/
theorem respell_of_canonical
    (contents : List Text) :
    respell (renderDoc anchor anchor.newline) lines
        contents =
      contents.map (renderDoc anchor anchor.newline) := by
  induction lines generalizing contents with
  | nil => rfl
  | cons line lines ih =>
      have hRest :=
        ih fun other hMem =>
          hLines other (List.mem_cons_of_mem _ hMem)
      rcases hLines line (by simp) with ⟨doc, hDoc, hRaw⟩
      cases contents with
      | nil => simpa [respell, hDoc] using hRest []
      | cons content contents =>
          simp only [respell, hDoc, hRest, List.map_cons]
          split
          · next hSame => rw [hRaw, hSame]
          · rfl

theorem map_raw_of_canonical :
    lines.map Line.raw =
      (contentsOf lines).map
        (renderDoc anchor anchor.newline) := by
  rw [← respell_of_canonical hLines, respell_contentsOf]

end Canonical

/- The writing of a line depends on the anchor's raw text. -/
theorem renderDoc_congr
    {anchor other : Line}
    (hAnchor : anchor.IsSplit)
    (hOther : other.IsSplit)
    (hRaw : other.raw = anchor.raw) :
    other.newline = anchor.newline ∧
      renderDoc other = renderDoc anchor := by
  unfold Line.IsSplit at hAnchor hOther
  rw [hRaw, hAnchor, Prod.mk.injEq] at hOther
  constructor
  · unfold Line.newline
    rw [hOther.2]
  · funext newline content
    unfold renderDoc Line.indentation
    rw [hOther.1]

------------------------------------------------------------
-- Sources With The Same Lines In Front
------------------------------------------------------------

/- Lines cut where their raw texts and their marks are. -/
theorem exists_split_of_maps
    {lines : List Line}
    {raws raws' : List Text}
    {marks marks' : List (Option DocText)}
    (hRaw : lines.map Line.raw = raws ++ raws')
    (hDoc : lines.map Line.doc = marks ++ marks')
    (hLength : raws.length = marks.length) :
    ∃ front back,
      lines = front ++ back ∧
        (front.map Line.raw = raws ∧
          front.map Line.doc = marks) ∧
        back.map Line.raw = raws' ∧
          back.map Line.doc = marks' := by
  rcases List.map_eq_append_iff.mp hRaw with
    ⟨front, back, rfl, hFront, hBack⟩
  rw [List.map_append] at hDoc
  have hMarks :=
    List.append_inj hDoc
      (by rw [List.length_map, ← hLength, ← hFront,
        List.length_map])
  exact
    ⟨front, back, rfl, ⟨hFront, hMarks.1⟩, hBack, hMarks.2⟩

/-
  A documentation line in front of a region is there in every
  source that has the same lines in front.
-/
theorem exists_docLine?_of_front
    {source next : Source}
    {before back before' back' : List Line}
    (hLines : source.lines = before ++ back)
    (hLines' : next.lines = before' ++ back')
    (hRaw : before'.map Line.raw = before.map Line.raw)
    (hDoc : before'.map Line.doc = before.map Line.doc)
    {number : Nat}
    (hNumber : number < (contentsOf before).length)
    {anchor : Line}
    (hAnchor : source.docLine? number = some anchor) :
    ∃ anchor',
      next.docLine? number = some anchor' ∧
        anchor'.raw = anchor.raw ∧
          anchor' ∈ next.lines := by
  rcases exists_split_of_lt_length hNumber with
    ⟨front, line, rest, doc, rfl, hLineDoc, hCount⟩
  have hLine : line = anchor := by
    have hSplit :
        source.lines = front ++ line :: (rest ++ back) := by
      rw [hLines]
      simp
    have hFound := Source.docLine?_eq_some hSplit hLineDoc
    rw [hCount, hAnchor] at hFound
    exact (Option.some.inj hFound).symm
  subst hLine
  rw [List.map_append] at hRaw hDoc
  rcases exists_split_of_maps hRaw hDoc (by simp) with
    ⟨front', rest', rfl, ⟨_, hFrontDoc⟩, hRestRaw,
      hRestDoc⟩
  rcases List.map_eq_cons_iff.mp hRestRaw with
    ⟨anchor', rest', rfl, hAnchorRaw, _⟩
  rw [List.map_cons, List.map_cons,
    List.cons.injEq] at hRestDoc
  have hCount' : (contentsOf front').length = number := by
    rw [contentsOf_eq_filterMap, hFrontDoc,
      ← contentsOf_eq_filterMap, hCount]
  have hSplit' :
      next.lines = front' ++ anchor' :: (rest' ++ back') := by
    rw [hLines']
    simp
  have hDoc' : anchor'.doc = some doc :=
    hRestDoc.1.trans hLineDoc
  refine ⟨anchor', ?_, hAnchorRaw, ?_⟩
  · rw [← hCount']
    exact Source.docLine?_eq_some hSplit' hDoc'
  · rw [hSplit']
    simp

------------------------------------------------------------
-- Splitting And Embedding
------------------------------------------------------------

/- The placeholder is a line of its own. -/
theorem manifestLines_placeholder :
    manifestLines (terminated placeholder) =
      [placeholder] := by
  decide

theorem not_mem_placeholder :
    (∀ content ∈ [placeholder], '\n' ∉ content) ∧
      ∀ content ∈ [placeholder], '\r' ∉ content := by
  decide

theorem not_isClosingLine_placeholder
    {mark : Char}
    (hMark : mark = '`' ∨ mark = '~')
    (length : Nat) :
    ∀ content ∈ [placeholder],
      ¬ IsClosingLine mark length content := by
  intro content hMem
  rw [List.mem_singleton.mp hMem]
  have hOther : '#' ≠ mark :=
    ne_of_isMark hMark (by decide) (by decide)
  exact
    not_isClosingLine_of_mem (by decide) hOther (by decide)

/- Of the marks of a region one is left for one content. -/
theorem respellMarks_singleton
    (anchor : Line)
    {lines : List Line}
    (hDocs : ∀ line ∈ lines, ∃ doc, line.doc = some doc)
    (hNe : lines ≠ [])
    {content : Text}
    (hReturn : '\r' ∉ content)
    (hSpace : content.dropWhile (· == ' ') = content) :
    ∃ doc,
      respellMarks (renderMark anchor) lines [content] =
          [some doc] ∧
        doc.content = content := by
  have hNil :
      ∀ lines : List Line,
        (∀ line ∈ lines, ∃ doc, line.doc = some doc) →
          respellMarks (renderMark anchor) lines [] = [] := by
    intro lines hDocs
    induction lines with
    | nil => rfl
    | cons line lines ih =>
        rcases hDocs line (by simp) with ⟨doc, hDoc⟩
        simpa [respellMarks, hDoc] using
          ih fun other hMem =>
            hDocs other (List.mem_cons_of_mem _ hMem)
  cases lines with
  | nil => exact absurd rfl hNe
  | cons line lines =>
      rcases hDocs line (by simp) with ⟨doc, hDoc⟩
      have hRest :=
        hNil lines fun other hMem =>
          hDocs other (List.mem_cons_of_mem _ hMem)
      simp only [respellMarks, hDoc, hRest]
      split
      · next hSame => exact ⟨doc, rfl, hSame⟩
      · rcases ofLine?_renderText anchor hReturn with
          ⟨marker, hMark⟩
        rw [hSpace] at hMark
        unfold renderMark
        rw [hMark]
        exact ⟨_, rfl, rfl⟩

/- One ended line in the place of a region. -/
theorem areLines_of_replaced
    {before region after : List Text}
    (hBefore : ∀ line ∈ before, EndedLine line)
    (hAfter : AreLines (region ++ after))
    {line : Text}
    (hLine : EndedLine line) :
    AreLines (before ++ [line] ++ after) := by
  rw [List.append_assoc,
    areLines_append_iff before (by simp)]
  refine ⟨hBefore, ?_⟩
  cases after with
  | nil => exact hLine.isLine
  | cons next after =>
      exact
        ⟨hLine,
          ((areLines_append_iff region (by simp)).mp
            hAfter).2⟩

/-
  The placeholder stands in a region of its own after a
  script with a canonical manifest was split.
-/
theorem exists_placeholder_region
    {script : Text}
    {source : Source}
    (hRead : Source.ofText script = .ok source)
    {first stop : Nat}
    (hFirst : 0 < first)
    {before region after : List Line}
    (hRegion :
      IsRegion source first stop before region after)
    {anchor : Line}
    (hAnchor : '\n' ∉ anchor.text)
    (hCanonical :
      ∀ line ∈ region, anchor.IsCanonical line) :
    ∃ next before' line after',
      Source.ofText
            (joinLines anchor.newline
              (IsRegion.respelled anchor before region after
                [placeholder])) =
          .ok next ∧
        next.docContents =
          contentsOf before ++ [placeholder] ++
            contentsOf after ∧
        IsRegion next first (first + 1) before' [line]
          after' ∧
        anchor.IsCanonical line ∧
        (before'.map Line.raw = before.map Line.raw ∧
          before'.map Line.doc = before.map Line.doc) ∧
        after'.map Line.raw = after.map Line.raw := by
  have hLines := hRegion.areLines hRead
  rcases hRegion.ofText_respelled hFirst hRead hAnchor
      not_mem_placeholder.1 not_mem_placeholder.2 with
    ⟨next, hNext, _, hRaws, hDocs⟩
  have hContents :=
    hRegion.docContents_respelled hRead
      not_mem_placeholder.2 hDocs
  have hBefore :
      ∀ raw ∈ before.map Line.raw, EndedLine raw := by
    intro raw hMem
    rcases List.mem_map.mp hMem with ⟨line, hIn, rfl⟩
    exact hLines.1 line hIn
  have hMarked :
      ∀ line ∈ region, ∃ doc, line.doc = some doc := by
    intro line hMem
    rcases hCanonical line hMem with ⟨doc, hDoc, _⟩
    exact ⟨doc, hDoc⟩
  have hEnded :
      EndedLine
        (renderDoc anchor anchor.newline placeholder) := by
    rw [renderDoc_eq]
    exact
      endedLine_append_newline
        (not_mem_renderText hAnchor (by decide)) anchor
  -- No line has to be ended, so the new ones are these.
  unfold IsRegion.respelled at hRaws
  rw [respell_of_canonical hCanonical] at hRaws
  rw [List.map_cons, List.map_nil,
    endLines_of_areLines _
      (areLines_of_replaced hBefore hLines.2 hEnded)]
    at hRaws
  rcases respellMarks_singleton anchor hMarked
      hRegion.region_ne_nil
      (not_mem_placeholder.2 placeholder (by simp))
      (by decide) with
    ⟨doc, hMarks, hDoc⟩
  rw [hMarks] at hDocs
  rw [List.append_assoc] at hRaws hDocs
  rcases exists_split_of_maps hRaws hDocs (by simp) with
    ⟨before', rest, hNextLines, hFront, hRestRaw, hRestDoc⟩
  rcases List.map_eq_cons_iff.mp hRestRaw with
    ⟨line, after', rfl, hRaw, hAfterRaw⟩
  rw [List.map_cons, List.singleton_append,
    List.cons.injEq] at hRestDoc
  have hBeforeContents :
      (contentsOf before').length = first := by
    rw [contentsOf_eq_filterMap, hFront.2,
      ← contentsOf_eq_filterMap, hRegion.first_eq]
  refine
    ⟨next, before', line, after', hNext, hContents, ?_,
      ⟨doc, hRestDoc.1, by rw [hRaw, hDoc]⟩, hFront,
      hAfterRaw⟩
  exact
    { lines_eq := by rw [hNextLines]; simp
      first_eq := hBeforeContents
      stop_eq := by
        rw [contentsOf_cons_of_some hRestDoc.1]
        rfl
      starts := ⟨line, doc, [], rfl, hRestDoc.1⟩
      ends := ⟨[], line, doc, rfl, hRestDoc.1⟩ }

/-
  What the code block of a script is made of, if its lines
  are canonical.
-/
structure CanonicalBlock
    (source : Source)
    (fence : Fence)
    (anchor : Line)
    (before region after : List Line) : Prop where
  found :
    (fences source.body).find?
        (Fence.marked manifestInfo) =
      some fence
  filled : fence.filled = true
  anchored : source.docLine? fence.first = some anchor
  isRegion :
    IsRegion source (fence.first + 1) fence.contentStop before
      region after
  canonical : ∀ line ∈ region, anchor.IsCanonical line

/- The first block of the script has lines that are canonical. -/
def HasCanonicalBlock (script : Text) : Prop :=
  ∃ source fence anchor before region after,
    Source.read script = .ok source ∧
      CanonicalBlock source fence anchor before region after

/-
  A script with a canonical block is split into files that
  make the script again.
-/
theorem HasCanonicalBlock.exists_embed
    {script : Text}
    (hScript : HasCanonicalBlock script) :
    ∃ files,
      split script = .ok files ∧
        embed files.source files.manifest = .ok script := by
  rcases hScript with
    ⟨source, fence, anchor, before, region, after, hRead,
      hFind, hFilled, hAnchor, hRegion, hCanonical⟩
  rw [Source.read_eq_ok_iff] at hRead
  have hLocate :=
    (exists_region_of_find? hRead hFind hFilled).1
  have hAnchorMem := Source.mem_lines_of_docLine? hAnchor
  rcases exists_placeholder_region hRead
      (Nat.succ_pos _) hRegion
      (Source.not_mem_text_of_ofText hRead hAnchorMem)
      hCanonical with
    ⟨next, before', line, after', hNext, hContents,
      hRegion', hLine, hFront, hAfter⟩
  -- The placeholder is found where the manifest was.
  rcases layout_of_mem_fences
      (Source.forall_ended_body hRead)
      (List.mem_of_find?_eq_some hFind) with
    ⟨opening, hLayout⟩
  have hMark :=
    (eq_of_ofText?
      (Frame.isCode_of_fenceOpening? hLayout.opens).2).1
  have hLocate' :=
    locate?_respelled hRead hFind hLayout.opens hRegion
      (by simp) not_mem_placeholder.2
      (not_isClosingLine_placeholder hMark opening.length)
      hNext hContents
  -- Its anchor is written as the old one was.
  rcases exists_docLine?_of_front
      (by rw [hRegion.lines_eq, List.append_assoc])
      (by rw [hRegion'.lines_eq, List.append_assoc])
      hFront.1 hFront.2
      (by rw [hRegion.first_eq]; omega) hAnchor with
    ⟨anchor', hAnchor', hAnchorRaw, hAnchorMem'⟩
  have hSame :=
    renderDoc_congr
      (Source.isSplit_of_ofText hRead hAnchorMem)
      (Source.isSplit_of_ofText hNext hAnchorMem')
      hAnchorRaw
  have hFeed := hRegion.not_mem_of_mem_contentsOf hRead
  refine
    ⟨{ manifest := linesText (contentsOf region)
       source :=
        joinLines anchor.newline
          (IsRegion.respelled anchor before region after
            [placeholder]) }, ?_, ?_⟩
  · have hReplace :=
      replace_eq hRead hLocate hRegion hAnchor placeholder
    rw [manifestLines_placeholder] at hReplace
    simp only [split, withPlaceholder, hReplace, bind,
      Except.bind, pure, Except.pure]
  · have hReplace :=
      replace_eq hNext hLocate' hRegion' hAnchor'
        (linesText (contentsOf region))
    rw [terminated_linesText,
      manifestLines_linesText hFeed] at hReplace
    simp only [embed, hReplace, bind, Except.bind, pure,
      Except.pure, Except.ok.injEq]
    unfold IsRegion.respelled
    have hLine' :
        ∀ other ∈ [line], anchor.IsCanonical other := by
      intro other hMem
      rwa [List.mem_singleton.mp hMem]
    rw [hSame.1, hSame.2, respell_of_canonical hLine',
      ← map_raw_of_canonical hCanonical, hFront.1, hAfter]
    exact hRegion.joinLines_map_raw hRead anchor.newline

/-
  A script with a canonical manifest is split into a package
  from which it is put together again.
-/
theorem embed_split
    {script : Text}
    {source : Source}
    (hRead : Source.read script = .ok source)
    {fence : Fence}
    (hFind :
      (fences source.body).find?
          (Fence.marked manifestInfo) =
        some fence)
    (hFilled : fence.filled = true)
    {anchor : Line}
    (hAnchor : source.docLine? fence.first = some anchor)
    {before region after : List Line}
    (hRegion :
      IsRegion source (fence.first + 1) fence.contentStop
        before region after)
    (hCanonical :
      ∀ line ∈ region, anchor.IsCanonical line) :
    ∃ files,
      split script = .ok files ∧
        embed files.source files.manifest = .ok script := by
  exact
    HasCanonicalBlock.exists_embed
      ⟨source, fence, anchor, before, region, after, hRead,
        hFind, hFilled, hAnchor, hRegion, hCanonical⟩

/-
  A script of three manifest lines, one of them empty. Its
  fence is not closed, and a line of code is behind it.
-/
def unclosedScript : Text :=
  "  //! ```cargo\r\n  //! x = 1\r\n  //!\r\n" ++
    "  //! y = 2\r\nfn main() {}\n"

/- The script as a source. -/
def unclosedSource : Source :=
  { lines :=
      [{ text := "  //! ```cargo"
         terminator := .carriageReturnLineFeed
         start := 0
         doc :=
          some
            { marker := "  //! ", content := "```cargo" } },
        { text := "  //! x = 1"
          terminator := .carriageReturnLineFeed
          start := 16
          doc :=
            some { marker := "  //! ", content := "x = 1" } },
        { text := "  //!"
          terminator := .carriageReturnLineFeed
          start := 29
          doc := some { marker := "  //!", content := [] } },
        { text := "  //! y = 2"
          terminator := .carriageReturnLineFeed
          start := 36
          doc :=
            some { marker := "  //! ", content := "y = 2" } },
        { text := "fn main() {}"
          terminator := .lineFeed
          start := 49 }]
    shebang := false }

/- The fence of its manifest. -/
def unclosedFence : Fence :=
  { info := "cargo", first := 0, stop := 4
    contentStop := 4, lineFeeds := 3 }

/- The lines of the manifest are put back as they were. -/
theorem embed_split_of_unclosed :
    ∃ files,
      split unclosedScript = .ok files ∧
        embed files.source files.manifest =
          .ok unclosedScript := by
  have hRead :
      Source.read unclosedScript = .ok unclosedSource := by
    decide +kernel
  have hFind :
      (fences unclosedSource.body).find?
          (Fence.marked manifestInfo) =
        some unclosedFence := by
    decide +kernel
  have hAnchor :
      unclosedSource.docLine? unclosedFence.first =
        some (unclosedSource.lines.head (by decide)) := by
    decide
  have hRegion :
      IsRegion unclosedSource (unclosedFence.first + 1)
        unclosedFence.contentStop
        (unclosedSource.lines.take 1)
        ((unclosedSource.lines.drop 1).take 3)
        (unclosedSource.lines.drop 4) :=
    { lines_eq := rfl
      first_eq := rfl
      stop_eq := rfl
      starts := ⟨_, _, _, rfl, rfl⟩
      ends :=
        ⟨(unclosedSource.lines.drop 1).take 2, _, _, rfl,
          rfl⟩ }
  refine
    embed_split hRead hFind (by decide) hAnchor hRegion ?_
  decide

end Script

end ScriptWorkspace
