import ScriptWorkspace.Script.Manifest
import ScriptWorkspace.Proofs.Script.Splice
import ScriptWorkspace.Proofs.Markdown.Search

/-
  The manifest of a script as documentation lines.

  The search gives offsets in the body. Since these are the
  offsets of documentation lines, the manifest is the lines
  of a region of the source, and replacing it respells this
  region.

  Main declarations:
    * `linesText`
    * `Source.manifestPlace_eq`
    * `extract_eq`
    * `replace_eq`
    * `exists_region_of_find?`
    * `locate?_replaced`
-/

namespace ScriptWorkspace

namespace Script

open Text Markdown

------------------------------------------------------------
-- Manifests As Lines
------------------------------------------------------------

/- The text of contents that a line feed follows each. -/
def linesText (contents : List Text) : Text :=
  contents.flatMap (· ++ ['\n'])

theorem terminated_linesText (contents : List Text) :
    terminated (linesText contents) =
      linesText contents := by
  unfold terminated
  rcases List.eq_nil_or_concat contents with
    rfl | ⟨init, last, rfl⟩
  · rfl
  · rw [if_pos]
    rw [Bool.or_eq_true, endsWith_singleton_iff]
    right
    exact ⟨linesText init ++ last, by simp [linesText]⟩

theorem manifestLines_linesText
    {contents : List Text}
    (hFeed : ∀ content ∈ contents, '\n' ∉ content) :
    manifestLines (linesText contents) = contents := by
  unfold manifestLines linesText
  rw [splitOn_flatMap_ended hFeed, List.dropLast_concat]

/- A manifest that is not empty is ended. -/
theorem terminated_cases (manifest : Text) :
    terminated manifest = [] ∨
      ∃ start, terminated manifest = start ++ ['\n'] := by
  unfold terminated
  split
  · next hIf =>
      rw [Bool.or_eq_true, endsWith_singleton_iff,
        List.isEmpty_iff] at hIf
      exact hIf
  · exact Or.inr ⟨manifest, rfl⟩

/- An ended manifest is the text of its lines. -/
theorem linesText_manifestLines (manifest : Text) :
    linesText (manifestLines (terminated manifest)) =
      terminated manifest := by
  have hSplit :=
    flatMap_dropLast_splitOn '\n' (terminated manifest)
  have hLast :
      ((splitOn '\n' (terminated manifest)).getLast?).getD
          [] =
        [] := by
    rcases terminated_cases manifest with
      hNil | ⟨start, hEnd⟩
    · rw [hNil]
      rfl
    · cases hGet :
        (splitOn '\n' (terminated manifest)).getLast? with
      | none => rfl
      | some piece =>
          -- The last piece cannot hold the last line feed.
          have hFree :=
            not_mem_of_mem_splitOn
              (List.mem_of_getLast? hGet)
          rw [hGet, Option.getD_some] at hSplit
          rcases List.eq_nil_or_concat piece with
            rfl | ⟨init, c, rfl⟩
          · rfl
          · rw [List.concat_eq_append,
              ← List.append_assoc] at hSplit
            have hFeed :=
              (List.append_inj' (hSplit.trans hEnd) rfl).2
            rw [List.concat_eq_append, hFeed] at hFree
            simp at hFree
  rw [hLast, List.append_nil] at hSplit
  exact hSplit

theorem manifestLines_ne_nil
    {manifest : Text}
    (hNe : manifest ≠ []) :
    manifestLines (terminated manifest) ≠ [] := by
  intro hNil
  have hText := linesText_manifestLines manifest
  rw [hNil] at hText
  unfold terminated at hText
  split at hText
  · exact hNe hText.symm
  · simp [linesText] at hText

/- No line of a manifest holds a line feed. -/
theorem not_mem_of_mem_manifestLines
    {manifest line : Text}
    (hMem : line ∈ manifestLines manifest) :
    '\n' ∉ line :=
  not_mem_of_mem_splitOn (List.dropLast_subset _ hMem)

theorem not_mem_terminated
    {manifest : Text}
    (hReturn : '\r' ∉ manifest) :
    '\r' ∉ terminated manifest := by
  unfold terminated
  split
  · exact hReturn
  · simp [hReturn]

/- The characters of a line are those of the manifest. -/
theorem not_mem_of_mem_lines
    {manifest line : Text}
    (hReturn : '\r' ∉ manifest)
    (hMem : line ∈ manifestLines (terminated manifest)) :
    '\r' ∉ line := by
  intro hIn
  apply not_mem_terminated hReturn
  rw [← linesText_manifestLines manifest]
  exact
    List.mem_flatMap.mpr
      ⟨line, hMem, List.mem_append_left _ hIn⟩

/- The lines of an ended manifest are pieces of it. -/
theorem mem_splitOn_of_mem_manifestLines
    {manifest line : Text}
    (hMem : line ∈ manifestLines (terminated manifest)) :
    line ∈ splitOn '\n' manifest := by
  unfold terminated at hMem
  split at hMem
  · exact List.dropLast_subset _ hMem
  · unfold manifestLines at hMem
    rwa [splitOn_append_singleton,
      List.dropLast_concat] at hMem

------------------------------------------------------------
-- Regions Of Manifests
------------------------------------------------------------

namespace Source

variable {script : Text} {source : Source}

theorem read_eq_ok_iff :
    read script = .ok source ↔
      ofText script = .ok source := by
  unfold read
  cases ofText script with
  | ok other => simp
  | error fault => simp

theorem forall_ended_body
    (hRead : ofText script = .ok source) :
    ∀ line ∈ rawLines source.body, EndedLine line := by
  intro line hMem
  rw [rawLines_body hRead] at hMem
  rcases List.mem_map.mp hMem with ⟨content, hContent, rfl⟩
  exact
    ⟨content, not_mem_content_of_ofText hRead hContent, rfl⟩

theorem length_bodyLines (source : Source) :
    source.bodyLines.length = source.docContents.length :=
  List.length_map _

/- The part of the body that numbered lines cover. -/
theorem bodyPart_lineSpan
    (source : Source)
    {first stop : Nat}
    (hLe : first ≤ stop) :
    source.bodyPart (lineSpan source.bodyLines first stop) =
      linesText
        ((source.docContents.take stop).drop first) := by
  refine (bodyPart_lineOffset source hLe).trans ?_
  unfold bodyLines linesText
  rw [List.flatMap_def, List.map_drop, List.map_take]

theorem manifestSpan_eq_ok
    {span : Span}
    (hLocate :
      locate? manifestInfo source.body = some span) :
    source.manifestSpan = .ok span := by
  unfold manifestSpan
  rw [hLocate]

/- The offset of a numbered line is at its boundary. -/
theorem docIndex_lineOffset
    {number : Nat}
    (hNumber : number ≤ source.docContents.length) :
    source.docIndex (lineOffset source.bodyLines number) =
      .ok number := by
  unfold docIndex
  rw [docIndexAt?_lineOffset hNumber]

/- Where the manifest is depends on the contents alone. -/
theorem located_congr
    {other : Source}
    (hContents : other.docContents = source.docContents)
    {first stop : Nat}
    (hLocate :
      locate? manifestInfo source.body =
        some (lineSpan source.bodyLines first stop)) :
    locate? manifestInfo other.body =
      some (lineSpan other.bodyLines first stop) := by
  unfold body bodyLines at hLocate ⊢
  rwa [hContents]

/- The place of a manifest that covers numbered lines. -/
theorem manifestPlace_eq
    {first stop : Nat}
    (hLocate :
      locate? manifestInfo source.body =
        some (lineSpan source.bodyLines first stop))
    (hLe : first ≤ stop)
    (hStop : stop ≤ source.docContents.length) :
    source.manifestPlace =
      .ok
        { text :=
            linesText
              ((source.docContents.take stop).drop first)
          first
          stop } := by
  have hFirst :
      source.docIndex
          (lineSpan source.bodyLines first stop).start =
        .ok first :=
    docIndex_lineOffset (Nat.le_trans hLe hStop)
  have hLast :
      source.docIndex
          (lineSpan source.bodyLines first stop).stop =
        .ok stop :=
    docIndex_lineOffset hStop
  simp only [manifestPlace, manifestSpan_eq_ok hLocate,
    hFirst, hLast, bodyPart_lineSpan source hLe, bind,
    Except.bind, pure, Except.pure]

end Source

/- And so does what is read. -/
theorem extract_congr
    {script script' : Text}
    {source source' : Source}
    (hRead : Source.ofText script = .ok source)
    (hRead' : Source.ofText script' = .ok source')
    (hContents :
      source'.docContents = source.docContents) :
    extract script' = extract script := by
  simp only [extract, Source.read, hRead, hRead',
    Source.manifestSpan, Source.bodyPart, Source.body,
    hContents, bind, Except.bind]

/- What a manifest that is read has come from. -/
theorem of_extract_eq_ok
    {script manifest : Text}
    (hExtract : extract script = .ok manifest) :
    ∃ source first stop,
      Source.ofText script = .ok source ∧
        first < stop ∧
        stop ≤ source.docContents.length ∧
        locate? manifestInfo source.body =
          some (lineSpan source.bodyLines first stop) ∧
        manifest =
          linesText
            ((source.docContents.take stop).drop first) := by
  simp only [extract, bind, Except.bind, pure,
    Except.pure] at hExtract
  cases hRead : Source.read script with
  | error fault => simp [hRead] at hExtract
  | ok source =>
      rw [Source.read_eq_ok_iff] at hRead
      cases hLocate : locate? manifestInfo source.body with
      | none =>
          simp [Source.read_eq_ok_iff.mpr hRead,
            Source.manifestSpan, hLocate] at hExtract
      | some span =>
          simp only [Source.read_eq_ok_iff.mpr hRead,
            Source.manifestSpan_eq_ok hLocate,
            Except.ok.injEq] at hExtract
          rcases exists_range_of_locate?
              (Source.forall_ended_body hRead) hLocate with
            ⟨first, ends, hSpan, hFirst, hEnds⟩
          rw [Source.rawLines_body hRead] at hSpan hFirst
          -- Past the last line the offsets are all the same.
          have hStop :
              span =
                lineSpan source.bodyLines first
                  (min ends source.bodyLines.length) := by
            rw [hSpan]
            unfold lineSpan
            rw [lineOffset_min]
          rw [hStop] at hExtract hLocate
          rw [source.length_bodyLines] at *
          refine
            ⟨source, first,
              min ends source.docContents.length, hRead,
              by omega, by omega, hLocate, ?_⟩
          rw [← hExtract]
          exact source.bodyPart_lineSpan (by omega)

/- A documentation line by its number. -/
theorem exists_docLine?
    (source : Source)
    (number : Nat)
    (hNumber : number < source.docContents.length) :
    ∃ before line after doc,
      source.lines = before ++ line :: after ∧
        line.doc = some doc ∧
        (contentsOf before).length = number ∧
        source.docLine? number = some line := by
  have hIn : number < (contentsOf source.lines).length :=
    hNumber
  rcases exists_split_of_lt_length hIn with
    ⟨before, line, after, doc, hLines, hDoc, hCount⟩
  refine
    ⟨before, line, after, doc, hLines, hDoc, hCount, ?_⟩
  rw [← hCount]
  exact Source.docLine?_eq_some hLines hDoc

section Reading

variable {script : Text} {source : Source}
variable {first stop : Nat}

/- The manifest that is read is the lines that it covers. -/
theorem extract_eq
    (hRead : Source.ofText script = .ok source)
    (hLocate :
      locate? manifestInfo source.body =
        some (lineSpan source.bodyLines first stop))
    (hLe : first ≤ stop) :
    extract script =
      .ok
        (linesText
          ((source.docContents.take stop).drop first)) := by
  have hSource : Source.read script = .ok source :=
    Source.read_eq_ok_iff.mpr hRead
  simp only [extract, hSource,
    Source.manifestSpan_eq_ok hLocate,
    source.bodyPart_lineSpan hLe, bind, Except.bind, pure,
    Except.pure]

variable {before region after : List Line}

theorem IsRegion.le_stop
    (hRegion :
      IsRegion source first stop before region after) :
    first ≤ stop ∧ stop ≤ source.docContents.length := by
  have hStop := hRegion.stop_eq
  have hFirst := hRegion.first_eq
  have hLength :
      source.docContents.length =
        (contentsOf before).length +
          (contentsOf region).length +
          (contentsOf after).length := by
    change (contentsOf source.lines).length = _
    rw [hRegion.lines_eq]
    simp [Nat.add_assoc]
  omega

theorem IsRegion.not_mem_of_mem_contentsOf
    (hRegion :
      IsRegion source first stop before region after)
    (hRead : Source.ofText script = .ok source) :
    ∀ content ∈ contentsOf region, '\n' ∉ content := by
  intro content hMem
  apply Source.not_mem_content_of_ofText hRead
  rw [hRegion.contentsOf_region] at hMem
  exact List.mem_of_mem_take (List.mem_of_mem_drop hMem)

/- The lines of a source put together are the script. -/
theorem IsRegion.joinLines_map_raw
    (hRegion :
      IsRegion source first stop before region after)
    (hRead : Source.ofText script = .ok source)
    (newline : Text) :
    joinLines newline
        (before.map Line.raw ++ region.map Line.raw ++
          after.map Line.raw) =
      script := by
  rw [← List.map_append, ← List.map_append,
    ← hRegion.lines_eq,
    joinLines_of_areLines _ (Source.areLines_map_raw hRead),
    Source.map_raw_of_ofText hRead, flatten_rawLines]

variable (hRead : Source.ofText script = .ok source)
variable
  (hLocate :
    locate? manifestInfo source.body =
      some (lineSpan source.bodyLines first stop))
variable
  (hRegion :
    IsRegion source first stop before region after)

include hRead hLocate hRegion

/- Replacing the manifest respells the region. -/
theorem replace_eq
    {anchor : Line}
    (hAnchor : source.docLine? (first - 1) = some anchor)
    (manifest : Text) :
    replace script manifest =
      .ok
        (joinLines anchor.newline
            (IsRegion.respelled anchor before region after
              (manifestLines (terminated manifest))),
          linesText (contentsOf region)) := by
  have hBounds := hRegion.le_stop
  have hPlace :=
    Source.manifestPlace_eq hLocate hBounds.1 hBounds.2
  rw [← hRegion.contentsOf_region] at hPlace
  have hSource : Source.read script = .ok source :=
    Source.read_eq_ok_iff.mpr hRead
  have hSplice :=
    hRegion.splice_eq hAnchor (terminated manifest)
  simp only [replace, hSource, hPlace, hSplice, bind,
    Except.bind, pure, Except.pure]
  rfl

end Reading

------------------------------------------------------------
-- Manifests That Are Found Again
------------------------------------------------------------

/- Stripping takes white space only. -/
theorem mem_strip_of_mem
    {text : Text}
    {c : Char}
    (hMem : c ∈ text)
    (hBlank : isBlank c = false) :
    c ∈ text.strip := by
  have hDrop :
      ∀ text : Text, c ∈ text →
        c ∈ text.dropWhile isBlank := by
    intro text hMem
    rw [← List.takeWhile_append_dropWhile (p := isBlank)
      (l := text), List.mem_append] at hMem
    rcases hMem with hMem | hMem
    · have hAll :=
        List.all_eq_true.mp
          (List.all_takeWhile (p := isBlank) (l := text))
          c hMem
      rw [hAll] at hBlank
      simp at hBlank
    · exact hMem
  unfold strip stripRight dropRightWhile stripLeft
  rw [List.mem_reverse]
  apply hDrop
  rw [List.mem_reverse]
  exact hDrop text hMem

section Fenced

variable {script : Text} {source : Source}
variable (hRead : Source.ofText script = .ok source)
variable {fence : Fence}
variable
  (hFind :
    (fences source.body).find? (Fence.marked manifestInfo) =
      some fence)

include hRead hFind

/- The lines of a manifest between the rows of its fence. -/
theorem exists_region_of_find?
    (hFilled : fence.filled = true) :
    locate? manifestInfo source.body =
        some
          (lineSpan source.bodyLines (fence.first + 1)
            fence.contentStop) ∧
      ∃ anchor before region after,
        source.docLine? fence.first = some anchor ∧
          anchor ∈ source.lines ∧
          IsRegion source (fence.first + 1)
            fence.contentStop before region after := by
  have hEnded := Source.forall_ended_body hRead
  rcases layout_of_mem_fences hEnded
      (List.mem_of_find?_eq_some hFind) with
    ⟨opening, hLayout⟩
  have hStop := hLayout.contentStop_le
  have hContent := hFilled
  unfold Fence.filled at hContent
  simp only [decide_eq_true_eq] at hContent
  rw [Source.rawLines_body hRead,
    source.length_bodyLines] at hStop
  rcases exists_isRegion hContent hStop with
    ⟨before, region, after, hRegion⟩
  rcases exists_docLine? source fence.first (by omega) with
    ⟨_, anchor, _, _, hLines, _, _, hAnchor⟩
  refine
    ⟨?_, anchor, before, region, after, hAnchor,
      by rw [hLines]; simp, hRegion⟩
  rw [locate?_of_find?_marked hEnded hFind hFilled]
  unfold contentSpan
  rw [Source.rawLines_body hRead]

/- No table begins where a manifest does. -/
theorem not_mem_info_of_find?
    {opening : FenceOpening}
    (hOpening :
      (documentFrame source.body).fenceOpening?
          fence.first =
        some opening) :
    '|' ∉ opening.info := by
  have hLayout :=
    layout_of_find?_marked (Source.forall_ended_body hRead)
      hFind hOpening
  have hMarked := List.find?_some hFind
  unfold Fence.marked at hMarked
  rw [decide_eq_true_eq, hLayout.info] at hMarked
  intro hMem
  have hIn := mem_strip_of_mem hMem (by decide)
  rw [hMarked] at hIn
  exact absurd hIn (by decide)

/-
  Contents none of which closes the fence are found between
  its rows when they have taken the places of the old ones.
  A carriage return counts as a blank there.
-/
theorem locate?_replaced
    {opening : FenceOpening}
    (hOpening :
      (documentFrame source.body).fenceOpening?
          fence.first =
        some opening)
    {before region after : List Line}
    (hRegion :
      IsRegion source (fence.first + 1) fence.contentStop
        before region after)
    {contents : List Text}
    (hNe : contents ≠ [])
    (hOpen :
      ∀ content ∈ contents,
        ¬ IsClosingLine opening.mark opening.length
          (replaceChar '\r' ' ' content))
    {script' : Text}
    {next : Source}
    (hNext : Source.ofText script' = .ok next)
    (hDocs :
      next.docContents =
        contentsOf before ++ contents ++ contentsOf after) :
    locate? manifestInfo next.body =
      some
        (lineSpan next.bodyLines (fence.first + 1)
          (fence.first + 1 + contents.length)) := by
  have hEnded := Source.forall_ended_body hRead
  have hEnded' := Source.forall_ended_body hNext
  have hLines := Source.rawLines_body hRead
  have hLines' := Source.rawLines_body hNext
  have hOld :
      source.docContents =
        contentsOf before ++ contentsOf region ++
          contentsOf after := by
    change contentsOf source.lines = _
    rw [hRegion.lines_eq]
    simp
  unfold Source.bodyLines at hLines hLines'
  rw [hOld, List.map_append, List.map_append] at hLines
  rw [hDocs, List.map_append, List.map_append] at hLines'
  have hFirst :
      ((contentsOf before).map (· ++ ['\n'])).length =
        fence.first + 1 := by
    rw [List.length_map, hRegion.first_eq]
  have hStop :
      ((contentsOf before).map (· ++ ['\n']) ++
          (contentsOf region).map (· ++ ['\n'])).length =
        fence.contentStop := by
    rw [← List.map_append, List.length_map,
      List.length_append, hRegion.first_eq]
    exact hRegion.stop_eq
  have hFeed : ∀ content ∈ contents, '\n' ∉ content := by
    intro content hMem
    apply Source.not_mem_content_of_ofText hNext
    rw [hDocs]
    simp [hMem]
  rcases find?_marked_of_replaced hEnded hEnded' hFind
      hOpening
      (not_mem_info_of_find? hRead hFind hOpening) hLines
      hLines' hFirst hStop hFeed hOpen with
    ⟨fence', hFind', hFirst', hStop'⟩
  have hFilled' : fence'.filled = true := by
    unfold Fence.filled
    have hLength := List.length_pos_iff.mpr hNe
    rw [decide_eq_true_eq, hFirst', hStop']
    omega
  rw [locate?_of_find?_marked hEnded' hFind' hFilled']
  unfold contentSpan
  rw [Source.rawLines_body hNext, hFirst', hStop']

theorem locate?_respelled
    {opening : FenceOpening}
    (hOpening :
      (documentFrame source.body).fenceOpening?
          fence.first =
        some opening)
    {before region after : List Line}
    (hRegion :
      IsRegion source (fence.first + 1) fence.contentStop
        before region after)
    {contents : List Text}
    (hNe : contents ≠ [])
    (hReturn : ∀ content ∈ contents, '\r' ∉ content)
    (hOpen :
      ∀ content ∈ contents,
        ¬ IsClosingLine opening.mark opening.length content)
    {script' : Text}
    {next : Source}
    (hNext : Source.ofText script' = .ok next)
    (hDocs :
      next.docContents =
        contentsOf before ++ contents ++ contentsOf after) :
    locate? manifestInfo next.body =
      some
        (lineSpan next.bodyLines (fence.first + 1)
          (fence.first + 1 + contents.length)) := by
  apply locate?_replaced hRead hFind hOpening hRegion hNe
    _ hNext hDocs
  intro content hMem
  rw [replaceChar_of_not_mem ' ' (hReturn content hMem)]
  exact hOpen content hMem

end Fenced

end Script

end ScriptWorkspace
