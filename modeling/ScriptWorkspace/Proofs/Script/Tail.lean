import ScriptWorkspace.Proofs.Script.Locality

/-
  What follows the header of a script.

  The first line of code ends the header, and no line behind
  it is documentation. So the body of the comment is that of
  the lines up to there, the manifest has the same place for
  every tail, and the lines of the tail follow unchanged what
  is written in front of them.

  Main declarations:
    * `scanLines_append`
    * `PassesHeader`
    * `PassesHeader.exists_ofText_append`
    * `IsManifestRegion.append`
    * `tail_does_not_matter`
-/

namespace ScriptWorkspace

------------------------------------------------------------
-- Texts With A Tail
------------------------------------------------------------

namespace Text

theorem rawLines_flatten_append
    {lines : List Text}
    (hEnded : ∀ line ∈ lines, EndedLine line)
    (tail : Text) :
    rawLines (lines.flatten ++ tail) =
      lines ++ rawLines tail := by
  induction lines with
  | nil => rfl
  | cons line lines ih =>
      rcases hEnded line List.mem_cons_self with
        ⟨body, hBody, rfl⟩
      have hRest :=
        ih fun other hMem =>
          hEnded other (List.mem_cons_of_mem _ hMem)
      rw [List.flatten_cons, List.append_assoc,
        List.append_assoc, List.singleton_append,
        rawLines_ended_append hBody, hRest,
        List.cons_append]

/- Whole lines in front of a text are lines with it. -/
theorem rawLines_append
    {head : Text}
    (hEnds : head.endsWith ['\n'] = true)
    (tail : Text) :
    rawLines (head ++ tail) =
      rawLines head ++ rawLines tail := by
  have hLines :=
    rawLines_flatten_append
      (forall_ended_of_endsWith hEnds) tail
  rwa [flatten_rawLines] at hLines

end Text

namespace Script

open Text Markdown

------------------------------------------------------------
-- Lines With A Tail
------------------------------------------------------------

theorem placeLines_append
    (start : Nat)
    (front back : List Text) :
    placeLines start (front ++ back) =
      placeLines start front ++
        placeLines (start + front.flatten.length) back := by
  induction front generalizing start with
  | nil => rfl
  | cons raw front ih =>
      simp only [List.cons_append, placeLines, ih,
        List.flatten_cons, List.length_append,
        Nat.add_assoc]

/- The scan goes on in the state in which it has ended. -/
theorem scanLines_append
    (state : HeaderState)
    (index : Nat)
    (front back : List Line) :
    scanLines state index (front ++ back) =
      ((scanLines state index front).1 ++
          (scanLines (scanLines state index front).2
            (index + front.length) back).1,
        (scanLines (scanLines state index front).2
          (index + front.length) back).2) := by
  induction front generalizing state index with
  | nil => rfl
  | cons line front ih =>
      have hShift :
          index + 1 + front.length =
            index + (front.length + 1) := by
        omega
      simp only [List.cons_append, scanLines, ih,
        List.length_cons, hShift]

/- Behind the header nothing is documentation. -/
theorem scanLines_code
    (index : Nat)
    (lines : List Line) :
    contentsOf (scanLines .code index lines).1 = [] ∧
      (scanLines .code index lines).2 = .code := by
  induction lines generalizing index with
  | nil => exact ⟨rfl, rfl⟩
  | cons line lines ih =>
      have hRest := ih (index + 1)
      simp only [scanLines, HeaderState.step]
      refine ⟨?_, hRest.2⟩
      rw [contentsOf_cons_of_none rfl]
      exact hRest.1

/- So the lines behind some that end the header are unmarked. -/
theorem exists_scanLines_append
    {state : HeaderState}
    {index : Nat}
    {front : List Line}
    (hCode : (scanLines state index front).2 = .code)
    (back : List Line) :
    (scanLines state index (front ++ back)).2 = .code ∧
      ∃ rest,
        (scanLines state index (front ++ back)).1 =
            (scanLines state index front).1 ++ rest ∧
          contentsOf rest = [] ∧
          rest.map Line.raw = back.map Line.raw := by
  have hBack := scanLines_code (index + front.length) back
  rw [scanLines_append, hCode]
  refine ⟨hBack.2, _, rfl, hBack.1, ?_⟩
  exact map_scanLines (fun _ _ => rfl) _ _ _

/- Ended lines are joined as they are, whatever follows. -/
theorem joinLines_append_of_endsWith
    (newline : Text)
    {front : List Text}
    (hEnds :
      ∀ line ∈ front, line.endsWith ['\n'] = true)
    {back : List Text}
    (hBack : AreLines back) :
    joinLines newline (front ++ back) =
      joinLines newline front ++ back.flatten := by
  have hFront :=
    endLines_append_of_endsWith newline hEnds []
  rw [List.append_nil] at hFront
  rw [joinLines_eq, joinLines_eq,
    endLines_append_of_endsWith newline hEnds, hFront,
    endLines_of_areLines newline hBack,
    List.flatten_append]
  simp [endLines]

theorem IsRegion.respelled_append
    (anchor : Line)
    (before region after rest : List Line)
    (contents : List Text) :
    respelled anchor before region (after ++ rest)
        contents =
      respelled anchor before region after contents ++
        rest.map Line.raw := by
  unfold respelled
  rw [List.map_append]
  simp only [List.append_assoc]

/- New contents leave ended lines ended. -/
theorem IsRegion.endsWith_of_mem_respelled
    {source : Source}
    {first stop : Nat}
    {before region after : List Line}
    (hRegion :
      IsRegion source first stop before region after)
    (hEnds :
      ∀ line ∈ source.lines,
        line.raw.endsWith ['\n'] = true)
    (anchor : Line)
    (contents : List Text) :
    ∀ raw ∈ respelled anchor before region after contents,
      raw.endsWith ['\n'] = true := by
  rw [hRegion.lines_eq] at hEnds
  intro raw hMem
  unfold respelled at hMem
  rw [List.mem_append, List.mem_append] at hMem
  rcases hMem with (hBefore | hMiddle) | hAfter
  · rcases List.mem_map.mp hBefore with ⟨line, hLine, rfl⟩
    apply hEnds
    simp [hLine]
  · rcases mem_respell hMiddle with
      ⟨line, hLine, _, rfl⟩ |
      ⟨line, hLine, _, _, _, rfl⟩ |
      ⟨content, _, rfl⟩
    · apply hEnds
      simp [hLine]
    · apply hEnds
      simp [hLine]
    · exact renderDoc_endsWith anchor content
  · rcases List.mem_map.mp hAfter with ⟨line, hLine, rfl⟩
    apply hEnds
    simp [hLine]

------------------------------------------------------------
-- Heads
------------------------------------------------------------

/-
  A beginning of a script that is made of whole lines, one of
  which is code and so has ended the header.
-/
structure PassesHeader (head : Text) : Prop where
  ended : head.endsWith ['\n'] = true
  code : Source.lastState head = .code

namespace PassesHeader

variable {head : Text} (hPasses : PassesHeader head)

include hPasses

theorem lineTexts_append (tail : Text) :
    lineTexts (head ++ tail) =
      lineTexts head ++ lineTexts tail := by
  unfold lineTexts
  rw [rawLines_append hPasses.ended, List.map_append]

theorem lineTexts_ne_nil : lineTexts head ≠ [] := by
  unfold lineTexts
  intro hNil
  rw [List.map_eq_nil_iff] at hNil
  have hHead := flatten_rawLines head
  rw [hNil] at hHead
  have hEnded := hPasses.ended
  rw [← hHead] at hEnded
  exact absurd hEnded (by decide)

/- The scan marks the head as it does without the tail. -/
theorem exists_markedLines_append (tail : Text) :
    Source.lastState (head ++ tail) = .code ∧
      ∃ rest,
        Source.markedLines (head ++ tail) =
            Source.markedLines head ++ rest ∧
          contentsOf rest = [] ∧
          rest.map Line.raw = rawLines tail := by
  have hCode := hPasses.code
  have hStart :=
    headerStart_append hPasses.lineTexts_ne_nil
      (lineTexts tail)
  have hLe :
      headerStart (lineTexts head) ≤
        (Line.splitText head).length := by
    rw [Source.length_splitText]
    exact headerStart_le_length hPasses.lineTexts_ne_nil
  have hSplit :
      Line.splitText (head ++ tail) =
        Line.splitText head ++
          placeLines (0 + (rawLines head).flatten.length)
            (rawLines tail) := by
    unfold Line.splitText
    rw [rawLines_append hPasses.ended, placeLines_append]
  simp only [Source.lastState] at hCode
  rcases exists_scanLines_append hCode
      (placeLines (0 + (rawLines head).flatten.length)
        (rawLines tail)) with
    ⟨hLast, rest, hMarked, hRest, hRaw⟩
  rw [map_raw_placeLines] at hRaw
  simp only [Source.lastState, Source.markedLines]
  rw [hPasses.lineTexts_append, hStart, hSplit,
    List.drop_append_of_le_length hLe,
    List.take_append_of_le_length hLe]
  refine ⟨hLast, rest, ?_, hRest, hRaw⟩
  rw [hMarked, List.append_assoc]

/- With a tail more lines are read, and nothing is marked. -/
theorem exists_ofText_append :
    ∃ source,
      Source.ofText head = .ok source ∧
        ∀ tail,
          ∃ other rest,
            Source.ofText (head ++ tail) = .ok other ∧
              other.lines = source.lines ++ rest ∧
              contentsOf rest = [] ∧
              rest.map Line.raw = rawLines tail := by
  have hHead := Source.ofText_eq head
  rw [hPasses.code] at hHead
  refine ⟨_, hHead, ?_⟩
  intro tail
  rcases hPasses.exists_markedLines_append tail with
    ⟨hCode, rest, hMarked, hRest, hRaw⟩
  have hRead := Source.ofText_eq (head ++ tail)
  rw [hCode] at hRead
  exact ⟨_, rest, hRead, hMarked, hRest, hRaw⟩

end PassesHeader

------------------------------------------------------------
-- Sources With A Tail
------------------------------------------------------------

section Tail

variable {source other : Source} {rest : List Line}
variable (hLines : other.lines = source.lines ++ rest)

include hLines

theorem Source.docContents_append
    (hRest : contentsOf rest = []) :
    other.docContents = source.docContents := by
  change contentsOf other.lines = contentsOf source.lines
  rw [hLines, contentsOf_append, hRest, List.append_nil]

theorem Source.docLine?_append
    {number : Nat}
    {line : Line}
    (hLine : source.docLine? number = some line) :
    other.docLine? number = some line := by
  unfold docLine? docIndices at hLine ⊢
  rcases Option.bind_eq_some_iff.mp hLine with
    ⟨index, hIndex, hAt⟩
  apply Option.bind_eq_some_iff.mpr
  refine ⟨index, ?_, ?_⟩
  · rcases List.getElem?_eq_some_iff.mp hIndex with
      ⟨hBound, _⟩
    rw [hLines, docIndicesFrom_append,
      List.getElem?_append_left hBound]
    exact hIndex
  · rcases List.getElem?_eq_some_iff.mp hAt with ⟨hBound, _⟩
    rw [hLines, List.getElem?_append_left hBound]
    exact hAt

/- The manifest stays where it is. -/
theorem IsManifestRegion.append
    {first stop : Nat}
    {anchor : Line}
    {before region after : List Line}
    (hRegion :
      IsManifestRegion source first stop anchor before
        region after)
    (hRest : contentsOf rest = []) :
    IsManifestRegion other first stop anchor before region
      (after ++ rest) := by
  have hContents := Source.docContents_append hLines hRest
  exact
    { lines_eq := by
        rw [hLines, hRegion.lines_eq, List.append_assoc]
      first_eq := hRegion.first_eq
      stop_eq := hRegion.stop_eq
      starts := hRegion.starts
      ends := hRegion.ends
      located :=
        Source.located_congr hContents hRegion.located
      first_pos := hRegion.first_pos
      anchor_eq :=
        Source.docLine?_append hLines hRegion.anchor_eq
      anchor_mem := hRegion.anchor_mem }

end Tail

------------------------------------------------------------
-- Scripts With A Tail
------------------------------------------------------------

namespace PassesHeader

variable {head : Text} (hPasses : PassesHeader head)

include hPasses

/- The manifest that is read is in the head. -/
theorem extract_append (tail : Text) :
    extract (head ++ tail) = extract head := by
  rcases hPasses.exists_ofText_append with
    ⟨source, hHead, hAll⟩
  rcases hAll tail with
    ⟨other, rest, hRead, hLines, hRest, _⟩
  exact
    extract_congr hHead hRead
      (Source.docContents_append hLines hRest)

/- What is written in its place is in front of the tail. -/
theorem replace_append
    (tail manifest : Text) :
    replace (head ++ tail) manifest =
      (replace head manifest).map fun result =>
        (result.1 ++ tail, result.2) := by
  have hSame := hPasses.extract_append tail
  cases hExtract : extract head with
  | error fault =>
      rw [hExtract] at hSame
      rw [(replace_of_extract_eq_error hSame manifest).1,
        (replace_of_extract_eq_error hExtract manifest).1]
      rfl
  | ok found =>
      rcases exists_isManifestRegion hExtract with
        ⟨source, first, stop, anchor, before, region, after,
          hHead, hRegion, _⟩
      rcases hPasses.exists_ofText_append with
        ⟨source', hHead', hAll⟩
      rw [hHead, Except.ok.injEq] at hHead'
      rw [← hHead'] at hAll
      rcases hAll tail with
        ⟨other, rest, hRead, hLines, hRest, hRaw⟩
      have hTail := hRegion.append hLines hRest
      have hEnds :
          ∀ line ∈ source.lines,
            line.raw.endsWith ['\n'] = true := by
        intro line hMem
        apply EndedLine.endsWith
        apply forall_ended_of_endsWith hPasses.ended
        rw [← Source.map_raw_of_ofText hHead]
        exact List.mem_map_of_mem hMem
      have hJoined :=
        joinLines_append_of_endsWith anchor.newline
          (hRegion.toIsRegion.endsWith_of_mem_respelled hEnds
            anchor (manifestLines (terminated manifest)))
          (areLines_rawLines tail)
      rw [flatten_rawLines] at hJoined
      rw [replace_eq hHead hRegion.located hRegion.toIsRegion
          hRegion.anchor_eq manifest,
        replace_eq hRead hTail.located hTail.toIsRegion
          hTail.anchor_eq manifest]
      rw [IsRegion.respelled_append, hRaw, hJoined]
      rfl

end PassesHeader

/-
  Behind the line that ends the header of a script anything
  may follow. It neither changes the manifest that is read
  nor the fault with which reading fails; and replacing the
  manifest either fails with one fault, or it writes one text
  in front of whatever follows.
-/
theorem tail_does_not_matter
    {head : Text}
    (hPasses : PassesHeader head)
    (manifest : Text) :
    (∀ tail other,
        extract (head ++ tail) = extract (head ++ other)) ∧
      ((∃ fault, ∀ tail,
          replace (head ++ tail) manifest = .error fault) ∨
        ∃ replaced old, ∀ tail,
          replace (head ++ tail) manifest =
            .ok (replaced ++ tail, old)) := by
  constructor
  · intro tail other
    rw [hPasses.extract_append, hPasses.extract_append]
  · cases hReplace : replace head manifest with
    | error fault =>
        refine .inl ⟨fault, ?_⟩
        intro tail
        rw [hPasses.replace_append, hReplace]
        rfl
    | ok result =>
        refine .inr ⟨result.1, result.2, ?_⟩
        intro tail
        rw [hPasses.replace_append, hReplace]
        rfl

/- A manifest, and a line of code behind it. -/
def codeHead : Text :=
  "//! ```cargo\n//! a = 1\n//! ```\nfn main() {}\n"

/- A block in the tail is neither read nor replaced. -/
theorem tail_does_not_matter_second_block :
    PassesHeader codeHead ∧
      extract
          (codeHead ++ "//! ```cargo\n//! a = 2\n//! ```\n") =
        .ok "a = 1\n" ∧
      replace
          (codeHead ++ "//! ```cargo\n//! a = 2\n//! ```\n")
          "a = 3" =
        .ok
          ("//! ```cargo\n//! a = 3\n//! ```\nfn main() {}\n" ++
              "//! ```cargo\n//! a = 2\n//! ```\n",
            "a = 1\n") := by
  have hPasses : PassesHeader codeHead :=
    ⟨by decide, by decide +kernel⟩
  have hExtract : extract (codeHead ++ []) = .ok "a = 1\n" := by
    decide +kernel
  have hReplace :
      replace (codeHead ++ []) "a = 3" =
        .ok
          ("//! ```cargo\n//! a = 3\n//! ```\nfn main() {}\n",
            "a = 1\n") := by
    decide +kernel
  rcases tail_does_not_matter hPasses "a = 3" with
    ⟨hSame, ⟨fault, hFault⟩ | ⟨replaced, old, hAll⟩⟩
  · rw [hFault []] at hReplace
    exact absurd hReplace (by simp)
  · rw [hAll [], List.append_nil, Except.ok.injEq,
      Prod.mk.injEq] at hReplace
    refine ⟨hPasses, (hSame _ []).trans hExtract, ?_⟩
    rw [hAll, hReplace.1, hReplace.2]

end Script

end ScriptWorkspace
