import Mathlib.Data.List.Chain
import ScriptWorkspace.Proofs.Script.Harvest

/-
  How a source that was read is laid out.

  The lines stand side by side and make up the script. The
  documentation lines are told by increasing indices, and
  each of them is its marker and its content. The contents,
  each followed by a line feed, are the body, and the offset
  at which each begins there tells its line, as no other
  offset does.

  Main declarations:
    * `DocText.Spells`
    * `Source.IsTiled`
    * `Source.IsIndexed`
    * `Source.HasBody`
    * `Source.source_is_laid_out`
-/

namespace ScriptWorkspace

namespace Script

open Text Markdown

------------------------------------------------------------
-- Documentation Lines
------------------------------------------------------------

/-
  The parts make up the text of a documentation line: the
  marker ends with the token and spaces, and all spaces
  behind the token belong to it.
-/
structure DocText.Spells
    (doc : DocText)
    (text : Text) : Prop where
  append_eq : doc.marker ++ doc.content = text
  marker_eq :
    ∃ indent count,
      doc.marker =
        indent ++ docToken ++ List.replicate count ' '
  content_ne : doc.content.head? ≠ some ' '

theorem DocText.spells_of_ofLine?
    {text : Text}
    {doc : DocText}
    (hDoc : DocText.ofLine? text = some doc) :
    doc.Spells text := by
  rcases DocText.exists_of_ofLine? hDoc with
    ⟨rest, hText, _⟩
  have hIndent :
      ∀ c ∈ text.indentation, isBlank c = true := by
    intro c hMem
    exact isBlank_of_mem_indentation hMem
  have hRead := DocText.ofLine?_docLine hIndent rest
  rw [← hText, hDoc, Option.some.injEq] at hRead
  have hSpaces :
      rest.takeWhile (· == ' ') =
        List.replicate (rest.takeWhile (· == ' ')).length
          ' ' := by
    apply List.eq_replicate_of_mem
    intro c hMem
    have hAll :=
      List.all_eq_true.mp
        List.all_takeWhile c hMem
    simpa using hAll
  constructor
  · rw [hRead, List.append_assoc,
      List.takeWhile_append_dropWhile]
    exact hText.symm
  · refine
      ⟨text.indentation,
        (rest.takeWhile (· == ' ')).length, ?_⟩
    rw [hRead, ← hSpaces]
  · have hHead :=
      List.head?_dropWhile_not (· == ' ') rest
    rw [hRead]
    intro hSpace
    simp [hSpace] at hHead

------------------------------------------------------------
-- Lines Side By Side
------------------------------------------------------------

/- A line that ends with a line feed has a terminator. -/
theorem terminator_ne_of_endedLine
    {raw : Text}
    (hEnded : EndedLine raw) :
    (splitTerminator raw).2 ≠ .none := by
  intro hNone
  have hFree := not_mem_of_splitTerminator hEnded.isLine
  have hParts := splitTerminator_append raw
  rcases hEnded with ⟨body, _, hRaw⟩
  rw [hNone, Terminator.toText, List.append_nil] at hParts
  rw [hParts, hRaw] at hFree
  simp at hFree

theorem isChain_placeLines
    (start : Nat)
    (raws : List Text) :
    (placeLines start raws).IsChain
      fun line next => next.start = line.stop := by
  induction raws generalizing start with
  | nil => exact .nil
  | cons raw raws ih =>
      cases raws with
      | nil => exact .singleton _
      | cons next raws =>
          refine .cons_cons ?_ (ih _)
          simp only [Line.stop, Line.raw,
            splitTerminator_append]

namespace Source

/-
  The lines stand side by side, from the beginning of the
  script to its end. Only the last one may lack a terminator.
-/
structure IsTiled
    (script : Text)
    (source : Source) : Prop where
  first :
    ∀ line ∈ source.lines.head?, line.start = 0
  next :
    source.lines.IsChain fun line next =>
      next.start = line.stop
  render_eq : source.render = script
  free : ∀ line ∈ source.lines, '\n' ∉ line.text
  ended :
    ∀ line ∈ source.lines.dropLast,
      line.terminator ≠ .none

variable {script : Text} {source : Source}

/- All but the marks of the lines are as in the script. -/
theorem map_lines_of_ofText
    {α : Type}
    (view : Line → α)
    (hView :
      ∀ line doc, view { line with doc } = view line)
    (hRead : ofText script = .ok source) :
    source.lines.map view =
      (Line.splitText script).map view := by
  rw [(of_ofText hRead).2.1, map_markedLines hView]

theorem isTiled_of_ofText
    (hRead : ofText script = .ok source) :
    source.IsTiled script := by
  have hRaws := map_raw_of_ofText hRead
  constructor
  · intro line hLine
    have hStarts :=
      congrArg List.head?
        (map_lines_of_ofText Line.start (fun _ _ => rfl)
          hRead)
    rw [List.head?_map, Option.mem_def.mp hLine,
      List.head?_map] at hStarts
    unfold Line.splitText at hStarts
    cases hScript : rawLines script with
    | nil =>
        rw [hScript] at hStarts
        cases hStarts
    | cons raw raws =>
        rw [hScript] at hStarts
        exact Option.some.inj hStarts
  · have hPlaces :=
      map_lines_of_ofText
        (fun line => (line.start, line.stop))
        (fun _ _ => rfl) hRead
    have hChain := isChain_placeLines 0 (rawLines script)
    rw [← List.isChain_map
      (R := fun (place next : Nat × Nat) =>
        next.1 = place.2)
      (fun line : Line => (line.start, line.stop))]
      at hChain ⊢
    rw [hPlaces]
    exact hChain
  · unfold render
    rw [List.flatMap_def, hRaws, flatten_rawLines]
  · intro line hMem
    exact not_mem_text_of_ofText hRead hMem
  · intro line hMem
    have hLines := areLines_map_raw hRead
    have hNe : source.lines ≠ [] := by
      intro hNil
      rw [hNil] at hMem
      cases hMem
    rw [← List.dropLast_append_getLast hNe, List.map_append,
      areLines_append_iff _ (by simp)] at hLines
    have hEnded :=
      hLines.1 line.raw (List.mem_map_of_mem hMem)
    have hSplit :=
      isSplit_of_ofText hRead
        (List.dropLast_subset _ hMem)
    have hTerminator := terminator_ne_of_endedLine hEnded
    rw [hSplit] at hTerminator
    exact hTerminator

------------------------------------------------------------
-- Indices Of Documentation Lines
------------------------------------------------------------

theorem mem_docIndicesFrom_cons
    (start : Nat)
    (line : Line)
    (lines : List Line)
    (index : Nat) :
    index ∈ docIndicesFrom start (line :: lines) ↔
      (line.isDoc = true ∧ index = start) ∨
        index ∈ docIndicesFrom (start + 1) lines := by
  cases hDoc : line.isDoc <;> simp [docIndicesFrom, hDoc]

/- Each index is that of a documentation line. -/
theorem mem_docIndicesFrom_iff
    (start : Nat)
    (lines : List Line)
    (index : Nat) :
    index ∈ docIndicesFrom start lines ↔
      start ≤ index ∧
        ∃ line,
          lines[index - start]? = some line ∧
            line.isDoc = true := by
  induction lines generalizing start with
  | nil => simp [docIndicesFrom]
  | cons first lines ih =>
      rw [mem_docIndicesFrom_cons, ih (start + 1)]
      constructor
      · rintro (⟨hDoc, rfl⟩ | ⟨hLe, line, hLine, hDoc⟩)
        · exact ⟨Nat.le_refl _, first, by simp, hDoc⟩
        · have hNext :
              index - start = index - (start + 1) + 1 := by
            omega
          refine ⟨Nat.le_of_succ_le hLe, line, ?_, hDoc⟩
          rw [hNext, List.getElem?_cons_succ]
          exact hLine
      · rintro ⟨hLe, line, hLine, hDoc⟩
        rcases Nat.eq_or_lt_of_le hLe with rfl | hLt
        · rw [Nat.sub_self, List.getElem?_cons_zero] at hLine
          rw [Option.some.inj hLine]
          exact Or.inl ⟨hDoc, rfl⟩
        · have hNext :
              index - start = index - (start + 1) + 1 := by
            omega
          rw [hNext, List.getElem?_cons_succ] at hLine
          exact Or.inr ⟨hLt, line, hLine, hDoc⟩

theorem pairwise_docIndicesFrom
    (start : Nat)
    (lines : List Line) :
    (docIndicesFrom start lines).Pairwise (· < ·) := by
  induction lines generalizing start with
  | nil => exact .nil
  | cons line lines ih =>
      have hRest := ih (start + 1)
      unfold docIndicesFrom
      split
      · refine .cons ?_ hRest
        intro index hMem
        exact ((mem_docIndicesFrom_iff _ _ _).mp hMem).1
      · exact hRest

/-
  The indices tell the documentation lines in order. A line
  in front of the header is not among them.
-/
structure IsIndexed (source : Source) : Prop where
  ordered : source.docIndices.Pairwise (· < ·)
  mem_iff :
    ∀ index,
      index ∈ source.docIndices ↔
        ∃ line,
          source.lines[index]? = some line ∧
            line.isDoc = true
  shebang : source.shebang = true → 0 ∉ source.docIndices
  spells :
    ∀ line ∈ source.lines, ∀ doc,
      line.doc = some doc → doc.Spells line.text

theorem isIndexed_of_ofText
    (hRead : ofText script = .ok source) :
    source.IsIndexed := by
  have hMem :
      ∀ index,
        index ∈ source.docIndices ↔
          ∃ line,
            source.lines[index]? = some line ∧
              line.isDoc = true := by
    intro index
    simpa [docIndices] using
      mem_docIndicesFrom_iff 0 source.lines index
  refine ⟨pairwise_docIndicesFrom 0 _, hMem, ?_, ?_⟩
  · intro hShebang hZero
    rcases (hMem 0).mp hZero with ⟨line, hLine, hDoc⟩
    rw [(of_ofText hRead).2.2] at hShebang
    have hMark :
        (source.lines.map Line.doc)[0]? = some line.doc := by
      rw [List.getElem?_map, hLine, Option.map_some]
    rw [map_doc_of_ofText hRead, headerMarks, headerStart,
      if_pos hShebang] at hMark
    cases hTexts : lineTexts script with
    | nil =>
        rw [hTexts] at hShebang
        cases hShebang
    | cons first texts =>
        rw [hTexts] at hMark
        have hNone : line.doc = none :=
          (Option.some.inj hMark).symm
        rw [Line.isDoc, hNone] at hDoc
        cases hDoc
  · intro line hLine doc hDoc
    exact
      DocText.spells_of_ofLine?
        (ofLine?_of_ofText hRead hLine hDoc)

------------------------------------------------------------
-- The Body
------------------------------------------------------------

/- The content of the line of an index, if it has any. -/
def contentAt?
    (source : Source)
    (index : Nat) : Option Text := do
  let line ← source.lines[index]?
  let doc ← line.doc
  return doc.content

/-
  The contents of the documentation lines, in order, make up
  the body, and the offsets at which they begin there tell
  the lines. The last offset is the length of the body.
-/
structure HasBody
    (source : Source)
    (contents : List Text) : Prop where
  contents_eq :
    source.docIndices.map source.contentAt? =
      contents.map some
  body_eq : source.body = contents.flatMap (· ++ ['\n'])
  length_offsets :
    source.bodyOffsets.length =
      source.docIndices.length + 1
  offset_eq :
    ∀ number ≤ source.docIndices.length,
      source.bodyOffsets[number]? =
        some
          ((contents.take number).flatMap
            (· ++ ['\n'])).length
  last_offset :
    source.bodyOffsets.getLast? = some source.body.length
  ordered : source.bodyOffsets.Pairwise (· < ·)
  index_iff :
    ∀ (offset : Int) (number : Nat),
      source.docIndexAt? offset = some number ↔
        ∃ start : Nat,
          source.bodyOffsets[number]? = some start ∧
            offset = start
  index_none_iff :
    ∀ offset : Int,
      source.docIndexAt? offset = none ↔
        ∀ start ∈ source.bodyOffsets, offset ≠ start

theorem length_docIndices (source : Source) :
    source.docIndices.length = source.docContents.length :=
  length_docIndicesFrom 0 _

/- The contents are those of the lines that are told. -/
theorem map_contentAt?_docIndices (source : Source) :
    source.docIndices.map source.contentAt? =
      source.docContents.map some := by
  apply List.ext_getElem?
  intro number
  by_cases hNumber : number < source.docContents.length
  · rcases exists_split_of_lt_length hNumber with
      ⟨before, line, after, doc, hLines, hDoc, rfl⟩
    have hIndex := getElem?_docIndices hLines hDoc
    have hContent :
        source.docContents[(contentsOf before).length]? =
          some doc.content := by
      have hAll :
          source.docContents =
            contentsOf before ++
              doc.content :: contentsOf after := by
        rw [← contentsOf_cons_of_some hDoc,
          ← contentsOf_append, ← hLines]
        rfl
      simp [hAll]
    rw [List.getElem?_map, List.getElem?_map, hIndex, hContent]
    simp [contentAt?, hLines, hDoc]
  · have hPast : source.docContents.length ≤ number :=
      Nat.le_of_not_lt hNumber
    rw [List.getElem?_map, List.getElem?_map,
      List.getElem?_eq_none hPast,
      List.getElem?_eq_none
        (by rw [length_docIndices]; exact hPast)]
    rfl

/- The offset of a number is the length of what is before. -/
theorem lineOffset_bodyLines
    (source : Source)
    (number : Nat) :
    lineOffset source.bodyLines number =
      ((source.docContents.take number).flatMap
        (· ++ ['\n'])).length := by
  rw [lineOffset_eq_length, bodyLines, ← List.map_take,
    List.flatMap_def]

theorem pairwise_bodyOffsets (source : Source) :
    source.bodyOffsets.Pairwise (· < ·) := by
  have hLength := source.length_bodyOffsets
  rw [List.pairwise_iff_getElem]
  intro first second hFirst hSecond hLt
  have hAt :
      ∀ number (hNumber : number < source.bodyOffsets.length),
        source.bodyOffsets[number] =
          lineOffset source.bodyLines number := by
    intro number hNumber
    have hHere : source.bodyOffsets[number]? = _ :=
      getElem?_bodyOffsets (by omega)
    rw [List.getElem?_eq_getElem hNumber] at hHere
    exact Option.some.inj hHere
  rw [hAt first hFirst, hAt second hSecond]
  exact lineOffset_bodyLines_lt hLt (by omega)

/- An offset tells a number if it is the one of the number. -/
theorem docIndexAt?_eq_some_iff
    (source : Source)
    (offset : Int)
    (number : Nat) :
    source.docIndexAt? offset = some number ↔
      ∃ start : Nat,
        source.bodyOffsets[number]? = some start ∧
          offset = start := by
  constructor
  · intro hIndex
    unfold docIndexAt? at hIndex
    rcases List.findIdx?_eq_some_iff_getElem.mp hIndex with
      ⟨hBound, hHere, _⟩
    exact
      ⟨source.bodyOffsets[number],
        List.getElem?_eq_getElem hBound, by simpa using hHere⟩
  · rintro ⟨start, hStart, rfl⟩
    have hLength := source.length_bodyOffsets
    rcases List.getElem?_eq_some_iff.mp hStart with
      ⟨hBound, _⟩
    have hNumber : number ≤ source.docContents.length := by
      omega
    rw [getElem?_bodyOffsets hNumber] at hStart
    rw [← Option.some.inj hStart]
    exact docIndexAt?_lineOffset hNumber

theorem docIndexAt?_eq_none_iff
    (source : Source)
    (offset : Int) :
    source.docIndexAt? offset = none ↔
      ∀ start ∈ source.bodyOffsets, offset ≠ start := by
  unfold docIndexAt?
  simp [List.findIdx?_eq_none_iff]

theorem hasBody_docContents (source : Source) :
    source.HasBody source.docContents := by
  have hIndices := source.length_docIndices
  have hLength := source.length_bodyOffsets
  refine
    { contents_eq := source.map_contentAt?_docIndices
      body_eq := rfl
      length_offsets := by rw [hLength, hIndices]
      offset_eq := ?_
      last_offset := ?_
      ordered := source.pairwise_bodyOffsets
      index_iff := source.docIndexAt?_eq_some_iff
      index_none_iff := source.docIndexAt?_eq_none_iff }
  · intro number hNumber
    rw [hIndices] at hNumber
    rw [getElem?_bodyOffsets hNumber, lineOffset_bodyLines]
  · rw [List.getLast?_eq_getElem?, hLength,
      Nat.add_sub_cancel, getElem?_bodyOffsets (Nat.le_refl _),
      lineOffset_bodyLines, List.take_length]
    rfl

/-
  A source that was read is laid out well: its lines make up
  the script, its indices tell the documentation lines, and
  their contents are the body, with an offset for each. The
  indices, the body and the offsets are also those that are
  gathered while the lines are read.
-/
theorem source_is_laid_out
    (hRead : ofText script = .ok source) :
    source.IsTiled script ∧ source.IsIndexed ∧
      (∃ contents, source.HasBody contents) ∧
      harvest script = .ok (.ofSource source) := by
  refine
    ⟨isTiled_of_ofText hRead, isIndexed_of_ofText hRead,
      ⟨source.docContents, source.hasBody_docContents⟩, ?_⟩
  rw [harvest_eq, hRead]
  rfl

/-
  An interpreter line, documentation with either terminator,
  a comment over two lines, and a last line that is not
  ended.
-/
def mixedScript : Text :=
  "#!run\n //!  a\r\n/* b\n//! c */\n//!d"

/- The source that it is read as. -/
def mixedSource : Source :=
  { lines :=
      [⟨"#!run", .lineFeed, 0, none⟩,
        ⟨" //!  a", .carriageReturnLineFeed, 6,
          some ⟨" //!  ", "a"⟩⟩,
        ⟨"/* b", .lineFeed, 15, none⟩,
        ⟨"//! c */", .lineFeed, 20, none⟩,
        ⟨"//!d", .none, 29, some ⟨"//!", "d"⟩⟩]
    shebang := true }

theorem source_is_laid_out_mixed :
    ofText mixedScript = .ok mixedSource ∧
      mixedSource.IsTiled mixedScript ∧
      mixedSource.IsIndexed ∧
      (∃ contents, mixedSource.HasBody contents) ∧
      harvest mixedScript = .ok (.ofSource mixedSource) := by
  have hRead : ofText mixedScript = .ok mixedSource := by
    decide +kernel
  exact ⟨hRead, source_is_laid_out hRead⟩

end Source

end Script

end ScriptWorkspace
