import ScriptWorkspace.Proofs.Script.Scan
import ScriptWorkspace.Proofs.Markdown.Offsets

/-
  The documentation lines of a source, and the body that
  their contents make.

  A documentation line has three places: its index among the
  lines of the source, its number among the documentation
  lines, and its offset in the body. Cutting the lines at a
  documentation line, the contents before it are as many as
  its number says, and the offset of its number in the body
  leads back to it.

  Main declarations:
    * `contentsOf`
    * `exists_split_of_lt_length`
    * `Source.getElem?_docIndices`
    * `Source.docIndexAt?_lineOffset`
    * `Source.rawLines_body`
-/

namespace ScriptWorkspace

namespace Script

open Text Markdown

------------------------------------------------------------
-- Contents
------------------------------------------------------------

/- The contents of the documentation lines among some. -/
def contentsOf (lines : List Line) : List Text :=
  lines.filterMap fun line => line.doc.map DocText.content

@[simp] theorem contentsOf_nil : contentsOf [] = [] := rfl

@[simp] theorem contentsOf_append
    (before after : List Line) :
    contentsOf (before ++ after) =
      contentsOf before ++ contentsOf after :=
  List.filterMap_append

theorem contentsOf_cons_of_none
    {line : Line}
    (hDoc : line.doc = none)
    (lines : List Line) :
    contentsOf (line :: lines) = contentsOf lines := by
  simp [contentsOf, hDoc]

theorem contentsOf_cons_of_some
    {line : Line}
    {doc : DocText}
    (hDoc : line.doc = some doc)
    (lines : List Line) :
    contentsOf (line :: lines) =
      doc.content :: contentsOf lines := by
  simp [contentsOf, hDoc]

/- The contents depend on the marks alone. -/
theorem contentsOf_eq_filterMap
    (lines : List Line) :
    contentsOf lines =
      (lines.map Line.doc).filterMap
        (Option.map DocText.content) := by
  simp [contentsOf, List.filterMap_map]

/-
  Each number below that of the contents belongs to a
  documentation line, with as many contents before it.
-/
theorem exists_split_of_lt_length
    {lines : List Line}
    {number : Nat}
    (hNumber : number < (contentsOf lines).length) :
    ∃ before line after doc,
      lines = before ++ line :: after ∧
        line.doc = some doc ∧
        (contentsOf before).length = number := by
  induction lines generalizing number with
  | nil => simp at hNumber
  | cons first lines ih =>
      cases hDoc : first.doc with
      | none =>
          rw [contentsOf_cons_of_none hDoc] at hNumber
          rcases ih hNumber with
            ⟨before, line, after, doc, rfl, hLine, hCount⟩
          exact
            ⟨first :: before, line, after, doc, rfl, hLine,
              by rw [contentsOf_cons_of_none hDoc, hCount]⟩
      | some doc =>
          rw [contentsOf_cons_of_some hDoc,
            List.length_cons] at hNumber
          cases number with
          | zero =>
              exact ⟨[], first, lines, doc, rfl, hDoc, rfl⟩
          | succ number =>
              rcases ih (Nat.lt_of_succ_lt_succ hNumber) with
                ⟨before, line, after, lineDoc, rfl, hLine,
                  hCount⟩
              exact
                ⟨first :: before, line, after, lineDoc, rfl,
                  hLine,
                  by rw [contentsOf_cons_of_some hDoc,
                    List.length_cons, hCount]⟩

------------------------------------------------------------
-- Indices
------------------------------------------------------------

namespace Source

theorem docIndicesFrom_append
    (index : Nat)
    (before after : List Line) :
    docIndicesFrom index (before ++ after) =
      docIndicesFrom index before ++
        docIndicesFrom (index + before.length) after := by
  induction before generalizing index with
  | nil => rfl
  | cons line before ih =>
      have hShift :
          index + 1 + before.length =
            index + (before.length + 1) := by
        omega
      cases hDoc : line.isDoc <;>
        simp [docIndicesFrom, hDoc, ih, hShift]

theorem length_docIndicesFrom
    (index : Nat)
    (lines : List Line) :
    (docIndicesFrom index lines).length =
      (contentsOf lines).length := by
  induction lines generalizing index with
  | nil => rfl
  | cons line lines ih =>
      cases hDoc : line.doc <;>
        simp [docIndicesFrom, contentsOf, Line.isDoc, hDoc,
          ih]

/- The index of a documentation line, by its number. -/
theorem getElem?_docIndices
    {source : Source}
    {before after : List Line}
    {line : Line}
    {doc : DocText}
    (hLines : source.lines = before ++ line :: after)
    (hDoc : line.doc = some doc) :
    source.docIndices[(contentsOf before).length]? =
      some before.length := by
  unfold docIndices
  rw [hLines, docIndicesFrom_append,
    ← length_docIndicesFrom 0, List.getElem?_append_right
      (Nat.le_refl _)]
  simp [docIndicesFrom, Line.isDoc, hDoc]

theorem docLine?_eq_some
    {source : Source}
    {before after : List Line}
    {line : Line}
    {doc : DocText}
    (hLines : source.lines = before ++ line :: after)
    (hDoc : line.doc = some doc) :
    source.docLine? (contentsOf before).length =
      some line := by
  unfold docLine?
  rw [getElem?_docIndices hLines hDoc]
  simp [hLines]

theorem mem_lines_of_docLine?
    {source : Source}
    {number : Nat}
    {line : Line}
    (hLine : source.docLine? number = some line) :
    line ∈ source.lines := by
  unfold docLine? at hLine
  rcases Option.bind_eq_some_iff.mp hLine with
    ⟨index, _, hIndex⟩
  exact List.mem_of_getElem? hIndex

------------------------------------------------------------
-- Offsets
------------------------------------------------------------

/- The lines of the body: each content and a line feed. -/
def bodyLines (source : Source) : List Text :=
  source.docContents.map (· ++ ['\n'])

theorem flatten_bodyLines (source : Source) :
    source.bodyLines.flatten = source.body := by
  simp [bodyLines, body, List.flatMap_def]

theorem ne_nil_of_mem_bodyLines
    {source : Source}
    {line : Text}
    (hMem : line ∈ source.bodyLines) :
    line ≠ [] := by
  rcases List.mem_map.mp hMem with ⟨content, _, rfl⟩
  simp

theorem getElem?_offsetsFrom
    (offset : Nat)
    {contents : List Text}
    {number : Nat}
    (hNumber : number ≤ contents.length) :
    (offsetsFrom offset contents)[number]? =
      some
        (offset +
          lineOffset (contents.map (· ++ ['\n'])) number) := by
  induction contents generalizing offset number with
  | nil =>
      simp only [List.length_nil, Nat.le_zero_eq] at hNumber
      simp [offsetsFrom, hNumber, lineOffset]
  | cons content contents ih =>
      cases number with
      | zero => simp [offsetsFrom, lineOffset]
      | succ number =>
          simp only [offsetsFrom, List.getElem?_cons_succ,
            List.map_cons, lineOffset_cons_succ,
            List.length_append, List.length_singleton]
          rw [ih _ (by simpa using hNumber)]
          simp only [Option.some.injEq]
          omega

theorem length_offsetsFrom
    (offset : Nat)
    (contents : List Text) :
    (offsetsFrom offset contents).length =
      contents.length + 1 := by
  induction contents generalizing offset with
  | nil => rfl
  | cons content contents ih => simp [offsetsFrom, ih]

/- The offset of a number is the length of what is before. -/
theorem getElem?_bodyOffsets
    {source : Source}
    {number : Nat}
    (hNumber : number ≤ source.docContents.length) :
    source.bodyOffsets[number]? =
      some (lineOffset source.bodyLines number) := by
  simpa [bodyOffsets, bodyLines] using
    getElem?_offsetsFrom 0 hNumber

theorem length_bodyOffsets (source : Source) :
    source.bodyOffsets.length =
      source.docContents.length + 1 :=
  length_offsetsFrom 0 _

theorem lineOffset_bodyLines_lt
    {source : Source}
    {first second : Nat}
    (hLt : first < second)
    (hSecond : second ≤ source.docContents.length) :
    lineOffset source.bodyLines first <
      lineOffset source.bodyLines second :=
  lineOffset_lt (fun _ => ne_nil_of_mem_bodyLines) hLt
    (by simpa [bodyLines] using hSecond)

/- The offset of a number leads back to the number. -/
theorem docIndexAt?_lineOffset
    {source : Source}
    {number : Nat}
    (hNumber : number ≤ source.docContents.length) :
    source.docIndexAt?
        (lineOffset source.bodyLines number) =
      some number := by
  have hLength := source.length_bodyOffsets
  unfold docIndexAt?
  rw [List.findIdx?_eq_some_iff_getElem]
  refine ⟨by omega, ?_, ?_⟩
  · have hHere := getElem?_bodyOffsets hNumber
    rw [List.getElem?_eq_getElem (by omega)] at hHere
    simp [Option.some.inj hHere]
  · intro earlier hEarlier
    have hHere :=
      getElem?_bodyOffsets
        (Nat.le_trans (Nat.le_of_lt hEarlier) hNumber)
    rw [List.getElem?_eq_getElem (by omega)] at hHere
    have hLt := lineOffset_bodyLines_lt hEarlier hNumber
    simp only [Option.some.inj hHere, beq_iff_eq,
      Int.ofNat_eq_natCast]
    omega

------------------------------------------------------------
-- Contents Are Free Of Line Feeds
------------------------------------------------------------

/- A marked line is marked with its own parts. -/
theorem ofLine?_of_mem_scanLines
    {state : HeaderState}
    {index : Nat}
    {lines : List Line}
    {line : Line}
    {doc : DocText}
    (hMem : line ∈ (scanLines state index lines).1)
    (hDoc : line.doc = some doc) :
    DocText.ofLine? line.text = some doc := by
  induction lines generalizing state index with
  | nil => simp [scanLines] at hMem
  | cons first lines ih =>
      simp only [scanLines, List.mem_cons] at hMem
      rcases hMem with rfl | hMem
      · exact (HeaderState.of_step_eq_some hDoc).2
      · exact ih hMem

theorem ofLine?_of_mem_markedLines
    {script : Text}
    {line : Line}
    {doc : DocText}
    (hMem : line ∈ markedLines script)
    (hDoc : line.doc = some doc) :
    DocText.ofLine? line.text = some doc := by
  rcases List.mem_append.mp hMem with hTaken | hScanned
  · have hNone : line.doc = none := by
      have hIn :
          line.doc ∈
            (Line.splitText script).map Line.doc :=
        List.mem_map_of_mem (List.mem_of_mem_take hTaken)
      unfold Line.splitText at hIn
      rw [map_doc_placeLines] at hIn
      rcases List.mem_map.mp hIn with ⟨_, _, hEq⟩
      exact hEq.symm
    rw [hNone] at hDoc
    simp at hDoc
  · exact ofLine?_of_mem_scanLines hScanned hDoc

/- No text of a line holds a line feed. -/
theorem not_mem_text_of_mem_markedLines
    {script : Text}
    {line : Line}
    (hMem : line ∈ markedLines script) :
    '\n' ∉ line.text := by
  have hIn : line.text ∈ lineTexts script := by
    rw [← map_text_markedLines]
    exact List.mem_map_of_mem hMem
  rcases List.mem_map.mp hIn with ⟨raw, hRaw, hText⟩
  rw [← hText]
  exact not_mem_of_splitTerminator
    ((areLines_rawLines script).isLine_of_mem hRaw)

------------------------------------------------------------
-- Lines That Were Read
------------------------------------------------------------

section

variable {script : Text} {source : Source}

theorem map_raw_of_ofText
    (hRead : ofText script = .ok source) :
    source.lines.map Line.raw = rawLines script := by
  rw [(of_ofText hRead).2.1, map_raw_markedLines]

theorem map_text_of_ofText
    (hRead : ofText script = .ok source) :
    source.lines.map Line.text = lineTexts script := by
  rw [(of_ofText hRead).2.1, map_text_markedLines]

theorem map_doc_of_ofText
    (hRead : ofText script = .ok source) :
    source.lines.map Line.doc =
      headerMarks (lineTexts script) := by
  rw [(of_ofText hRead).2.1, map_doc_markedLines]

theorem areLines_map_raw
    (hRead : ofText script = .ok source) :
    AreLines (source.lines.map Line.raw) := by
  rw [map_raw_of_ofText hRead]
  exact areLines_rawLines script

theorem isSplit_of_ofText
    (hRead : ofText script = .ok source)
    {line : Line}
    (hMem : line ∈ source.lines) :
    line.IsSplit := by
  rw [(of_ofText hRead).2.1] at hMem
  exact isSplit_of_mem_markedLines hMem

theorem ofLine?_of_ofText
    (hRead : ofText script = .ok source)
    {line : Line}
    (hMem : line ∈ source.lines)
    {doc : DocText}
    (hDoc : line.doc = some doc) :
    DocText.ofLine? line.text = some doc := by
  rw [(of_ofText hRead).2.1] at hMem
  exact ofLine?_of_mem_markedLines hMem hDoc

theorem not_mem_text_of_ofText
    (hRead : ofText script = .ok source)
    {line : Line}
    (hMem : line ∈ source.lines) :
    '\n' ∉ line.text := by
  rw [(of_ofText hRead).2.1] at hMem
  exact not_mem_text_of_mem_markedLines hMem

end

theorem not_mem_content_of_ofText
    {script : Text}
    {source : Source}
    (hRead : ofText script = .ok source)
    {content : Text}
    (hMem : content ∈ source.docContents) :
    '\n' ∉ content := by
  rcases List.mem_filterMap.mp hMem with
    ⟨line, hLine, hContent⟩
  rcases Option.map_eq_some_iff.mp hContent with
    ⟨doc, hDoc, rfl⟩
  rcases DocText.exists_of_ofLine?
      (ofLine?_of_ofText hRead hLine hDoc) with
    ⟨rest, hText, hRest⟩
  have hFree := not_mem_text_of_ofText hRead hLine
  intro hFeed
  apply hFree
  rw [hText, List.mem_append]
  rw [hRest] at hFeed
  exact Or.inr ((List.dropWhile_suffix _).subset hFeed)

/- The lines of the body are the contents. -/
theorem rawLines_body
    {script : Text}
    {source : Source}
    (hRead : ofText script = .ok source) :
    rawLines source.body = source.bodyLines := by
  rw [← flatten_bodyLines]
  apply rawLines_flatten
  apply areLines_of_forall_ended
  intro line hMem
  rcases List.mem_map.mp hMem with ⟨content, hContent, rfl⟩
  exact
    ⟨content, not_mem_content_of_ofText hRead hContent, rfl⟩

/- A part of the body between the offsets of two lines. -/
theorem bodyPart_lineOffset
    (source : Source)
    {first stop : Nat}
    (hLe : first ≤ stop) :
    source.bodyPart
        { start := lineOffset source.bodyLines first
          stop := lineOffset source.bodyLines stop } =
      ((source.bodyLines.take stop).drop first).flatten := by
  unfold bodyPart
  rw [← flatten_bodyLines]
  exact drop_take_lineOffset _ hLe

end Source

end Script

end ScriptWorkspace
