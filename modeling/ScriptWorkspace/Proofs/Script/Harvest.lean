import ScriptWorkspace.Proofs.Script.Body

/-
  Reading a source in one go.

  The indices of the documentation lines, the body and its
  offsets need not be worked out of the lines afterwards: a
  scan can gather them while it marks the lines, adding to
  what it has at each documentation line. What it gathers is
  what the lines say.

  Main declarations:
    * `Gathering`
    * `gatherLines`
    * `Gathering.Gathers`
    * `Harvest`
    * `Source.harvest`
    * `Source.harvest_eq`
-/

namespace ScriptWorkspace

namespace Script

open Text

------------------------------------------------------------
-- What Is Gathered
------------------------------------------------------------

/- What is known of a documentation comment so far. -/
structure Gathering where
  indices : List Nat
  parts : List Text
  offsets : List Nat
  offset : Nat
deriving DecidableEq, Repr

namespace Gathering

/- Nothing is gathered yet. -/
def start : Gathering :=
  { indices := [], parts := [], offsets := [], offset := 0 }

/-
  Add the line of an index: the content of a documentation
  line begins where the last one ended.
-/
def add
    (gathering : Gathering)
    (index : Nat) : Option DocText → Gathering
  | none => gathering
  | some doc =>
    { indices := gathering.indices ++ [index]
      parts := gathering.parts ++ [doc.content ++ ['\n']]
      offsets := gathering.offsets ++ [gathering.offset]
      offset := gathering.offset + doc.content.length + 1 }

end Gathering

/- Read lines in order, marking and gathering. -/
def gatherLines :
    HeaderState →
    (index : Nat) →
    Gathering →
    List Line →
    (List Line × HeaderState) × Gathering
  | state, _, gathering, [] => (([], state), gathering)
  | state, index, gathering, line :: lines =>
    let (next, doc) := state.step index line.text
    let ((marked, last), found) :=
      gatherLines next (index + 1) (gathering.add index doc)
        lines
    (({ line with doc } :: marked, last), found)

/- Gathering is no concern of the scan. -/
theorem fst_gatherLines
    (state : HeaderState)
    (index : Nat)
    (gathering : Gathering)
    (lines : List Line) :
    (gatherLines state index gathering lines).1 =
      scanLines state index lines := by
  induction lines generalizing state index gathering with
  | nil => rfl
  | cons line lines ih =>
      simp only [gatherLines, scanLines, ih]

namespace Gathering

/-
  What is added to a gathering by some lines, of which the
  first one has the index. The offset to come is one of the
  offsets in the end.
-/
structure Gathers
    (before : Gathering)
    (index : Nat)
    (lines : List Line)
    (after : Gathering) : Prop where
  indices_eq :
    after.indices =
      before.indices ++ Source.docIndicesFrom index lines
  parts_eq :
    after.parts =
      before.parts ++ (contentsOf lines).map (· ++ ['\n'])
  offsets_eq :
    after.offsets ++ [after.offset] =
      before.offsets ++
        Source.offsetsFrom before.offset (contentsOf lines)

variable {before after : Gathering}
variable {index : Nat}
variable {line : Line}
variable {lines : List Line}

theorem Gathers.nil : before.Gathers index [] before where
  indices_eq := (List.append_nil _).symm
  parts_eq := (List.append_nil _).symm
  offsets_eq := rfl

/- One line is added, and then the others. -/
theorem Gathers.cons
    (hRest :
      (before.add index line.doc).Gathers (index + 1) lines
        after) :
    before.Gathers index (line :: lines) after := by
  cases hDoc : line.doc with
  | none =>
      rw [hDoc] at hRest
      have hContents := contentsOf_cons_of_none hDoc lines
      constructor
      · rw [hRest.indices_eq]
        simp [Source.docIndicesFrom, Line.isDoc, hDoc, add]
      · rw [hContents]
        exact hRest.parts_eq
      · rw [hContents]
        exact hRest.offsets_eq
  | some doc =>
      rw [hDoc] at hRest
      have hContents := contentsOf_cons_of_some hDoc lines
      constructor
      · rw [hRest.indices_eq]
        simp [Source.docIndicesFrom, Line.isDoc, hDoc, add]
      · rw [hRest.parts_eq, hContents]
        simp [add]
      · rw [hRest.offsets_eq, hContents]
        simp [add, Source.offsetsFrom]

/- Lines without documentation add nothing. -/
theorem Gathers.of_front
    {front : List Line}
    (hFront : ∀ line ∈ front, line.doc = none)
    (hRest :
      before.Gathers (index + front.length) lines after) :
    before.Gathers index (front ++ lines) after := by
  induction front generalizing index with
  | nil => exact hRest
  | cons line front ih =>
      rcases List.forall_mem_cons.mp hFront with
        ⟨hLine, hOthers⟩
      refine .cons ?_
      rw [hLine]
      apply ih hOthers
      rwa [List.length_cons, Nat.add_comm front.length,
        ← Nat.add_assoc] at hRest

end Gathering

/- A scan gathers what the lines that it marks say. -/
theorem gathers_gatherLines
    (state : HeaderState)
    (index : Nat)
    (gathering : Gathering)
    (lines : List Line) :
    gathering.Gathers index
      (gatherLines state index gathering lines).1.1
      (gatherLines state index gathering lines).2 := by
  induction lines generalizing state index gathering with
  | nil => exact .nil
  | cons line lines ih => exact .cons (ih _ _ _)

------------------------------------------------------------
-- Sources
------------------------------------------------------------

/- A source with what is gathered of it. -/
structure Harvest where
  source : Source
  docIndices : List Nat
  body : Text
  bodyOffsets : List Nat
deriving DecidableEq, Repr

/- What the lines of a source say. -/
def Harvest.ofSource (source : Source) : Harvest :=
  { source
    docIndices := source.docIndices
    body := source.body
    bodyOffsets := source.bodyOffsets }

/-
  What is gathered in the end: the parts are put together,
  and the offset behind the last one is added.
-/
def Gathering.harvest
    (gathering : Gathering)
    (source : Source) : Harvest :=
  { source
    docIndices := gathering.indices
    body := gathering.parts.flatten
    bodyOffsets := gathering.offsets ++ [gathering.offset] }

/- It is what the lines say if it is gathered of them. -/
theorem Gathering.harvest_eq
    {gathering : Gathering}
    {source : Source}
    (hGathers :
      Gathering.start.Gathers 0 source.lines gathering) :
    gathering.harvest source = .ofSource source := by
  rw [harvest, Harvest.ofSource, hGathers.indices_eq,
    hGathers.parts_eq, hGathers.offsets_eq, Source.body,
    List.flatMap_def]
  rfl

namespace Source

/- Read a source and gather its documentation in one go. -/
def harvest (text : Text) : Except HeaderFault Harvest :=
  let lines := Line.splitText text
  let texts := lines.map Line.text
  let skipped := headerStart texts
  let ((marked, last), found) :=
    gatherLines .header skipped .start (lines.drop skipped)
  match last with
  | .comment _ openedAt =>
    .error (faultAt .blockComment lines openedAt)
  | .attribute _ openedAt =>
    .error (faultAt .innerAttribute lines openedAt)
  | _ =>
    .ok
      (found.harvest
        { lines := lines.take skipped ++ marked
          shebang := namesInterpreter texts })

/- No line is marked before it is read. -/
theorem doc_of_mem_splitText
    {text : Text}
    {line : Line}
    (hMem : line ∈ Line.splitText text) :
    line.doc = none := by
  have hDoc := List.mem_map_of_mem (f := Line.doc) hMem
  unfold Line.splitText at hDoc
  rw [map_doc_placeLines] at hDoc
  rcases List.mem_map.mp hDoc with ⟨_, _, hNone⟩
  exact hNone.symm

/- A line in front of the header is there to be skipped. -/
theorem length_take_headerStart (text : Text) :
    ((Line.splitText text).take
        (headerStart (lineTexts text))).length =
      headerStart (lineTexts text) := by
  rw [List.length_take, length_splitText]
  apply Nat.min_eq_left
  cases hTexts : lineTexts text with
  | nil => rfl
  | cons first texts =>
      exact headerStart_le_length (List.cons_ne_nil _ _)

/-
  Reading in one go gives the source, and what its lines say
  of its documentation, or the same fault.
-/
theorem harvest_eq (text : Text) :
    harvest text = (ofText text).map .ofSource := by
  have hFront :
      ∀ line ∈
        (Line.splitText text).take
          (headerStart (lineTexts text)),
        line.doc = none := by
    intro line hMem
    exact doc_of_mem_splitText (List.mem_of_mem_take hMem)
  have hLength := length_take_headerStart text
  rw [ofText_eq]
  unfold harvest lastState markedLines
  dsimp only
  rw [map_text_splitText]
  generalize headerStart (lineTexts text) = skipped
    at hFront hLength ⊢
  generalize Line.splitText text = lines
    at hFront hLength ⊢
  rw [← fst_gatherLines .header skipped .start]
  have hGathers :=
    gathers_gatherLines .header skipped .start
      (lines.drop skipped)
  generalize
    gatherLines .header skipped .start
      (lines.drop skipped) = gathered at hGathers ⊢
  rcases gathered with ⟨⟨marked, last⟩, found⟩
  have hAll :
      Gathering.start.Gathers 0
        (lines.take skipped ++ marked) found := by
    refine .of_front hFront ?_
    rw [hLength, Nat.zero_add]
    exact hGathers
  cases last with
  | header =>
      exact congrArg Except.ok (Gathering.harvest_eq hAll)
  | comment depth openedAt => rfl
  | «attribute» depth openedAt => rfl
  | code =>
      exact congrArg Except.ok (Gathering.harvest_eq hAll)

end Source

end Script

end ScriptWorkspace
