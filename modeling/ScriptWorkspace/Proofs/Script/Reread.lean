import ScriptWorkspace.Proofs.Script.Locality

/-
  A script with another manifest, read again.

  If the manifest has no carriage returns, the script it was
  put into can be read whenever the old one could. The same
  line names an interpreter, the same lines are opaque, and
  the body differs by one substitution: the text of the old
  manifest is replaced by the lines of the new one, without
  the spaces in front of them.

  Main declarations:
    * `Source.opaqueTexts`
    * `unmarked_respellEnded`
    * `IsRegion.body_eq`
    * `read_replaced`
-/

namespace ScriptWorkspace

namespace Script

open Text Markdown

------------------------------------------------------------
-- Opaque Lines
------------------------------------------------------------

/- The lines of a source that are no documentation. -/
def Source.opaqueTexts (source : Source) : List Text :=
  (opaqueLines source.lines).map Line.raw

/- The lines among some whose marks name no documentation. -/
def unmarked :
    List (Option DocText) →
    List Text →
    List Text
  | none :: marks, raw :: raws => raw :: unmarked marks raws
  | some _ :: marks, _ :: raws => unmarked marks raws
  | _, _ => []

theorem unmarked_map (lines : List Line) :
    unmarked (lines.map Line.doc) (lines.map Line.raw) =
      (opaqueLines lines).map Line.raw := by
  induction lines with
  | nil => rfl
  | cons line lines ih =>
      cases hDoc : line.doc with
      | none =>
          rw [opaqueLines_cons_of_none hDoc]
          simp [unmarked, hDoc, ih]
      | some doc =>
          rw [opaqueLines_cons_of_some hDoc]
          simp [unmarked, hDoc, ih]

theorem unmarked_append
    {marks : List (Option DocText)}
    {raws : List Text}
    (hLength : marks.length = raws.length)
    (marks' : List (Option DocText))
    (raws' : List Text) :
    unmarked (marks ++ marks') (raws ++ raws') =
      unmarked marks raws ++ unmarked marks' raws' := by
  induction marks generalizing raws with
  | nil =>
      rw [List.length_nil, eq_comm,
        List.length_eq_zero_iff] at hLength
      rw [hLength]
      rfl
  | cons mark marks ih =>
      cases raws with
      | nil => simp at hLength
      | cons raw raws =>
          have hRest := ih (Nat.succ.inj hLength)
          cases mark with
          | none => simp [unmarked, hRest]
          | some doc => simp [unmarked, hRest]

/- Marks and lines of a respelled region belong together. -/
theorem length_respellMarks
    (anchor : Line)
    (lines : List Line)
    (contents : List Text) :
    (respellMarks (renderMark anchor) lines
        contents).length =
      (respellEnded anchor lines contents).length := by
  induction lines generalizing contents with
  | nil => simp [respellMarks, respellEnded]
  | cons line lines ih =>
      cases hDoc : line.doc with
      | none => simp [respellMarks, respellEnded, hDoc, ih]
      | some doc =>
          cases contents with
          | nil => simp [respellMarks, respellEnded, hDoc, ih]
          | cons content rest =>
              simp [respellMarks, respellEnded, hDoc, ih]

/- No line that is written for a content is opaque. -/
theorem unmarked_map_renderDoc
    (anchor : Line)
    {contents : List Text}
    (hReturn : ∀ content ∈ contents, '\r' ∉ content) :
    unmarked (contents.map (renderMark anchor))
        (contents.map (renderDoc anchor anchor.newline)) =
      [] := by
  induction contents with
  | nil => rfl
  | cons content contents ih =>
      rcases ofLine?_renderText anchor
          (hReturn content List.mem_cons_self) with
        ⟨marker, hMark⟩
      have hRest :=
        ih fun other hMem =>
          hReturn other (List.mem_cons_of_mem _ hMem)
      simp only [List.map_cons, renderMark, hMark, unmarked]
      exact hRest

/- The opaque lines of a respelled region are the old ones. -/
theorem unmarked_respellEnded
    (anchor : Line)
    (lines : List Line)
    {contents : List Text}
    (hReturn : ∀ content ∈ contents, '\r' ∉ content) :
    unmarked
        (respellMarks (renderMark anchor) lines contents)
        (respellEnded anchor lines contents) =
      (opaqueLines lines).map Line.raw := by
  induction lines generalizing contents with
  | nil => exact unmarked_map_renderDoc anchor hReturn
  | cons line lines ih =>
      cases hDoc : line.doc with
      | none =>
          rw [opaqueLines_cons_of_none hDoc, List.map_cons,
            ← ih hReturn]
          simp only [respellMarks, respellEnded, hDoc,
            unmarked]
      | some doc =>
          rw [opaqueLines_cons_of_some hDoc]
          cases contents with
          | nil =>
              rw [← ih hReturn]
              simp only [respellMarks, respellEnded, hDoc]
          | cons content rest =>
              rcases ofLine?_renderText anchor
                  (hReturn content List.mem_cons_self) with
                ⟨marker, hMark⟩
              have hRest :=
                ih fun other hMem =>
                  hReturn other
                    (List.mem_cons_of_mem _ hMem)
              rw [← hRest]
              simp only [respellMarks, respellEnded, hDoc,
                renderMark, hMark]
              split <;> rfl

------------------------------------------------------------
-- Bodies
------------------------------------------------------------

theorem linesText_append (front back : List Text) :
    linesText (front ++ back) =
      linesText front ++ linesText back :=
  List.flatMap_append

/- The body of a source in three parts, at a region. -/
theorem IsRegion.body_eq
    {source : Source}
    {first stop : Nat}
    {before region after : List Line}
    (hRegion :
      IsRegion source first stop before region after) :
    source.body =
      linesText (contentsOf before) ++
        linesText (contentsOf region) ++
        linesText (contentsOf after) := by
  change linesText (contentsOf source.lines) = _
  rw [hRegion.lines_eq, contentsOf_append,
    contentsOf_append, linesText_append, linesText_append]

/- Where the parts meet. -/
theorem IsRegion.lineSpan_eq
    {source : Source}
    {first stop : Nat}
    {before region after : List Line}
    (hRegion :
      IsRegion source first stop before region after) :
    lineSpan source.bodyLines first stop =
      { start := (linesText (contentsOf before)).length
        stop :=
          (linesText (contentsOf before)).length +
            (linesText (contentsOf region)).length } := by
  have hContents :
      source.docContents =
        contentsOf before ++ contentsOf region ++
          contentsOf after := by
    change contentsOf source.lines = _
    rw [hRegion.lines_eq, contentsOf_append,
      contentsOf_append]
  have hOffset :
      ∀ {front back : List Text},
        source.docContents = front ++ back →
          lineOffset source.bodyLines front.length =
            (linesText front).length := by
    intro front back hSplit
    rw [lineOffset_eq_length]
    unfold Source.bodyLines linesText
    rw [hSplit, List.map_append, List.flatMap_def,
      List.take_left' (List.length_map _)]
  have hStart :=
    hOffset (hContents.trans (List.append_assoc ..))
  have hStop := hOffset hContents
  rw [List.length_append, hRegion.first_eq, hRegion.stop_eq,
    linesText_append, List.length_append] at hStop
  rw [hRegion.first_eq] at hStart
  unfold lineSpan
  rw [hStart, hStop]

------------------------------------------------------------
-- Reading Again
------------------------------------------------------------

/-
  A manifest without carriage returns leaves the script one
  that can be read. Nothing but the text of the old manifest
  changes in the body, and no opaque line changes.
-/
theorem read_replaced
    {script manifest replaced old : Text}
    (hReplace :
      replace script manifest = .ok (replaced, old))
    (hReturn : '\r' ∉ manifest) :
    ∃ source next front back,
      Source.read script = .ok source ∧
        Source.read replaced = .ok next ∧
        next.shebang = source.shebang ∧
        next.opaqueTexts = source.opaqueTexts ∧
        source.manifestSpan =
          .ok
            { start := front.length
              stop := front.length + old.length } ∧
        source.body = front ++ old ++ back ∧
        next.body =
          front ++
            linesText
              ((manifestLines (terminated manifest)).map
                (List.dropWhile (· == ' '))) ++
            back := by
  rcases of_replace_eq_ok hReplace with
    ⟨source, first, stop, anchor, before, region, after,
      hRead, hRegion, rfl, rfl⟩
  have hIsRegion := hRegion.toIsRegion
  have hLineReturn :
      ∀ line ∈ manifestLines (terminated manifest),
        '\r' ∉ line := by
    intro line hMem
    exact not_mem_of_mem_lines hReturn hMem
  rcases hIsRegion.ofText_respelled hRegion.first_pos hRead
      (Source.not_mem_text_of_ofText hRead
        (Source.mem_lines_of_docLine? hRegion.anchor_eq))
      (fun _ => not_mem_of_mem_manifestLines) hLineReturn
    with ⟨next, hNext, hShebang, hRaws, hDocs⟩
  have hContents :=
    hIsRegion.docContents_respelled hRead hLineReturn hDocs
  rw [hIsRegion.endLines_respelled hRead] at hRaws
  refine
    ⟨source, next, linesText (contentsOf before),
      linesText (contentsOf after),
      Source.read_eq_ok_iff.mpr hRead,
      Source.read_eq_ok_iff.mpr hNext, hShebang, ?_, ?_,
      hIsRegion.body_eq, ?_⟩
  · unfold Source.opaqueTexts
    rw [← unmarked_map next.lines, hDocs, hRaws,
      unmarked_append
        (by
          rw [List.length_append, List.length_append,
            length_respellMarks, List.length_map,
            List.length_map]),
      unmarked_append
        (by rw [List.length_map, List.length_map]),
      unmarked_respellEnded anchor region hLineReturn,
      unmarked_map, unmarked_map, ← List.map_append,
      ← List.map_append, hIsRegion.lines_eq]
    simp only [opaqueLines, List.filter_append]
  · rw [Source.manifestSpan_eq_ok hRegion.located,
      hIsRegion.lineSpan_eq]
  · change linesText next.docContents = _
    rw [hContents, linesText_append, linesText_append]

/-
  A shorter manifest with a line that looks like a fence, in
  a source with a shebang and an opaque line.
-/
theorem read_replaced_of_fence_line :
    replace
          "#!/bin/x\n//! ```cargo\n//!  a\n// note\n//! b\n//! ```\n"
          "  ```" =
        .ok
          ("#!/bin/x\n//! ```cargo\n//!   ```\n// note\n//! ```\n",
            "a\nb\n") ∧
      ∃ source next front back,
        Source.read
              "#!/bin/x\n//! ```cargo\n//!  a\n// note\n//! b\n//! ```\n" =
            .ok source ∧
          Source.read
              "#!/bin/x\n//! ```cargo\n//!   ```\n// note\n//! ```\n" =
            .ok next ∧
          next.shebang = source.shebang ∧
          next.opaqueTexts = source.opaqueTexts ∧
          source.manifestSpan =
            .ok
              { start := front.length
                stop :=
                  front.length + ("a\nb\n" : Text).length } ∧
          source.body = front ++ "a\nb\n" ++ back ∧
          next.body =
            front ++
              linesText
                ((manifestLines (terminated "  ```")).map
                  (List.dropWhile (· == ' '))) ++
              back := by
  have hReplace :
      replace
          "#!/bin/x\n//! ```cargo\n//!  a\n// note\n//! b\n//! ```\n"
          "  ```" =
        .ok
          ("#!/bin/x\n//! ```cargo\n//!   ```\n// note\n//! ```\n",
            "a\nb\n") := by
    decide +kernel
  exact ⟨hReplace, read_replaced hReplace (by decide)⟩

end Script

end ScriptWorkspace
