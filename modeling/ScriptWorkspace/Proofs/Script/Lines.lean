import Mathlib.Data.List.DropRight
import ScriptWorkspace.Script.Manifest
import ScriptWorkspace.Proofs.Text.RawLines

/-
  Lines of a script taken apart and put together.

  A line is split into its text and its terminator, and a
  documentation line into its marker and its content. Each
  splitting is undone by writing the parts one after the
  other, and a line that is written for a content is read
  back with that content.

  Main declarations:
    * `splitTerminator_append`
    * `splitTerminator_append_toText`
    * `DocText.ofLine?_docLine`
    * `DocText.exists_of_ofLine?`
    * `renderText`
    * `ofLine?_renderText`
-/

namespace ScriptWorkspace

namespace Script

open Text

------------------------------------------------------------
-- Terminators
------------------------------------------------------------

/- The terminator of a line that may not lack one. -/
def Terminator.orLineFeed : Terminator → Terminator
  | .none => .lineFeed
  | terminator => terminator

/- The characters that end the lines beside an anchor. -/
def Line.newline (anchor : Line) : Text :=
  anchor.terminator.orLineFeed.toText

/- A terminator that is there ends with a line feed. -/
theorem Terminator.exists_toText_orLineFeed
    (terminator : Terminator) :
    ∃ start : Text, '\n' ∉ start ∧
      terminator.orLineFeed.toText = start ++ ['\n'] := by
  cases terminator with
  | none => exact ⟨[], by simp, rfl⟩
  | lineFeed => exact ⟨[], by simp, rfl⟩
  | carriageReturnLineFeed =>
      exact ⟨['\r'], by decide, rfl⟩

/- A line with a newline after it is an ended line. -/
theorem endedLine_append_newline
    {line : Text}
    (hFree : '\n' ∉ line)
    (anchor : Line) :
    EndedLine (line ++ anchor.newline) := by
  rcases anchor.terminator.exists_toText_orLineFeed with
    ⟨start, hStart, hNewline⟩
  refine ⟨line ++ start, ?_, ?_⟩
  · simp [hFree, hStart]
  · unfold Line.newline
    rw [hNewline, List.append_assoc]

/- The parts of a line put together are the line. -/
theorem splitTerminator_append (raw : Text) :
    (splitTerminator raw).1 ++
        (splitTerminator raw).2.toText =
      raw := by
  fun_induction splitTerminator raw with
  | case1 => rfl
  | case2 => rfl
  | case3 => rfl
  | case4 c rest _ _ text terminator hRest ih =>
      rw [hRest] at ih
      simpa using ih

/- A text without line feeds has no terminator. -/
theorem splitTerminator_of_not_mem
    {line : Text}
    (hFree : '\n' ∉ line) :
    splitTerminator line = (line, .none) := by
  fun_induction splitTerminator line with
  | case1 => rfl
  | case2 => simp at hFree
  | case3 => simp at hFree
  | case4 c rest _ _ text terminator hRest ih =>
      have hTail : '\n' ∉ rest := by
        intro hMem
        exact hFree (List.mem_cons_of_mem _ hMem)
      have hParts := hRest.symm.trans (ih hTail)
      simp only [Prod.mk.injEq] at hParts ⊢
      exact ⟨by rw [hParts.1], hParts.2⟩

/-
  A text is split at its terminator if the two do not run
  together: a carriage return in front of a line feed would
  belong to the terminator.
-/
theorem splitTerminator_append_toText
    {line : Text}
    {terminator : Terminator}
    (hEnds : terminator ≠ .none)
    (hApart :
      line.getLast? = some '\r' →
        terminator = .carriageReturnLineFeed) :
    splitTerminator (line ++ terminator.toText) =
      (line, terminator) := by
  induction line with
  | nil =>
      cases terminator with
      | none => exact absurd rfl hEnds
      | lineFeed => rfl
      | carriageReturnLineFeed => rfl
  | cons c line ih =>
      have hTail :
          line.getLast? = some '\r' →
            terminator = .carriageReturnLineFeed := by
        intro hLast
        apply hApart
        cases line with
        | nil => simp at hLast
        | cons next line =>
            simpa [List.getLast?_cons_cons] using hLast
      have hOpen :
          splitTerminator (c :: (line ++ terminator.toText)) =
            (c :: (splitTerminator
                (line ++ terminator.toText)).1,
              (splitTerminator
                (line ++ terminator.toText)).2) := by
        apply splitTerminator.eq_4
        · intro _ hNil
          cases terminator <;>
            simp [Terminator.toText] at hNil hEnds
        · intro hHead hOne
          -- The line would be one carriage return.
          cases line with
          | nil =>
              rw [hApart (by simp [hHead])] at hOne
              simp [Terminator.toText] at hOne
          | cons next line =>
              cases terminator <;>
                simp [Terminator.toText] at hOne hEnds
      rw [List.cons_append, hOpen, ih hTail]

theorem splitTerminator_append_newline
    {line : Text}
    (hReturn : line.getLast? ≠ some '\r')
    (anchor : Line) :
    splitTerminator (line ++ anchor.newline) =
      (line, anchor.terminator.orLineFeed) := by
  apply splitTerminator_append_toText
  · cases anchor.terminator <;> simp [Terminator.orLineFeed]
  · intro hLast
    exact absurd hLast hReturn

/- The text of a line holds no line feed. -/
theorem not_mem_of_splitTerminator
    {raw : Text}
    (hLine : IsLine raw) :
    '\n' ∉ (splitTerminator raw).1 := by
  rcases hLine with ⟨body, hBody, rfl⟩ | ⟨_, hFree⟩
  · by_cases hLast : body.getLast? = some '\r'
    · rcases List.eq_nil_or_concat body with
        rfl | ⟨init, c, rfl⟩
      · simp at hLast
      · rw [List.concat_eq_append] at hBody hLast ⊢
        have hReturn : c = '\r' := by simpa using hLast
        have hSplit :
            splitTerminator
                (init ++
                  Terminator.carriageReturnLineFeed.toText) =
              (init, .carriageReturnLineFeed) :=
          splitTerminator_append_toText
            (by simp) (fun _ => rfl)
        rw [Terminator.toText] at hSplit
        rw [hReturn, List.append_assoc, List.singleton_append,
          hSplit]
        intro hMem
        exact hBody (List.mem_append_left _ hMem)
    · have hSplit :
          splitTerminator
              (body ++ Terminator.lineFeed.toText) =
            (body, .lineFeed) :=
        splitTerminator_append_toText (by simp)
          (fun h => absurd h hLast)
      rw [Terminator.toText] at hSplit
      rw [hSplit]
      exact hBody
  · rw [splitTerminator_of_not_mem hFree]
    exact hFree

------------------------------------------------------------
-- Placed Lines
------------------------------------------------------------

/- The line is split as its characters are. -/
def Line.IsSplit (line : Line) : Prop :=
  splitTerminator line.raw = (line.text, line.terminator)

theorem map_raw_placeLines
    (start : Nat)
    (raws : List Text) :
    (placeLines start raws).map Line.raw = raws := by
  induction raws generalizing start with
  | nil => rfl
  | cons raw raws ih =>
      simp [placeLines, ih, Line.raw,
        splitTerminator_append]

theorem isSplit_of_mem_placeLines
    {start : Nat}
    {raws : List Text}
    {line : Line}
    (hMem : line ∈ placeLines start raws) :
    line.IsSplit := by
  induction raws generalizing start with
  | nil => simp [placeLines] at hMem
  | cons raw raws ih =>
      rcases List.mem_cons.mp hMem with rfl | hMem
      · simp [Line.IsSplit, Line.raw,
          splitTerminator_append]
      · exact ih hMem

------------------------------------------------------------
-- Documentation Lines
------------------------------------------------------------

/- The token is at the left of what follows white space. -/
theorem stripLeft_docLine
    {indent : Text}
    (hIndent : ∀ c ∈ indent, isBlank c = true)
    (rest : Text) :
    (indent ++ docToken ++ rest).stripLeft =
      docToken ++ rest := by
  unfold stripLeft
  rw [List.append_assoc,
    List.dropWhile_append_of_pos hIndent]
  rfl

theorem indentation_docLine
    {indent : Text}
    (hIndent : ∀ c ∈ indent, isBlank c = true)
    (rest : Text) :
    (indent ++ docToken ++ rest).indentation = indent := by
  unfold indentation
  rw [List.append_assoc,
    List.takeWhile_append_of_pos hIndent]
  simp [docToken, isBlank]

/- White space, the token and anything make such a line. -/
theorem DocText.ofLine?_docLine
    {indent : Text}
    (hIndent : ∀ c ∈ indent, isBlank c = true)
    (rest : Text) :
    DocText.ofLine? (indent ++ docToken ++ rest) =
      some
        { marker :=
            indent ++ docToken ++ rest.takeWhile (· == ' ')
          content := rest.dropWhile (· == ' ') } := by
  unfold DocText.ofLine?
  rw [stripLeft_docLine hIndent, stripPrefix?_append,
    indentation_docLine hIndent]

theorem isBlank_of_mem_indentation
    {text : Text}
    {c : Char}
    (hMem : c ∈ text.indentation) :
    isBlank c = true :=
  List.all_eq_true.mp
    (List.all_takeWhile (p := isBlank) (l := text)) c hMem

/- Every documentation line is of that form. -/
theorem DocText.exists_of_ofLine?
    {text : Text}
    {doc : DocText}
    (hDoc : DocText.ofLine? text = some doc) :
    ∃ rest,
      text = text.indentation ++ docToken ++ rest ∧
        doc.content = rest.dropWhile (· == ' ') := by
  unfold DocText.ofLine? at hDoc
  cases hStrip : stripPrefix? docToken text.stripLeft with
  | none => simp [hStrip] at hDoc
  | some rest =>
      rw [hStrip] at hDoc
      refine ⟨rest, ?_, ?_⟩
      · rw [List.append_assoc,
          ← append_of_stripPrefix? hStrip]
        exact List.takeWhile_append_dropWhile.symm
      · rw [← Option.some.inj hDoc]

/- No content begins with a space. -/
theorem DocText.dropWhile_content
    {text : Text}
    {doc : DocText}
    (hDoc : DocText.ofLine? text = some doc) :
    doc.content.dropWhile (· == ' ') = doc.content := by
  rcases DocText.exists_of_ofLine? hDoc with
    ⟨rest, _, hContent⟩
  rw [hContent, List.dropWhile_idempotent]

/- A line ends as its content does, or with its marker. -/
theorem DocText.getLast?_text
    {text : Text}
    {doc : DocText}
    (hDoc : DocText.ofLine? text = some doc)
    (hContent : doc.content.getLast? ≠ some '\r') :
    text.getLast? ≠ some '\r' := by
  rcases DocText.exists_of_ofLine? hDoc with
    ⟨rest, hText, hRest⟩
  rw [hRest] at hContent
  rw [hText]
  have hSpaces :
      ∀ c ∈ rest.takeWhile (· == ' '), c = ' ' := by
    intro c hMem
    have hAll :=
      List.all_eq_true.mp
        (List.all_takeWhile (p := (· == ' ')) (l := rest))
        c hMem
    simpa using hAll
  rw [← List.takeWhile_append_dropWhile
    (p := (· == ' ')) (l := rest)]
  cases hDrop : rest.dropWhile (· == ' ') with
  | nil =>
      intro hLast
      rw [List.append_nil] at hLast
      rcases List.eq_nil_or_concat
          (rest.takeWhile (· == ' ')) with
        hNil | ⟨init, c, hConcat⟩
      · rw [hNil, List.append_nil] at hLast
        simp [docToken] at hLast
      · have hChar : c = ' ' :=
          hSpaces c (by simp [hConcat])
        simp [hConcat, hChar] at hLast
  | cons c rest =>
      rw [hDrop] at hContent
      simpa [List.getLast?_append] using hContent

------------------------------------------------------------
-- Written Lines
------------------------------------------------------------

/- The text of the line that is written for a content. -/
def renderText (anchor : Line) (content : Text) : Text :=
  renderDoc anchor [] content

theorem renderDoc_eq
    (anchor : Line)
    (newline content : Text) :
    renderDoc anchor newline content =
      renderText anchor content ++ newline := by
  simp only [renderText, renderDoc]
  split <;> simp

theorem dropCarriageReturn_of_not_mem
    {content : Text}
    (hReturn : '\r' ∉ content) :
    dropCarriageReturn content = content := by
  unfold dropCarriageReturn
  rw [if_neg]
  intro hEnds
  rcases (endsWith_singleton_iff _ _).mp hEnds with
    ⟨start, rfl⟩
  simp at hReturn

/- A written line is the token and what stands behind it. -/
theorem exists_renderText
    (anchor : Line)
    {content : Text}
    (hReturn : '\r' ∉ content) :
    ∃ rest,
      renderText anchor content =
          anchor.indentation ++ docToken ++ rest ∧
        rest.dropWhile (· == ' ') =
          content.dropWhile (· == ' ') ∧
        (rest = [] ∨ rest = ' ' :: content) := by
  unfold renderText renderDoc
  rw [dropCarriageReturn_of_not_mem hReturn]
  cases content with
  | nil => exact ⟨[], by simp, rfl, Or.inl rfl⟩
  | cons c content =>
      exact ⟨' ' :: c :: content, by simp, by simp,
        Or.inr rfl⟩

/- A written line is read with its content. -/
theorem ofLine?_renderText
    (anchor : Line)
    {content : Text}
    (hReturn : '\r' ∉ content) :
    ∃ marker,
      DocText.ofLine? (renderText anchor content) =
        some
          { marker
            content := content.dropWhile (· == ' ') } := by
  rcases exists_renderText anchor hReturn with
    ⟨rest, hText, hDrop, _⟩
  have hIndent :
      ∀ c ∈ anchor.indentation, isBlank c = true := by
    intro c hMem
    exact isBlank_of_mem_indentation hMem
  rw [hText, DocText.ofLine?_docLine hIndent, hDrop]
  exact ⟨_, rfl⟩

theorem getLast?_renderText
    (anchor : Line)
    {content : Text}
    (hReturn : '\r' ∉ content) :
    (renderText anchor content).getLast? ≠ some '\r' := by
  rcases exists_renderText anchor hReturn with
    ⟨rest, hText, _, hRest⟩
  rw [hText]
  rcases hRest with rfl | rfl
  · simp [docToken]
  · intro hLast
    have hMem : '\r' ∈ ' ' :: content := by
      rw [List.getLast?_append] at hLast
      apply List.mem_of_getLast?
      simpa using hLast
    exact hReturn (by simpa using hMem)

/- Line feeds are in a written line only if in its parts. -/
theorem not_mem_renderText
    {anchor : Line}
    {content : Text}
    (hAnchor : '\n' ∉ anchor.text)
    (hContent : '\n' ∉ content) :
    '\n' ∉ renderText anchor content := by
  have hIndent : '\n' ∉ anchor.indentation := by
    intro hMem
    exact hAnchor
      ((List.takeWhile_prefix _).subset hMem)
  have hDropped : '\n' ∉ dropCarriageReturn content := by
    unfold dropCarriageReturn
    split
    · intro hMem
      exact hContent (List.dropLast_subset _ hMem)
    · exact hContent
  simp only [renderText, renderDoc]
  split
  · simp [hIndent, docToken]
  · simp [hIndent, docToken, hDropped]

end Script

end ScriptWorkspace
