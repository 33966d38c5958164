import ScriptWorkspace.Text.Basic

/-
  The lines of a text put together are the text, and lines
  put together are split again at the same places.

  Only the last of several lines may lack its line feed;
  `AreLines` says so of a list. It is what `rawLines` gives,
  and all that is needed for `rawLines` to give it back.

  Main declarations:
    * `Text.EndedLine`, `Text.IsLine`, `Text.AreLines`
    * `Text.flatten_rawLines`
    * `Text.areLines_rawLines`
    * `Text.rawLines_flatten`
    * `Text.splitOn_flatMap_ended`
-/

namespace ScriptWorkspace

namespace Text

------------------------------------------------------------
-- Lines
------------------------------------------------------------

/- One line with the line feed that ends it. -/
def EndedLine (line : Text) : Prop :=
  ∃ body : Text, '\n' ∉ body ∧ line = body ++ ['\n']

/- One line, which may lack its line feed. -/
def IsLine (line : Text) : Prop :=
  EndedLine line ∨ (line ≠ [] ∧ '\n' ∉ line)

/- Lines of which only the last may lack its line feed. -/
def AreLines : List Text → Prop
  | [] => True
  | [last] => IsLine last
  | line :: lines => EndedLine line ∧ AreLines lines

theorem EndedLine.isLine
    {line : Text}
    (hEnded : EndedLine line) :
    IsLine line :=
  Or.inl hEnded

theorem IsLine.ne_nil
    {line : Text}
    (hLine : IsLine line) :
    line ≠ [] := by
  rcases hLine with ⟨body, _, rfl⟩ | ⟨hNe, _⟩
  · simp
  · exact hNe

/- A text ends with a character if that is its last one. -/
theorem endsWith_singleton_iff
    (text : Text)
    (c : Char) :
    text.endsWith [c] = true ↔
      ∃ start, text = start ++ [c] := by
  unfold endsWith
  rw [List.isSuffixOf_iff_suffix]
  constructor
  · rintro ⟨start, hStart⟩
    exact ⟨start, hStart.symm⟩
  · rintro ⟨start, hStart⟩
    exact ⟨start, hStart.symm⟩

theorem EndedLine.endsWith
    {line : Text}
    (hEnded : EndedLine line) :
    line.endsWith ['\n'] = true := by
  rcases hEnded with ⟨body, _, rfl⟩
  exact (endsWith_singleton_iff _ _).mpr ⟨body, rfl⟩

theorem EndedLine.getLast?_ne
    {line : Text}
    (hEnded : EndedLine line) :
    line.getLast? ≠ some '\r' := by
  rcases hEnded with ⟨body, _, rfl⟩
  simp

/- A line that ends with a line feed is an ended one. -/
theorem IsLine.endedLine_of_endsWith
    {line : Text}
    (hLine : IsLine line)
    (hEnds : line.endsWith ['\n'] = true) :
    EndedLine line := by
  rcases hLine with hEnded | ⟨_, hFree⟩
  · exact hEnded
  · rcases (endsWith_singleton_iff _ _).mp hEnds with
      ⟨start, rfl⟩
    simp at hFree

/- A line that does not end with a line feed has none. -/
theorem IsLine.not_mem_of_not_endsWith
    {line : Text}
    (hLine : IsLine line)
    (hEnds : line.endsWith ['\n'] ≠ true) :
    '\n' ∉ line := by
  rcases hLine with hEnded | ⟨_, hFree⟩
  · exact absurd hEnded.endsWith hEnds
  · exact hFree

------------------------------------------------------------
-- Lists Of Lines
------------------------------------------------------------

theorem AreLines.tail
    {line : Text}
    {lines : List Text}
    (hLines : AreLines (line :: lines)) :
    AreLines lines := by
  cases lines with
  | nil => exact True.intro
  | cons next lines => exact hLines.2

theorem AreLines.head
    {line : Text}
    {lines : List Text}
    (hLines : AreLines (line :: lines)) :
    IsLine line := by
  cases lines with
  | nil => exact hLines
  | cons next lines => exact hLines.1.isLine

/- Lines that others follow are ended. -/
theorem areLines_append_iff
    (before : List Text)
    {after : List Text}
    (hAfter : after ≠ []) :
    AreLines (before ++ after) ↔
      (∀ line ∈ before, EndedLine line) ∧
        AreLines after := by
  induction before with
  | nil => simp
  | cons line before ih =>
      obtain ⟨next, rest, hNext⟩ :
          ∃ next rest, before ++ after = next :: rest :=
        List.exists_cons_of_ne_nil (by simp [hAfter])
      rw [List.cons_append, hNext]
      rw [hNext] at ih
      simp only [AreLines, ih, List.mem_cons,
        forall_eq_or_imp, and_assoc]

/- Every member of a list of lines is a line. -/
theorem AreLines.isLine_of_mem
    {lines : List Text}
    (hLines : AreLines lines)
    {line : Text}
    (hMem : line ∈ lines) :
    IsLine line := by
  induction lines with
  | nil => simp at hMem
  | cons first lines ih =>
      rcases List.mem_cons.mp hMem with rfl | hMem
      · exact hLines.head
      · exact ih hLines.tail hMem

theorem areLines_of_forall_ended
    {lines : List Text}
    (hEnded : ∀ line ∈ lines, EndedLine line) :
    AreLines lines := by
  have hLines : AreLines (lines ++ [['\n']]) :=
    (areLines_append_iff lines (by simp)).mpr
      ⟨hEnded, Or.inl ⟨[], by simp⟩⟩
  clear hEnded
  induction lines with
  | nil => exact True.intro
  | cons line lines ih =>
      cases lines with
      | nil => exact hLines.1.isLine
      | cons next lines => exact ⟨hLines.1, ih hLines.2⟩

------------------------------------------------------------
-- Splitting At Line Feeds
------------------------------------------------------------

/- The lines of a text put together are the text. -/
theorem flatten_rawLines (text : Text) :
    (rawLines text).flatten = text := by
  induction text with
  | nil => rfl
  | cons c rest ih =>
      unfold rawLines
      split
      · next hFeed => simp [hFeed, ih]
      · cases hRest : rawLines rest with
        | nil => simpa [hRest] using ih
        | cons line lines => simpa [hRest] using ih

/- A line feed ends a line and nothing else does. -/
theorem rawLines_ended_append
    {body : Text}
    (hBody : '\n' ∉ body)
    (rest : Text) :
    rawLines (body ++ '\n' :: rest) =
      (body ++ ['\n']) :: rawLines rest := by
  induction body with
  | nil => simp [rawLines]
  | cons c body ih =>
      have hHead : c ≠ '\n' := by
        intro hEq
        simp [hEq] at hBody
      have hTail : '\n' ∉ body := by
        intro hMem
        exact hBody (List.mem_cons_of_mem _ hMem)
      simp [rawLines, hHead, ih hTail]

/- A text without line feeds is one line. -/
theorem rawLines_of_not_mem
    {line : Text}
    (hNe : line ≠ [])
    (hFree : '\n' ∉ line) :
    rawLines line = [line] := by
  induction line with
  | nil => exact absurd rfl hNe
  | cons c line ih =>
      have hHead : c ≠ '\n' := by
        intro hEq
        simp [hEq] at hFree
      have hTail : '\n' ∉ line := by
        intro hMem
        exact hFree (List.mem_cons_of_mem _ hMem)
      cases line with
      | nil => simp [rawLines, hHead]
      | cons next line =>
          rw [rawLines, if_neg hHead, ih (by simp) hTail]

/- Lines put together are split at the same places. -/
theorem rawLines_flatten
    {lines : List Text}
    (hLines : AreLines lines) :
    rawLines lines.flatten = lines := by
  induction lines with
  | nil => rfl
  | cons line lines ih =>
      cases lines with
      | nil =>
          rcases hLines with ⟨body, hBody, rfl⟩ |
            ⟨hNe, hFree⟩
          · simpa [rawLines] using
              rawLines_ended_append hBody []
          · simpa using rawLines_of_not_mem hNe hFree
      | cons next lines =>
          rcases hLines.1 with ⟨body, hBody, rfl⟩
          rw [List.flatten_cons, List.append_assoc,
            List.singleton_append,
            rawLines_ended_append hBody, ih hLines.2]

/- The lines of a text are lines. -/
theorem areLines_rawLines (text : Text) :
    AreLines (rawLines text) := by
  induction text with
  | nil => exact True.intro
  | cons c rest ih =>
      unfold rawLines
      split
      · cases hRest : rawLines rest with
        | nil => exact Or.inl ⟨[], by simp⟩
        | cons line lines =>
            exact ⟨⟨[], by simp⟩, hRest ▸ ih⟩
      · next hFeed =>
          have hGrow :
              ∀ body : Text, '\n' ∉ body →
                '\n' ∉ c :: body := by
            intro body hBody hMem
            rcases List.mem_cons.mp hMem with hEq | hMem
            · exact hFeed hEq.symm
            · exact hBody hMem
          have hEndedGrow :
              ∀ line : Text, EndedLine line →
                EndedLine (c :: line) := by
            rintro line ⟨body, hBody, rfl⟩
            exact ⟨c :: body, hGrow body hBody, rfl⟩
          cases hRest : rawLines rest with
          | nil =>
              exact Or.inr ⟨by simp, hGrow [] (by simp)⟩
          | cons line lines =>
              rw [hRest] at ih
              cases lines with
              | nil =>
                  rcases ih with hEnded | ⟨_, hFree⟩
                  · exact Or.inl (hEndedGrow line hEnded)
                  · exact Or.inr
                      ⟨by simp, hGrow line hFree⟩
              | cons next lines =>
                  exact ⟨hEndedGrow line ih.1, ih.2⟩

/- A text that ends with a line feed has ended lines only. -/
theorem forall_ended_of_endsWith
    {text : Text}
    (hEnds : text.endsWith ['\n'] = true) :
    ∀ line ∈ rawLines text, EndedLine line := by
  have hLines := areLines_rawLines text
  have hFlatten := flatten_rawLines text
  rcases List.eq_nil_or_concat (rawLines text) with
    hNil | ⟨init, last, hConcat⟩
  · simp [hNil]
  · rw [List.concat_eq_append] at hConcat
    rw [hConcat] at hLines hFlatten ⊢
    have hSplit :=
      (areLines_append_iff init (by simp)).mp hLines
    have hLastLine : IsLine last := hSplit.2
    have hLastEnds : last.endsWith ['\n'] = true := by
      rcases (endsWith_singleton_iff _ _).mp hEnds with
        ⟨start, hStart⟩
      rw [← hFlatten] at hStart
      simp only [List.flatten_append, List.flatten_cons,
        List.flatten_nil, List.append_nil] at hStart
      rcases List.eq_nil_or_concat last with
        hEmpty | ⟨lastInit, c, hLast⟩
      · exact absurd hEmpty hLastLine.ne_nil
      · rw [List.concat_eq_append] at hLast
        rw [hLast, ← List.append_assoc] at hStart
        have hChar :=
          List.append_inj_right' hStart (by simp)
        exact (endsWith_singleton_iff _ _).mpr
          ⟨lastInit, by rw [hLast, hChar]⟩
    intro line hMem
    rcases List.mem_append.mp hMem with hInit | hLast
    · exact hSplit.1 line hInit
    · rw [List.mem_singleton.mp hLast]
      exact hLastLine.endedLine_of_endsWith hLastEnds

------------------------------------------------------------
-- Pieces Between Line Feeds
------------------------------------------------------------

theorem splitOn_ne_nil
    (separator : Char)
    (text : Text) :
    splitOn separator text ≠ [] := by
  induction text with
  | nil => simp [splitOn]
  | cons c rest ih =>
      unfold splitOn
      split
      · simp
      · split <;> simp

/- A separator ends a piece. -/
theorem splitOn_append_separator
    {separator : Char}
    {piece : Text}
    (hPiece : separator ∉ piece)
    (rest : Text) :
    splitOn separator (piece ++ separator :: rest) =
      piece :: splitOn separator rest := by
  induction piece with
  | nil => simp [splitOn]
  | cons c piece ih =>
      have hHead : c ≠ separator := by
        intro hEq
        simp [hEq] at hPiece
      have hTail : separator ∉ piece := by
        intro hMem
        exact hPiece (List.mem_cons_of_mem _ hMem)
      simp [splitOn, hHead, ih hTail]

/- Pieces with a separator after each, and nothing else. -/
theorem splitOn_flatMap_ended
    {separator : Char}
    {pieces : List Text}
    (hPieces : ∀ piece ∈ pieces, separator ∉ piece) :
    splitOn separator
        (pieces.flatMap (· ++ [separator])) =
      pieces ++ [[]] := by
  induction pieces with
  | nil => rfl
  | cons piece pieces ih =>
      have hHead := hPieces piece (by simp)
      have hTail :
          ∀ piece ∈ pieces, separator ∉ piece := by
        intro piece hMem
        exact hPieces piece (List.mem_cons_of_mem _ hMem)
      rw [List.flatMap_cons, List.append_assoc,
        List.singleton_append,
        splitOn_append_separator hHead, ih hTail,
        List.cons_append]

/- No piece holds the separator. -/
theorem not_mem_of_mem_splitOn
    {separator : Char}
    {text piece : Text}
    (hMem : piece ∈ splitOn separator text) :
    separator ∉ piece := by
  induction text generalizing piece with
  | nil =>
      rw [List.mem_singleton.mp hMem]
      simp
  | cons c rest ih =>
      unfold splitOn at hMem
      split at hMem
      · rcases List.mem_cons.mp hMem with rfl | hMem
        · simp
        · exact ih hMem
      · next hChar =>
          cases hRest : splitOn separator rest with
          | nil =>
              exact absurd hRest (splitOn_ne_nil _ _)
          | cons first others =>
              rw [hRest] at hMem ih
              rcases List.mem_cons.mp hMem with
                rfl | hMem
              · intro hIn
                rcases List.mem_cons.mp hIn with hEq | hIn
                · exact hChar hEq.symm
                · exact ih (by simp) hIn
              · exact ih (List.mem_cons_of_mem _ hMem)

/- A separator at the end leaves an empty piece. -/
theorem splitOn_append_singleton
    (separator : Char)
    (text : Text) :
    splitOn separator (text ++ [separator]) =
      splitOn separator text ++ [[]] := by
  induction text with
  | nil => simp [splitOn]
  | cons c rest ih =>
      rw [List.cons_append, splitOn, ih]
      conv => rhs; rw [splitOn]
      split
      · rfl
      · cases hRest : splitOn separator rest with
        | nil => exact absurd hRest (splitOn_ne_nil _ _)
        | cons piece pieces => rfl

/- All pieces but the last are followed by a separator. -/
theorem flatMap_dropLast_splitOn
    (separator : Char)
    (text : Text) :
    (splitOn separator text).dropLast.flatMap
          (· ++ [separator]) ++
        ((splitOn separator text).getLast?).getD [] =
      text := by
  induction text with
  | nil => rfl
  | cons c rest ih =>
      unfold splitOn
      cases hRest : splitOn separator rest with
      | nil => exact absurd hRest (splitOn_ne_nil _ _)
      | cons piece pieces =>
          rw [hRest] at ih
          split
          · next hChar =>
              rw [List.dropLast_cons_of_ne_nil (by simp),
                List.flatMap_cons,
                List.getLast?_cons_cons, hChar]
              simpa using ih
          · cases pieces with
            | nil => simpa using ih
            | cons next pieces =>
                simpa [List.dropLast_cons_of_ne_nil,
                  List.getLast?_cons_cons] using ih

------------------------------------------------------------
-- Beginnings
------------------------------------------------------------

theorem stripPrefix?_append
    (beginning rest : Text) :
    stripPrefix? beginning (beginning ++ rest) =
      some rest := by
  induction beginning with
  | nil => rfl
  | cons c beginning ih => simpa [stripPrefix?] using ih

/- What is stripped off is the beginning of the text. -/
theorem append_of_stripPrefix?
    {beginning text rest : Text}
    (hStrip : stripPrefix? beginning text = some rest) :
    text = beginning ++ rest := by
  fun_induction stripPrefix? beginning text with
  | case1 => simpa using hStrip
  | case2 => simp at hStrip
  | case3 c beginning text ih =>
      rw [ih hStrip, List.cons_append]
  | case4 => simp at hStrip

------------------------------------------------------------
-- Replaced Characters
------------------------------------------------------------

theorem replaceChar_append
    (old new : Char)
    (front back : Text) :
    replaceChar old new (front ++ back) =
      replaceChar old new front ++ replaceChar old new back :=
  List.map_append

/- Where a character is missing, nothing is replaced. -/
theorem replaceChar_of_not_mem
    {old : Char}
    (new : Char)
    {text : Text}
    (hMissing : old ∉ text) :
    replaceChar old new text = text := by
  have hSame :
      ∀ c ∈ text, (if c = old then new else c) = id c := by
    rintro c hMem
    apply if_neg
    rintro rfl
    exact hMissing hMem
  exact (List.map_congr_left hSame).trans (List.map_id text)

end Text

end ScriptWorkspace
