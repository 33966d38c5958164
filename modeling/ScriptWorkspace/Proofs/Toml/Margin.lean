import ScriptWorkspace.Proofs.Toml.LineReaders

/-
  Lines without their indentation.

  Spaces at the beginning of a line have no meaning in a TOML
  document, except for lines that begin inside of a string.
  `isFlush` follows a text from string to string and tells
  whether no line that begins inside of one begins with a
  space. Where a backslash at the end of a line folds the
  lines after it, spaces have no meaning either.

  Main declarations:
    * `Toml.unindented`
    * `Toml.moved`
    * `Toml.StaysOnLine.read_moved`
    * `Toml.Place`
    * `Toml.isFlush`
    * `Toml.isFlush_plain`
-/

namespace ScriptWorkspace

namespace Toml

variable {α : Type}

------------------------------------------------------------
-- Lines Without Indentation
------------------------------------------------------------

/-
  A text without the spaces that its lines begin with. The
  text itself may begin at the beginning of a line or not.
-/
def unindented : (atStart : Bool) → Text → Text
  | _, [] => []
  | atStart, c :: rest =>
    if atStart && c == ' ' then unindented true rest
    else c :: unindented (c == '\n') rest

theorem unindented_newline
    (atStart : Bool)
    (rest : Text) :
    unindented atStart ('\n' :: rest) =
      '\n' :: unindented true rest := by
  cases atStart <;> rfl

theorem unindented_false_cons
    {c : Char}
    (hFeed : c ≠ '\n')
    (rest : Text) :
    unindented false (c :: rest) =
      c :: unindented false rest := by
  have hOther : (c == '\n') = false := beq_false_of_ne hFeed
  simp [unindented, hOther]

/- A line keeps all but its beginning. -/
theorem unindented_append
    {line : Text}
    (hLine : '\n' ∉ line)
    (text : Text) :
    unindented false (line ++ text) =
      line ++ unindented false text := by
  induction line with
  | nil => rfl
  | cons c line ih =>
      rw [List.mem_cons, not_or] at hLine
      rw [List.cons_append,
        unindented_false_cons (Ne.symm hLine.1),
        ih hLine.2, List.cons_append]

/- A text that begins with no space keeps its beginning. -/
theorem unindented_true_of_ne
    {text : Text}
    (hHead : text.head? ≠ some ' ') :
    unindented true text = unindented false text := by
  cases text with
  | nil => rfl
  | cons c rest =>
      have hSpace : c ≠ ' ' := by simpa using hHead
      simp [unindented, hSpace]

/- Blanks in front of a text are dropped with or without it. -/
theorem dropWhile_unindented
    {p : Char → Bool}
    (hSpace : p ' ' = true)
    (atStart : Bool)
    (text : Text) :
    (unindented atStart text).dropWhile p =
      unindented false (text.dropWhile p) := by
  induction text generalizing atStart with
  | nil => cases atStart <;> rfl
  | cons c rest ih =>
      cases hChar : p c with
      | true =>
          by_cases hStart : (atStart && c == ' ') = true
          · simp [unindented, hStart, hChar, ih]
          · simp [unindented, hStart, hChar, ih]
      | false =>
          have hOther : c ≠ ' ' := by
            rintro rfl
            rw [hSpace] at hChar
            cases hChar
          simp [unindented, hOther, hChar]

/- A text is a line and what stands behind it. -/
theorem exists_line (text : Text) :
    ∃ line tail,
      text = line ++ tail ∧
        '\n' ∉ line ∧ FollowsLine tail := by
  induction text with
  | nil => exact ⟨[], [], rfl, List.not_mem_nil, .inl rfl⟩
  | cons c rest ih =>
      by_cases hFeed : c = '\n'
      · subst c
        exact
          ⟨[], '\n' :: rest, rfl, List.not_mem_nil,
            .inr ⟨rest, rfl⟩⟩
      · rcases ih with ⟨line, tail, rfl, hLine, hTail⟩
        refine ⟨c :: line, tail, rfl, ?_, hTail⟩
        rw [List.mem_cons, not_or]
        exact ⟨Ne.symm hFeed, hLine⟩

/-
  What becomes of a text from some point of a line on when an
  ending is put behind it and its lines lose their
  indentation.
-/
def moved (ending text : Text) : Text :=
  unindented false (text ++ ending)

theorem moved_append
    {line : Text}
    (hLine : '\n' ∉ line)
    (ending text : Text) :
    moved ending (line ++ text) =
      line ++ moved ending text := by
  unfold moved
  rw [List.append_assoc, unindented_append hLine]

theorem FollowsLine.moved
    {ending tail : Text}
    (hEnding : FollowsLine ending)
    (hTail : FollowsLine tail) :
    FollowsLine (moved ending tail) := by
  unfold Toml.moved
  rcases hTail with rfl | ⟨rest, rfl⟩
  · rcases hEnding with rfl | ⟨rest, rfl⟩
    · exact .inl rfl
    · exact .inr ⟨_, unindented_newline false rest⟩
  · exact .inr ⟨_, unindented_newline false (rest ++ ending)⟩

theorem moved_cons
    {c : Char}
    (hFeed : c ≠ '\n')
    (ending rest : Text) :
    moved ending (c :: rest) = c :: moved ending rest :=
  unindented_false_cons hFeed (rest ++ ending)

/- Behind a line end that no space follows. -/
theorem moved_newline
    {ending rest : Text}
    (hHead : (rest ++ ending).head? ≠ some ' ') :
    moved ending ('\n' :: rest) =
      '\n' :: moved ending rest := by
  unfold moved
  rw [List.cons_append, unindented_newline,
    unindented_true_of_ne hHead]

/- The text from some point of a line on keeps its beginning. -/
theorem exists_moved_cons
    (ending : Text)
    (c : Char)
    (text : Text) :
    ∃ other, moved ending (c :: text) = c :: other := by
  by_cases hFeed : c = '\n'
  · subst c
    exact ⟨_, unindented_newline _ _⟩
  · exact ⟨_, moved_cons hFeed ending text⟩

theorem head?_moved
    {text : Text}
    (hText : text ≠ [])
    (ending : Text) :
    (moved ending text).head? = text.head? := by
  cases text with
  | nil => exact absurd rfl hText
  | cons c text =>
      rcases exists_moved_cons ending c text with
        ⟨other, hOther⟩
      rw [hOther]
      rfl

theorem moved_ne_nil
    {text : Text}
    (hText : text ≠ [])
    (ending : Text) : moved ending text ≠ [] := by
  have hHead := head?_moved hText ending
  intro hNil
  rw [hNil] at hHead
  exact hText (List.head?_eq_none_iff.mp hHead.symm)

/- The character that a text begins with stays the first. -/
theorem head?_moved_iff
    {ending : Text}
    (hEnding : FollowsLine ending)
    {c : Char}
    (hFeed : c ≠ '\n')
    (text : Text) :
    (moved ending text).head? = some c ↔
      text.head? = some c := by
  cases text with
  | nil =>
      rcases hEnding.moved (.inl rfl) with hTail | hTail
      · simp [hTail]
      · rcases hTail with ⟨rest, hTail⟩
        simp [hTail, Ne.symm hFeed]
  | cons d rest =>
      by_cases hOther : d = '\n'
      · simp [moved, hOther, unindented_newline]
      · simp [moved_cons hOther]

theorem head?_moved_ne
    {ending : Text}
    (hEnding : FollowsLine ending)
    {c : Char}
    (hFeed : c ≠ '\n')
    {text : Text}
    (hHead : text.head? ≠ some c) :
    (moved ending text).head? ≠ some c :=
  mt (head?_moved_iff hEnding hFeed text).mp hHead

/- A reader that stays on its line finds the same. -/
theorem StaysOnLine.read_moved
    {read : Text → Option (α × Text)}
    (hRead : StaysOnLine read)
    {ending : Text}
    (hEnding : FollowsLine ending)
    (text : Text) :
    read (moved ending text) =
      (read text).map (Prod.map id (moved ending)) := by
  rcases exists_line text with
    ⟨line, tail, rfl, hLine, hTail⟩
  rw [moved_append hLine,
    hRead.append hLine (hEnding.moved hTail),
    hRead.append hLine hTail]
  cases hFound : read line with
  | none => rfl
  | some found =>
      rcases found with ⟨value, rest⟩
      rcases hRead.takes hFound with ⟨taken, rfl, _⟩
      have hRest : '\n' ∉ rest := by
        intro hMem
        exact hLine (List.mem_append_right _ hMem)
      simp [moved_append hRest]

------------------------------------------------------------
-- Strings In A Text
------------------------------------------------------------

/- Where a text goes on: in a string, a comment or neither. -/
inductive Place
  | outside
  | comment
  | basic
  | literal
  | longBasic (folded : Bool)
  | longLiteral
deriving DecidableEq, Repr

/-
  No line that begins inside of a string begins with a space,
  unless it is folded. A string of several lines may end in
  up to two quotes more than close it.
-/
def isFlush : Place → Text → Bool
  | _, [] => true
  | .outside, '"' :: '"' :: '"' :: rest =>
    isFlush (.longBasic false) rest
  | .outside, '\'' :: '\'' :: '\'' :: rest =>
    isFlush .longLiteral rest
  | .outside, '"' :: rest => isFlush .basic rest
  | .outside, '\'' :: rest => isFlush .literal rest
  | .outside, '#' :: rest => isFlush .comment rest
  | .outside, _ :: rest => isFlush .outside rest
  | .comment, '\n' :: rest => isFlush .outside rest
  | .comment, _ :: rest => isFlush .comment rest
  | .basic, '\\' :: _ :: rest => isFlush .basic rest
  | .basic, '"' :: rest => isFlush .outside rest
  | .basic, _ :: rest => isFlush .basic rest
  | .literal, '\'' :: rest => isFlush .outside rest
  | .literal, _ :: rest => isFlush .literal rest
  | .longBasic _, '"' :: '"' :: '"' :: '"' :: '"' :: rest =>
    isFlush .outside rest
  | .longBasic _, '"' :: '"' :: '"' :: '"' :: rest =>
    isFlush .outside rest
  | .longBasic _, '"' :: '"' :: '"' :: rest =>
    isFlush .outside rest
  | .longBasic _, '\\' :: c :: rest =>
    isFlush (.longBasic (isSpaceOrNewline c)) rest
  | .longBasic folded, '\n' :: rest =>
    (folded || rest.head? != some ' ') &&
      isFlush (.longBasic folded) rest
  | .longBasic folded, c :: rest =>
    isFlush (.longBasic (folded && isSpace c)) rest
  | .longLiteral,
      '\'' :: '\'' :: '\'' :: '\'' :: '\'' :: rest =>
    isFlush .outside rest
  | .longLiteral, '\'' :: '\'' :: '\'' :: '\'' :: rest =>
    isFlush .outside rest
  | .longLiteral, '\'' :: '\'' :: '\'' :: rest =>
    isFlush .outside rest
  | .longLiteral, '\n' :: rest =>
    rest.head? != some ' ' && isFlush .longLiteral rest
  | .longLiteral, _ :: rest => isFlush .longLiteral rest

/- Outside of strings all that counts is what opens one. -/
theorem isFlush_cons
    {c : Char}
    (hQuote : c ≠ '"')
    (hApostrophe : c ≠ '\'')
    (hComment : c ≠ '#')
    (rest : Text) :
    isFlush .outside (c :: rest) = isFlush .outside rest := by
  rw [isFlush] <;> simp_all

theorem isFlush_comment_cons
    {c : Char}
    (hFeed : c ≠ '\n')
    (rest : Text) :
    isFlush .comment (c :: rest) = isFlush .comment rest := by
  rw [isFlush]
  exact hFeed

theorem isFlush_basic_cons
    {c : Char}
    (hQuote : c ≠ '"')
    (hEscape : c ≠ '\\')
    (rest : Text) :
    isFlush .basic (c :: rest) = isFlush .basic rest := by
  rw [isFlush]
  · intro _ _ hChar _
    exact hEscape hChar
  · exact hQuote

theorem isFlush_literal_cons
    {c : Char}
    (hQuote : c ≠ '\'')
    (rest : Text) :
    isFlush .literal (c :: rest) = isFlush .literal rest := by
  rw [isFlush]
  exact hQuote

/- The text begins with a character three times. -/
def StartsWithThree (quote : Char) (text : Text) : Prop :=
  ∃ rest, text = quote :: quote :: quote :: rest

namespace StartsWithThree

variable {quote : Char}

theorem head?
    {text : Text}
    (hThree : StartsWithThree quote text) :
    text.head? = some quote := by
  rcases hThree with ⟨rest, rfl⟩
  rfl

/- An ending is no part of three quotes in a row. -/
theorem of_append
    (hFeed : quote ≠ '\n')
    {ending : Text}
    (hEnding : FollowsLine ending)
    {text : Text}
    (hThree : StartsWithThree quote (text ++ ending)) :
    StartsWithThree quote text := by
  have hHead : ending.head? ≠ some quote := by
    rcases hEnding with rfl | ⟨rest, rfl⟩
    · simp
    · simpa using Ne.symm hFeed
  rcases hThree with ⟨rest, hThree⟩
  rcases text with _ | ⟨a, _ | ⟨b, _ | ⟨c, text⟩⟩⟩
  · simp_all
  · simp_all
  · simp_all
  · simp only [List.cons_append, List.cons.injEq] at hThree
    rcases hThree with ⟨rfl, rfl, rfl, _⟩
    exact ⟨text, rfl⟩

theorem of_moved
    (hFeed : quote ≠ '\n')
    {ending : Text}
    (hEnding : FollowsLine ending)
    {text : Text}
    (hThree : StartsWithThree quote (moved ending text)) :
    StartsWithThree quote text := by
  have hHead := head?_moved_iff hEnding hFeed
  rcases hThree with ⟨rest, hThree⟩
  rcases text with _ | ⟨a, text⟩
  · have hNil := (hHead []).mp (by rw [hThree]; rfl)
    cases hNil
  have hFirst := (hHead (a :: text)).mp (by rw [hThree]; rfl)
  cases hFirst
  rw [moved_cons hFeed, List.cons.injEq] at hThree
  rcases text with _ | ⟨b, text⟩
  · have hNil := (hHead []).mp (by rw [hThree.2]; rfl)
    cases hNil
  have hSecond := (hHead (b :: text)).mp (by rw [hThree.2]; rfl)
  cases hSecond
  rw [moved_cons hFeed, List.cons.injEq] at hThree
  rcases text with _ | ⟨c, text⟩
  · have hNil := (hHead []).mp (by rw [hThree.2.2]; rfl)
    cases hNil
  have hThird :=
    (hHead (c :: text)).mp (by rw [hThree.2.2]; rfl)
  cases hThird
  exact ⟨text, rfl⟩

end StartsWithThree

theorem isFlush_longBasic_cons
    {folded : Bool}
    {c : Char}
    {rest : Text}
    (hQuotes : ¬ StartsWithThree '"' (c :: rest))
    (hEscape : c ≠ '\\')
    (hFeed : c ≠ '\n') :
    isFlush (.longBasic folded) (c :: rest) =
      isFlush (.longBasic (folded && isSpace c)) rest := by
  have hThree :
      ∀ after, c :: rest ≠ '"' :: '"' :: '"' :: after :=
    fun after hAfter => hQuotes ⟨after, hAfter⟩
  rw [isFlush]
  · intro after hChar hAfter
    exact hThree _ (by rw [hChar, hAfter])
  · intro after hChar hAfter
    exact hThree _ (by rw [hChar, hAfter])
  · intro after hChar hAfter
    exact hThree _ (by rw [hChar, hAfter])
  · intro _ _ hChar
    exact absurd hChar hEscape
  · intro hChar
    exact absurd hChar hFeed

theorem isFlush_longLiteral_cons
    {c : Char}
    {rest : Text}
    (hQuotes : ¬ StartsWithThree '\'' (c :: rest))
    (hFeed : c ≠ '\n') :
    isFlush .longLiteral (c :: rest) =
      isFlush .longLiteral rest := by
  have hThree :
      ∀ after, c :: rest ≠ '\'' :: '\'' :: '\'' :: after :=
    fun after hAfter => hQuotes ⟨after, hAfter⟩
  rw [isFlush]
  · intro after hChar hAfter
    exact hThree _ (by rw [hChar, hAfter])
  · intro after hChar hAfter
    exact hThree _ (by rw [hChar, hAfter])
  · intro after hChar hAfter
    exact hThree _ (by rw [hChar, hAfter])
  · intro hChar
    exact absurd hChar hFeed

theorem isFlush_plain
    {taken : Text}
    (hPlain : ∀ c ∈ taken, isPlain c = true)
    (rest : Text) :
    isFlush .outside (taken ++ rest) =
      isFlush .outside rest := by
  induction taken with
  | nil => rfl
  | cons c taken ih =>
      have hChar := hPlain c List.mem_cons_self
      simp only [isPlain, Bool.and_eq_true, bne_iff_ne]
        at hChar
      rw [List.cons_append,
        isFlush_cons hChar.1.1.1.1 hChar.1.1.1.2
          hChar.1.1.2,
        ih fun d hMem =>
          hPlain d (List.mem_cons_of_mem _ hMem)]

theorem isFlush_dropWhile
    {p : Char → Bool}
    (hQuotes : ∀ c ∈ ['"', '\'', '#'], p c = false)
    (text : Text) :
    isFlush .outside (text.dropWhile p) =
      isFlush .outside text := by
  induction text with
  | nil => rfl
  | cons c rest ih =>
      cases hChar : p c with
      | false => simp [hChar]
      | true =>
          have hOther : ∀ d ∈ ['"', '\'', '#'], c ≠ d := by
            rintro d hMem rfl
            rw [hQuotes _ hMem] at hChar
            cases hChar
          simp only [List.dropWhile_cons, hChar, if_true, ih]
          rw [isFlush_cons (hOther _ (by simp))
            (hOther _ (by simp)) (hOther _ (by simp))]

end Toml

end ScriptWorkspace
