import ScriptWorkspace.Proofs.Text.RawLines
import ScriptWorkspace.Toml.Scalar

/-
  Readers that stay on their line.

  What such a reader finds depends on the text up to the end
  of the line alone, and it takes neither quotes nor comment
  signs nor line ends. Readers that are put together of such
  readers are of this kind as well.

  Main declarations:
    * `Toml.FollowsLine`
    * `Toml.isPlain`
    * `Toml.StaysOnLine`
    * `Toml.staysOnLine_takeSome?`
    * `Toml.staysOnLine_word?`
    * `Toml.staysOnLine_someDigits?`
-/

namespace ScriptWorkspace

namespace Toml

variable {α β : Type}

------------------------------------------------------------
-- Lines
------------------------------------------------------------

/- What can stand behind a line: nothing or a line end. -/
def FollowsLine (tail : Text) : Prop :=
  tail = [] ∨ ∃ rest, tail = '\n' :: rest

/-
  The character has no meaning for where strings, comments
  and lines begin and end.
-/
def isPlain (c : Char) : Bool :=
  c != '"' && c != '\'' && c != '#' && c != '\n' && c != '\r'

/- The characters of the list are tried, and no others. -/
instance (priority := 1100) decidableForallMem
    {p : Char → Prop}
    [DecidablePred p]
    (chars : List Char) : Decidable (∀ c ∈ chars, p c) :=
  List.decidableBAll p chars

/- The characters that are not plain. -/
def specialChars : List Char := ['"', '\'', '#', '\n', '\r']

theorem isPlain_of_not_mem
    {c : Char}
    (hOther : c ∉ specialChars) :
    isPlain c = true := by
  simpa [isPlain, specialChars, and_assoc] using hOther

/- What holds of no special character holds of plain ones. -/
theorem isPlain_of_forall
    {p : Char → Bool}
    (hSpecial : ∀ c ∈ specialChars, p c = false)
    {c : Char}
    (hChar : p c = true) :
    isPlain c = true := by
  apply isPlain_of_not_mem
  intro hMem
  rw [hSpecial c hMem] at hChar
  cases hChar

theorem isPlain_of_isDigit
    {c : Char}
    (hDigit : Text.isDigit c = true) :
    isPlain c = true :=
  isPlain_of_forall (by decide) hDigit

section Lines

variable {line tail : Text}
variable {p : Char → Bool}

theorem takeWhile_append_tail
    (hStops : p '\n' = false)
    (hTail : FollowsLine tail) :
    (line ++ tail).takeWhile p = line.takeWhile p := by
  induction line with
  | nil =>
      rcases hTail with rfl | ⟨rest, rfl⟩
      · rfl
      · simp [hStops]
  | cons c line ih =>
      cases hChar : p c with
      | true => simp [hChar, ih]
      | false => simp [hChar]

theorem dropWhile_append_tail
    (hStops : p '\n' = false)
    (hTail : FollowsLine tail) :
    (line ++ tail).dropWhile p = line.dropWhile p ++ tail := by
  induction line with
  | nil =>
      rcases hTail with rfl | ⟨rest, rfl⟩
      · rfl
      · simp [hStops]
  | cons c line ih =>
      cases hChar : p c with
      | true => simp [hChar, ih]
      | false => simp [hChar]

end Lines

------------------------------------------------------------
-- Readers
------------------------------------------------------------

/-
  A reader of a part of a line: it finds the same whatever
  follows the line, and takes plain characters only.
-/
structure StaysOnLine
    (read : Text → Option (α × Text)) : Prop where
  append :
    ∀ {line tail : Text},
      '\n' ∉ line →
      FollowsLine tail →
      read (line ++ tail) =
        (read line).map (Prod.map id (· ++ tail))
  takes :
    ∀ {text rest : Text} {value : α},
      read text = some (value, rest) →
      ∃ taken,
        text = taken ++ rest ∧
          ∀ c ∈ taken, isPlain c = true

namespace StaysOnLine

/- A reader and another one for what it leaves. -/
theorem bind
    {read : Text → Option (α × Text)}
    {next : α × Text → Option (β × Text)}
    (hRead : StaysOnLine read)
    (hNext :
      ∀ value, StaysOnLine fun text => next (value, text)) :
    StaysOnLine fun text => read text >>= next := by
  constructor
  · intro line tail hLine hTail
    rw [hRead.append hLine hTail]
    cases hFound : read line with
    | none => rfl
    | some found =>
        rcases found with ⟨value, rest⟩
        rcases hRead.takes hFound with ⟨taken, rfl, _⟩
        have hRest : '\n' ∉ rest := by
          intro hMem
          exact hLine (List.mem_append_right _ hMem)
        exact (hNext value).append hRest hTail
  · intro text rest value hFound
    rcases Option.bind_eq_some_iff.mp hFound with
      ⟨⟨first, between⟩, hFirst, hSecond⟩
    rcases hRead.takes hFirst with ⟨front, rfl, hFront⟩
    rcases (hNext first).takes hSecond with
      ⟨back, rfl, hBack⟩
    refine ⟨front ++ back, by simp, ?_⟩
    intro c hMem
    rcases List.mem_append.mp hMem with hMem | hMem
    · exact hFront c hMem
    · exact hBack c hMem

/- Another value in the place of the one that is read. -/
theorem map
    {read : Text → Option (α × Text)}
    (hRead : StaysOnLine read)
    (f : α → β) :
    StaysOnLine fun text =>
      (read text).map (Prod.map f id) := by
  constructor
  · intro line tail hLine hTail
    rw [hRead.append hLine hTail, Option.map_map,
      Option.map_map]
    rfl
  · intro text rest value hFound
    rcases Option.map_eq_some_iff.mp hFound with
      ⟨⟨first, between⟩, hFirst, hValue⟩
    rw [Prod.map_apply, Prod.mk.injEq] at hValue
    rw [← hValue.2]
    exact hRead.takes hFirst

/- A reader that takes nothing. -/
theorem pure (value : α) :
    StaysOnLine fun text => some (value, text) := by
  constructor
  · intro line tail _ _
    rfl
  · intro text rest found hFound
    rw [Option.some.injEq, Prod.mk.injEq] at hFound
    exact ⟨[], hFound.2, List.forall_mem_nil _⟩

/- A reader that finds nothing. -/
theorem fail :
    StaysOnLine fun _ => (none : Option (α × Text)) := by
  constructor
  · intro line tail _ _
    rfl
  · intro text rest value hFound
    cases hFound

/- A reader that begins with a plain character. -/
theorem cons
    {next : Char → Text → Option (α × Text)}
    (hNext :
      ∀ c, isPlain c = true → StaysOnLine (next c))
    (hSpecial :
      ∀ c ∈ specialChars, ∀ rest, next c rest = none) :
    StaysOnLine fun text =>
      match text with
      | [] => none
      | c :: rest => next c rest := by
  constructor
  · intro line tail hLine hTail
    cases line with
    | nil =>
        rcases hTail with rfl | ⟨rest, rfl⟩
        · rfl
        · exact hSpecial '\n' (by decide) rest
    | cons c line =>
        by_cases hMem : c ∈ specialChars
        · change
            next c (line ++ tail) =
              (next c line).map (Prod.map id (· ++ tail))
          rw [hSpecial c hMem, hSpecial c hMem]
          rfl
        · have hRest : '\n' ∉ line := by
            intro hFeed
            exact hLine (List.mem_cons_of_mem _ hFeed)
          exact
            (hNext c (isPlain_of_not_mem hMem)).append hRest
              hTail
  · intro text rest value hFound
    cases text with
    | nil => cases hFound
    | cons c text =>
        change next c text = _ at hFound
        by_cases hMem : c ∈ specialChars
        · rw [hSpecial c hMem] at hFound
          cases hFound
        · have hPlain := isPlain_of_not_mem hMem
          rcases (hNext c hPlain).takes hFound with
            ⟨taken, rfl, hTaken⟩
          refine ⟨c :: taken, rfl, ?_⟩
          intro other hIn
          rcases List.mem_cons.mp hIn with rfl | hIn
          · exact hPlain
          · exact hTaken other hIn

/- A plain character that has to come first. -/
theorem expect
    {c : Char}
    (hPlain : isPlain c = true)
    {next : Text → Option (α × Text)}
    (hNext : StaysOnLine next) :
    StaysOnLine fun text => expect? c text >>= next := by
  have hSame :
      (fun text => expect? c text >>= next) =
        fun text =>
          match text with
          | [] => none
          | d :: rest => if c = d then next rest else none := by
    funext text
    cases text with
    | nil => rfl
    | cons d rest =>
        by_cases hChar : c = d
        · simp [expect?, hChar]
        · simp [expect?, hChar]
  rw [hSame]
  refine .cons ?_ ?_
  · intro d _
    by_cases hChar : c = d
    · simpa [hChar] using hNext
    · simpa [hChar] using fail
  · intro d hMem rest
    rw [if_neg]
    rintro rfl
    have hOther : ∀ c ∈ specialChars, isPlain c = false := by
      decide
    rw [hOther c hMem] at hPlain
    cases hPlain

/- A reader, or another one if it finds nothing. -/
theorem or
    {read other : Text → Option (α × Text)}
    (hRead : StaysOnLine read)
    (hOther : StaysOnLine other) :
    StaysOnLine fun text => (read text).or (other text) := by
  constructor
  · intro line tail hLine hTail
    rw [hRead.append hLine hTail, hOther.append hLine hTail]
    cases read line with
    | none => rfl
    | some found => rfl
  · intro text rest value hFound
    cases hFirst : read text with
    | none =>
        rw [hFirst, Option.none_or] at hFound
        exact hOther.takes hFound
    | some found =>
        rw [hFirst, Option.some_or] at hFound
        rw [hFound] at hFirst
        exact hRead.takes hFirst

/- A part that may be missing. -/
theorem optional
    {read : Text → Option (α × Text)}
    (hRead : StaysOnLine read)
    (default : α) :
    StaysOnLine fun text =>
      some ((read text).getD (default, text)) := by
  constructor
  · intro line tail hLine hTail
    rw [hRead.append hLine hTail]
    cases read line with
    | none => rfl
    | some found => rfl
  · intro text rest value hFound
    rw [Option.some.injEq] at hFound
    cases hPart : read text with
    | none =>
        rw [hPart, Option.getD_none, Prod.mk.injEq] at hFound
        exact ⟨[], hFound.2, List.forall_mem_nil _⟩
    | some found =>
        rw [hPart, Option.getD_some] at hFound
        rw [hFound] at hPart
        exact hRead.takes hPart

end StaysOnLine

------------------------------------------------------------
-- Characters And Words
------------------------------------------------------------

theorem expect?_eq_none
    {c : Char}
    {text : Text}
    (hOther : ∀ rest, text ≠ c :: rest) :
    expect? c text = none := by
  cases text with
  | nil => rfl
  | cons d rest =>
      apply if_neg
      rintro rfl
      exact hOther rest rfl

theorem expect?_self
    (c : Char)
    (rest : Text) :
    expect? c (c :: rest) = some rest :=
  if_pos rfl

theorem drop_takeWhile_length
    (p : Char → Bool)
    (line tail : Text) :
    (line ++ tail).drop (line.takeWhile p).length =
      line.dropWhile p ++ tail := by
  induction line with
  | nil => rfl
  | cons c line ih =>
      cases hChar : p c with
      | true => simpa [hChar] using ih
      | false => simp [hChar]

/- Characters of one kind, and at least one of them. -/
def takeSome?
    (p : Char → Bool)
    (text : Text) : Option (Text × Text) :=
  let found := text.takeWhile p
  if found.isEmpty then none
  else some (found, text.drop found.length)

theorem staysOnLine_takeSome?
    {p : Char → Bool}
    (hSpecial : ∀ c ∈ specialChars, p c = false) :
    StaysOnLine (takeSome? p) := by
  constructor
  · intro line tail hLine hTail
    have hRest := drop_takeWhile_length p line []
    rw [List.append_nil, List.append_nil] at hRest
    simp only [takeSome?, drop_takeWhile_length, hRest,
      takeWhile_append_tail (hSpecial '\n' (by decide)) hTail]
    split <;> rfl
  · intro text rest value hFound
    simp only [takeSome?] at hFound
    split at hFound
    · cases hFound
    · have hRest := drop_takeWhile_length p text []
      rw [List.append_nil, List.append_nil] at hRest
      rw [Option.some.injEq, Prod.mk.injEq, hRest] at hFound
      refine ⟨text.takeWhile p, ?_, ?_⟩
      · rw [← hFound.2, List.takeWhile_append_dropWhile]
      · intro c hMem
        exact
          isPlain_of_forall hSpecial
            (List.all_eq_true.mp List.all_takeWhile c hMem)

/- A word, with what it stands for. -/
def word?
    (word : Text)
    (value : α)
    (text : Text) : Option (α × Text) :=
  (Text.stripPrefix? word text).map fun rest => (value, rest)

theorem word?_eq_none
    {word text : Text}
    (value : α)
    (hOther : ∀ rest, text ≠ word ++ rest) :
    word? word value text = none := by
  unfold word?
  cases hStrip : Text.stripPrefix? word text with
  | none => rfl
  | some rest =>
      exact
        absurd (Text.append_of_stripPrefix? hStrip)
          (hOther rest)

theorem staysOnLine_word?
    {word : Text}
    (hPlain : ∀ c ∈ word, isPlain c = true)
    (value : α) :
    StaysOnLine (word? word value) := by
  induction word with
  | nil => exact .pure value
  | cons c word ih =>
      have hSame :
          word? (c :: word) value = fun text =>
            expect? c text >>= word? word value := by
        funext text
        cases text with
        | nil => rfl
        | cons d rest =>
            by_cases hChar : c = d
            · simp [word?, Text.stripPrefix?, expect?, hChar]
            · simp [word?, Text.stripPrefix?, expect?, hChar]
      rw [hSame]
      exact
        .expect (hPlain c List.mem_cons_self)
          (ih fun d hMem =>
            hPlain d (List.mem_cons_of_mem _ hMem))

------------------------------------------------------------
-- Digits
------------------------------------------------------------

section Digits

variable {p : Char → Bool}

theorem digitRun_of_not
    {c : Char}
    (hChar : p c = false)
    (rest : Text) :
    digitRun p (c :: rest) = ([], c :: rest) := by
  rw [digitRun.eq_def]
  split
  · next hNil => cases hNil
  · next hCons =>
    rw [List.cons.injEq] at hCons
    rcases hCons with ⟨rfl, rfl⟩
    simp [hChar]
  · next hCons =>
    rw [List.cons.injEq] at hCons
    rcases hCons with ⟨rfl, rfl⟩
    simp [hChar]

variable (hUnderscore : p '_' = false)

include hUnderscore

/- A digit that no underscore with a digit follows. -/
theorem digitRun_cons
    {c : Char}
    (hChar : p c = true)
    {rest : Text}
    (hNext :
      ∀ d after, rest = '_' :: d :: after → p d = false) :
    digitRun p (c :: rest) =
      (c :: (digitRun p rest).1, (digitRun p rest).2) := by
  rw [digitRun.eq_def]
  split
  · next hNil => cases hNil
  · next d after hCons =>
    rw [List.cons.injEq] at hCons
    rcases hCons with ⟨rfl, rfl⟩
    have hStops := hNext d after rfl
    simp [hChar, hStops, digitRun_of_not hUnderscore]
  · next hCons =>
    rw [List.cons.injEq] at hCons
    rcases hCons with ⟨rfl, rfl⟩
    simp [hChar]

/- Digits in a row go on up to the end of the line at most. -/
theorem digitRun_append
    (hFeed : p '\n' = false)
    {line tail : Text}
    (hTail : FollowsLine tail) :
    digitRun p (line ++ tail) =
      Prod.map id (· ++ tail) (digitRun p line) := by
  fun_induction digitRun p line with
  | case1 =>
      rcases hTail with rfl | ⟨rest, rfl⟩
      · rfl
      · exact digitRun_of_not hFeed rest
  | case2 c d rest hBoth digits final hRun ih =>
      simp only [List.cons_append] at ih ⊢
      rw [digitRun, if_pos hBoth, ih, hRun]
      rfl
  | case3 c d rest hBoth hChar =>
      simp only [List.cons_append]
      rw [digitRun, if_neg hBoth, if_pos hChar]
      rfl
  | case4 c d rest hBoth hChar =>
      exact digitRun_of_not (Bool.eq_false_iff.mpr hChar) _
  | case5 c rest hOther hChar digits final hRun ih =>
      rw [hRun] at ih
      rw [List.cons_append, digitRun_cons hUnderscore hChar,
        ih]
      · rfl
      · intro d after hAfter
        cases rest with
        | nil =>
            rcases hTail with rfl | ⟨others, rfl⟩
            · cases hAfter
            · cases hAfter
        | cons e rest =>
            rw [List.cons_append, List.cons.injEq] at hAfter
            rcases hAfter with ⟨rfl, hAfter⟩
            cases rest with
            | nil =>
                rcases hTail with rfl | ⟨others, rfl⟩
                · cases hAfter
                · cases hAfter
                  exact hFeed
            | cons f rest => exact (hOther f rest rfl).elim
  | case6 c rest hOther hChar =>
      exact digitRun_of_not (Bool.eq_false_iff.mpr hChar) _

end Digits

/- Digits in a row are taken with their underscores. -/
theorem digitRun_takes
    {p : Char → Bool}
    (hSpecial : ∀ c ∈ specialChars, p c = false)
    (text : Text) :
    ∃ taken,
      text = taken ++ (digitRun p text).2 ∧
        ∀ c ∈ taken, isPlain c = true := by
  fun_induction digitRun p text with
  | case1 => exact ⟨[], rfl, List.forall_mem_nil _⟩
  | case2 c d rest hBoth digits final hRun ih =>
      rw [hRun] at ih
      rcases ih with ⟨taken, hText, hTaken⟩
      rw [Bool.and_eq_true] at hBoth
      refine ⟨c :: '_' :: taken, ?_, ?_⟩
      · rw [hText]
        rfl
      · intro other hMem
        rcases List.mem_cons.mp hMem with rfl | hMem
        · exact isPlain_of_forall hSpecial hBoth.1
        rcases List.mem_cons.mp hMem with rfl | hMem
        · decide
        · exact hTaken other hMem
  | case3 c d rest hBoth hChar =>
      refine ⟨[c], rfl, ?_⟩
      intro other hMem
      rw [List.mem_singleton.mp hMem]
      exact isPlain_of_forall hSpecial hChar
  | case4 c d rest hBoth hChar =>
      exact ⟨[], rfl, List.forall_mem_nil _⟩
  | case5 c rest hOther hChar digits final hRun ih =>
      rw [hRun] at ih
      rcases ih with ⟨taken, hText, hTaken⟩
      refine ⟨c :: taken, ?_, ?_⟩
      · rw [hText]
        rfl
      · intro other hMem
        rcases List.mem_cons.mp hMem with rfl | hMem
        · exact isPlain_of_forall hSpecial hChar
        · exact hTaken other hMem
  | case6 c rest hOther hChar =>
      exact ⟨[], rfl, List.forall_mem_nil _⟩

/- Digits in a row, and at least one of them. -/
def someDigits?
    (p : Char → Bool)
    (text : Text) : Option (Text × Text) :=
  if (digitRun p text).1.isEmpty then none
  else some (digitRun p text)

theorem staysOnLine_someDigits?
    {p : Char → Bool}
    (hSpecial : ∀ c ∈ specialChars, p c = false)
    (hUnderscore : p '_' = false) :
    StaysOnLine (someDigits? p) := by
  constructor
  · intro line tail hLine hTail
    unfold someDigits?
    rw [digitRun_append hUnderscore
      (hSpecial '\n' (by decide)) hTail, Prod.map_fst, id_eq]
    split <;> rfl
  · intro text rest value hFound
    unfold someDigits? at hFound
    split at hFound
    · cases hFound
    · rw [Option.some.injEq] at hFound
      have hTakes := digitRun_takes hSpecial text
      rw [hFound] at hTakes
      exact hTakes

theorem someDigits?_of_not
    {p : Char → Bool}
    {c : Char}
    (hChar : p c = false)
    (rest : Text) :
    someDigits? p (c :: rest) = none := by
  unfold someDigits?
  rw [digitRun_of_not hChar]
  rfl

end Toml

end ScriptWorkspace
