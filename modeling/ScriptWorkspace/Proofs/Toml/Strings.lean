import ScriptWorkspace.Proofs.Toml.Margin

/-
  What a reader takes, and strings on one line.

  An escape and a string on one line are read from their own
  characters alone, whatever follows them.

  Main declarations:
    * `Toml.Takes`
    * `Toml.exists_of_readEscape`
    * `Toml.IsShortString`
    * `Toml.exists_of_readShortString?`
-/

namespace ScriptWorkspace

namespace Toml

------------------------------------------------------------
-- What Is Taken
------------------------------------------------------------

/- What is left is the end; no carriage return was taken. -/
def Takes (text rest : Text) : Prop :=
  ∃ taken, text = taken ++ rest ∧ '\r' ∉ taken

namespace Takes

theorem refl (text : Text) : Takes text text :=
  ⟨[], rfl, List.not_mem_nil⟩

theorem trans
    {text between rest : Text}
    (hFront : Takes text between)
    (hBack : Takes between rest) : Takes text rest := by
  rcases hFront with ⟨front, rfl, hFront⟩
  rcases hBack with ⟨back, rfl, hBack⟩
  refine ⟨front ++ back, by simp, ?_⟩
  rw [List.mem_append, not_or]
  exact ⟨hFront, hBack⟩

theorem cons
    {c : Char}
    (hReturn : c ≠ '\r')
    {text rest : Text}
    (hTakes : Takes text rest) : Takes (c :: text) rest := by
  rcases hTakes with ⟨taken, rfl, hTaken⟩
  refine ⟨c :: taken, rfl, ?_⟩
  rw [List.mem_cons, not_or]
  exact ⟨Ne.symm hReturn, hTaken⟩

theorem length_le
    {text rest : Text}
    (hTakes : Takes text rest) :
    rest.length ≤ text.length := by
  rcases hTakes with ⟨taken, rfl, _⟩
  simp

theorem dropWhile
    {p : Char → Bool}
    (hReturn : p '\r' = false)
    (text : Text) :
    Takes text (text.dropWhile p) := by
  refine
    ⟨text.takeWhile p,
      (List.takeWhile_append_dropWhile).symm, ?_⟩
  intro hMem
  rw [List.all_eq_true.mp List.all_takeWhile _ hMem]
    at hReturn
  cases hReturn

end Takes

theorem StaysOnLine.takes_rest
    {α : Type}
    {read : Text → Option (α × Text)}
    (hRead : StaysOnLine read)
    {text rest : Text}
    {value : α}
    (hFound : read text = some (value, rest)) :
    Takes text rest := by
  rcases hRead.takes hFound with ⟨taken, rfl, hPlain⟩
  refine ⟨taken, rfl, ?_⟩
  intro hMem
  exact absurd (hPlain _ hMem) (by decide)

------------------------------------------------------------
-- Escapes
------------------------------------------------------------

/- The characters are hexadecimal digits. -/
def AreHexDigits (digits : Text) : Prop :=
  ∀ c ∈ digits, (Text.hexDigit? c).isSome = true

theorem AreHexDigits.not_mem
    {digits : Text}
    (hDigits : AreHexDigits digits)
    {c : Char}
    (hOther : Text.hexDigit? c = none) : c ∉ digits := by
  intro hMem
  have hSome := hDigits c hMem
  rw [hOther] at hSome
  cases hSome

/- An escape with digits is read from its digits alone. -/
theorem exists_of_readCodePoint
    {count : Nat}
    {text rest : Text}
    {c : Char}
    (hRead : readCodePoint count text = .ok (c, rest)) :
    ∃ digits,
      text = digits ++ rest ∧
        AreHexDigits digits ∧
        ∀ other,
          readCodePoint count (digits ++ other) =
            .ok (c, other) := by
  unfold readCodePoint at hRead
  simp only at hRead
  split at hRead
  · next hDigits =>
    rw [Except.ok.injEq, Prod.mk.injEq] at hRead
    have hParts := hDigits
    simp only [Bool.and_eq_true, decide_eq_true_eq]
      at hParts
    refine ⟨text.take count, ?_, ?_, ?_⟩
    · rw [← hRead.2, List.take_append_drop]
    · exact List.all_eq_true.mp hParts.1.2
    · intro other
      unfold readCodePoint
      rw [List.take_left' hParts.1.1,
        List.drop_left' hParts.1.1]
      simp only
      rw [if_pos hDigits, hRead.1]
  · cases hRead

/- An escape is read from its characters alone. -/
theorem exists_of_readEscape
    {text rest : Text}
    {c : Char}
    (hRead : readEscape text = .ok (c, rest)) :
    ∃ sign digits,
      text = sign :: (digits ++ rest) ∧
        isSpaceOrNewline sign = false ∧
        sign ≠ '\r' ∧
        AreHexDigits digits ∧
        ∀ other,
          readEscape (sign :: (digits ++ other)) =
            .ok (c, other) := by
  unfold readEscape at hRead
  split at hRead
  · rcases exists_of_readCodePoint hRead with
      ⟨digits, rfl, hDigits, hOther⟩
    exact
      ⟨'u', digits, rfl, by decide, by decide, hDigits,
        hOther⟩
  · rcases exists_of_readCodePoint hRead with
      ⟨digits, rfl, hDigits, hOther⟩
    exact
      ⟨'U', digits, rfl, by decide, by decide, hDigits,
        hOther⟩
  · next sign after hShort hLong =>
    cases hEscape : simpleEscape? sign with
    | none => simp [hEscape] at hRead
    | some escaped =>
        simp only [hEscape, Except.ok.injEq,
          Prod.mk.injEq] at hRead
        rcases hRead with ⟨rfl, rfl⟩
        have hOther :
            ∀ d,
              simpleEscape? d = none → sign ≠ d := by
          rintro d hNone rfl
          rw [hNone] at hEscape
          cases hEscape
        refine
          ⟨sign, [], rfl, ?_, hOther _ (by decide),
            List.forall_mem_nil _, ?_⟩
        · simp [isSpaceOrNewline, isSpace,
            hOther ' ' (by decide), hOther '\t' (by decide),
            hOther '\n' (by decide)]
        · intro other
          rw [List.nil_append, readEscape, hEscape]
          · exact hShort
          · exact hLong
  · cases hRead

theorem takes_of_readEscape
    {text rest : Text}
    {c : Char}
    (hRead : readEscape text = .ok (c, rest)) :
    Takes text rest := by
  rcases exists_of_readEscape hRead with
    ⟨sign, digits, rfl, _, hReturn, hDigits, _⟩
  exact .cons hReturn ⟨digits, rfl, hDigits.not_mem (by decide)⟩

------------------------------------------------------------
-- Strings On One Line
------------------------------------------------------------

theorem isFlush_basic_digits
    {digits : Text}
    (hDigits : AreHexDigits digits)
    (rest : Text) :
    isFlush .basic (digits ++ rest) = isFlush .basic rest := by
  have hQuote : '"' ∉ digits := hDigits.not_mem (by decide)
  have hEscape : '\\' ∉ digits := hDigits.not_mem (by decide)
  clear hDigits
  induction digits with
  | nil => rfl
  | cons c digits ih =>
      rw [List.mem_cons, not_or] at hQuote hEscape
      rw [List.cons_append,
        isFlush_basic_cons (Ne.symm hQuote.1)
          (Ne.symm hEscape.1),
        ih hQuote.2 hEscape.2]

/-
  A string on one line, behind its opening quote: it is read
  from the characters up to its closing quote alone.
-/
structure IsShortString
    (place : Place)
    (read : Text → Except Fault (Text × Text))
    (content taken : Text) : Prop where
  feed : '\n' ∉ taken
  carriage : '\r' ∉ taken
  flush :
    ∀ other,
      isFlush place (taken ++ other) = isFlush .outside other
  reads : ∀ other, read (taken ++ other) = .ok (content, other)

theorem ne_of_not_isControl
    {c : Char}
    (hChar : isControl c = false) :
    c ≠ '\n' ∧ c ≠ '\r' := by
  constructor
  · rintro rfl
    exact absurd hChar (by decide)
  · rintro rfl
    exact absurd hChar (by decide)

section ShortStrings

variable {place : Place}
variable {read readRest : Text → Except Fault (Text × Text)}
variable {content taken : Text}

/- One more character of a string. -/
theorem IsShortString.cons
    {c : Char}
    (hChar : isControl c = false)
    (hFlush :
      ∀ other, isFlush place (c :: other) = isFlush place other)
    (hRead :
      ∀ other rest,
        readRest other = .ok (content, rest) →
        read (c :: other) = .ok (c :: content, rest))
    (hShort : IsShortString place readRest content taken) :
    IsShortString place read (c :: content) (c :: taken) := by
  have hEnds := ne_of_not_isControl hChar
  constructor
  · rw [List.mem_cons, not_or]
    exact ⟨Ne.symm hEnds.1, hShort.feed⟩
  · rw [List.mem_cons, not_or]
    exact ⟨Ne.symm hEnds.2, hShort.carriage⟩
  · intro other
    rw [List.cons_append, hFlush, hShort.flush]
  · intro other
    exact hRead _ _ (hShort.reads other)

/- One more escape of a string. -/
theorem IsShortString.escape
    {sign escaped : Char}
    {digits : Text}
    (hSign : isSpaceOrNewline sign = false)
    (hReturn : sign ≠ '\r')
    (hDigits : AreHexDigits digits)
    (hRead :
      ∀ other rest,
        readRest other = .ok (content, rest) →
        read ('\\' :: sign :: (digits ++ other)) =
          .ok (escaped :: content, rest))
    (hShort : IsShortString .basic readRest content taken) :
    IsShortString .basic read (escaped :: content)
      ('\\' :: sign :: (digits ++ taken)) := by
  have hFeed : sign ≠ '\n' := by
    rintro rfl
    exact absurd hSign (by decide)
  have hNoFeed : '\n' ∉ digits := hDigits.not_mem (by decide)
  have hNoReturn : '\r' ∉ digits :=
    hDigits.not_mem (by decide)
  constructor
  · simp [Ne.symm hFeed, hNoFeed, hShort.feed]
  · simp [Ne.symm hReturn, hNoReturn, hShort.carriage]
  · intro other
    rw [List.cons_append, List.cons_append, isFlush,
      List.append_assoc, isFlush_basic_digits hDigits,
      hShort.flush]
  · intro other
    rw [List.cons_append, List.cons_append,
      List.append_assoc]
    exact hRead _ _ (hShort.reads other)

end ShortStrings

/- One more character in front of what is read. -/
theorem map_cons_eq_ok_iff
    {c : Char}
    {reading : Except Fault (Text × Text)}
    {content rest : Text} :
    (do
      let (text, rest) ← reading
      return (c :: text, rest) : Except Fault (Text × Text)) =
        .ok (content, rest) ↔
      ∃ more,
        content = c :: more ∧ reading = .ok (more, rest) := by
  cases reading with
  | error fault => simp [bind, Except.bind]
  | ok found =>
      rcases found with ⟨text, after⟩
      simp only [bind, Except.bind, pure, Except.pure,
        Except.ok.injEq, Prod.mk.injEq]
      constructor
      · rintro ⟨rfl, rfl⟩
        exact ⟨text, rfl, rfl, rfl⟩
      · rintro ⟨more, rfl, rfl, rfl⟩
        exact ⟨rfl, rfl⟩

theorem readLiteral_cons_iff
    {c : Char}
    (hQuote : c ≠ '\'')
    {text content rest : Text} :
    readLiteral (c :: text) = .ok (content, rest) ↔
      isControl c = false ∧
        ∃ more,
          content = c :: more ∧
            readLiteral text = .ok (more, rest) := by
  rw [readLiteral]
  · cases hControl : isControl c with
    | true => simp [bind, Except.bind, throw, throwThe,
        MonadExceptOf.throw]
    | false =>
        simp only [Bool.false_eq_true, if_false, true_and]
        exact map_cons_eq_ok_iff
  · exact hQuote

theorem readBasic_cons_iff
    {c : Char}
    (hQuote : c ≠ '"')
    (hEscape : c ≠ '\\')
    {fuel : Nat}
    {text content rest : Text} :
    readBasic (fuel + 1) (c :: text) = .ok (content, rest) ↔
      isControl c = false ∧
        ∃ more,
          content = c :: more ∧
            readBasic fuel text = .ok (more, rest) := by
  rw [readBasic]
  · cases hControl : isControl c with
    | true => simp [bind, Except.bind, throw, throwThe,
        MonadExceptOf.throw]
    | false =>
        simp only [Bool.false_eq_true, if_false, true_and]
        exact map_cons_eq_ok_iff
  · exact hQuote
  · exact hEscape

theorem readBasic_escape_iff
    {fuel : Nat}
    {text content rest : Text} :
    readBasic (fuel + 1) ('\\' :: text) =
        .ok (content, rest) ↔
      ∃ c after more,
        readEscape text = .ok (c, after) ∧
          content = c :: more ∧
          readBasic fuel after = .ok (more, rest) := by
  rw [readBasic]
  cases hRead : readEscape text with
  | error fault => simp [bind, Except.bind]
  | ok found =>
      rcases found with ⟨c, after⟩
      refine map_cons_eq_ok_iff.trans ?_
      constructor
      · rintro ⟨more, hContent, hMore⟩
        exact ⟨c, after, more, rfl, hContent, hMore⟩
      · rintro ⟨_, _, more, hSame, hContent, hMore⟩
        cases hSame
        exact ⟨more, hContent, hMore⟩

theorem exists_of_readLiteral
    {text content rest : Text}
    (hRead : readLiteral text = .ok (content, rest)) :
    ∃ taken,
      text = taken ++ rest ∧
        IsShortString .literal readLiteral content taken := by
  induction text generalizing content with
  | nil => cases hRead
  | cons c text ih =>
      by_cases hQuote : c = '\''
      · subst c
        cases hRead
        refine ⟨['\''], rfl, by decide, by decide, ?_, ?_⟩
        · intro other
          rw [List.singleton_append, isFlush]
        · intro other
          rfl
      · rw [readLiteral_cons_iff hQuote] at hRead
        rcases hRead with ⟨hChar, more, rfl, hRead⟩
        rcases ih hRead with ⟨taken, rfl, hShort⟩
        refine ⟨c :: taken, rfl, ?_⟩
        apply hShort.cons hChar
        · exact isFlush_literal_cons hQuote
        · intro other rest hOther
          rw [readLiteral_cons_iff hQuote]
          exact ⟨hChar, more, rfl, hOther⟩

/- The fuel counts for the characters of the string. -/
theorem exists_of_readBasic
    {fuel : Nat}
    {text content rest : Text}
    (hRead : readBasic fuel text = .ok (content, rest)) :
    ∃ taken,
      text = taken ++ rest ∧
        ∀ more,
          taken.length ≤ more →
            IsShortString .basic (readBasic more) content
              taken := by
  induction fuel generalizing text content with
  | zero => cases hRead
  | succ fuel ih =>
      cases text with
      | nil => cases hRead
      | cons c text =>
          by_cases hQuote : c = '"'
          · subst c
            cases hRead
            refine ⟨['"'], rfl, ?_⟩
            intro more hMore
            rcases Nat.exists_eq_add_of_lt hMore with
              ⟨less, rfl⟩
            refine ⟨by decide, by decide, ?_, ?_⟩
            · intro other
              rw [List.singleton_append, isFlush]
            · intro other
              rfl
          by_cases hEscape : c = '\\'
          · subst c
            rw [readBasic_escape_iff] at hRead
            rcases hRead with
              ⟨escaped, after, tail, hEscaped, rfl, hRead⟩
            rcases exists_of_readEscape hEscaped with
              ⟨sign, digits, rfl, hSign, hReturn, hDigits,
                hOther⟩
            rcases ih hRead with ⟨taken, rfl, hShort⟩
            refine
              ⟨'\\' :: sign :: (digits ++ taken), by simp, ?_⟩
            intro more hMore
            rcases Nat.exists_eq_add_of_lt hMore with
              ⟨less, rfl⟩
            have hLength :
                taken.length ≤
                  (sign :: (digits ++ taken)).length + less := by
              simp only [List.length_cons, List.length_append]
              omega
            apply
              (hShort _ hLength).escape hSign hReturn hDigits
            intro other rest hRest
            rw [readBasic_escape_iff]
            exact
              ⟨escaped, other, tail, hOther _, rfl, hRest⟩
          · rw [readBasic_cons_iff hQuote hEscape] at hRead
            rcases hRead with ⟨hChar, tail, rfl, hRead⟩
            rcases ih hRead with ⟨taken, rfl, hShort⟩
            refine ⟨c :: taken, rfl, ?_⟩
            intro more hMore
            rcases Nat.exists_eq_add_of_lt hMore with
              ⟨less, rfl⟩
            apply
              (hShort _ (Nat.le_add_right _ less)).cons hChar
            · intro other
              exact isFlush_basic_cons hQuote hEscape other
            · intro other rest hRest
              rw [readBasic_cons_iff hQuote hEscape]
              exact ⟨hChar, tail, rfl, hRest⟩

theorem isFlush_quote
    {rest : Text}
    (hQuotes : ¬ StartsWithThree '"' ('"' :: rest)) :
    isFlush .outside ('"' :: rest) = isFlush .basic rest := by
  rw [isFlush]
  rintro after rfl
  exact hQuotes ⟨after, rfl⟩

theorem isFlush_apostrophe
    {rest : Text}
    (hQuotes : ¬ StartsWithThree '\'' ('\'' :: rest)) :
    isFlush .outside ('\'' :: rest) =
      isFlush .literal rest := by
  rw [isFlush]
  rintro after rfl
  exact hQuotes ⟨after, rfl⟩

/-
  A string on one line: its characters tell what it says. If
  they are the beginning of three quotes, another string
  begins there.
-/
theorem exists_of_readShortString?
    {text content rest : Text}
    (hRead :
      readShortString? text = some (.ok (content, rest))) :
    ∃ taken,
      text = taken ++ rest ∧
        '\n' ∉ taken ∧
        '\r' ∉ taken ∧
        (∀ other,
          readShortString? (taken ++ other) =
            some (.ok (content, other))) ∧
        ∀ other,
          ¬ StartsWithThree '"' (taken ++ other) →
          ¬ StartsWithThree '\'' (taken ++ other) →
          isFlush .outside (taken ++ other) =
            isFlush .outside other := by
  unfold readShortString? at hRead
  split at hRead
  · rw [Option.some.injEq] at hRead
    rcases exists_of_readBasic hRead with
      ⟨taken, rfl, hShort⟩
    have hSelf := hShort taken.length (Nat.le_refl _)
    refine ⟨'"' :: taken, rfl, ?_, ?_, ?_, ?_⟩
    · simpa using hSelf.feed
    · simpa using hSelf.carriage
    · intro other
      rw [List.cons_append, readShortString?]
      rw [(hShort _ ?_).reads]
      rw [List.length_append]
      omega
    · intro other hQuotes _
      rw [← hSelf.flush other]
      exact isFlush_quote hQuotes
  · rw [Option.some.injEq] at hRead
    rcases exists_of_readLiteral hRead with
      ⟨taken, rfl, hShort⟩
    refine ⟨'\'' :: taken, rfl, ?_, ?_, ?_, ?_⟩
    · simpa using hShort.feed
    · simpa using hShort.carriage
    · intro other
      rw [List.cons_append, readShortString?, hShort.reads]
    · intro other _ hQuotes
      rw [← hShort.flush other]
      exact isFlush_apostrophe hQuotes
  · cases hRead

theorem takes_of_readShortString?
    {text content rest : Text}
    (hRead :
      readShortString? text = some (.ok (content, rest))) :
    Takes text rest := by
  rcases exists_of_readShortString? hRead with
    ⟨taken, hText, _, hReturn, _⟩
  exact ⟨taken, hText, hReturn⟩

/- What begins with no quote is no string. -/
theorem readShortString?_eq_none_iff (text : Text) :
    readShortString? text = none ↔
      text.head? ≠ some '"' ∧ text.head? ≠ some '\'' := by
  unfold readShortString?
  split
  · simp
  · simp
  · next hQuote hApostrophe =>
    cases text with
    | nil => simp
    | cons c text => simp_all

end Toml

end ScriptWorkspace
