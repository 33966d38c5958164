import ScriptWorkspace.Proofs.Toml.Strings

/-
  Strings in a text that loses its indentation.

  A string of several lines keeps its content if none of its
  lines begins with a space, folded lines apart. What closes
  it is found at the same character, and so is every string
  behind it.

  Main declarations:
    * `Toml.AreExtra`
    * `Toml.skipFolded_moved`
    * `Toml.ReadsLongBasic`
    * `Toml.IsKept`
    * `Toml.isKept_readMultilineBasic`
    * `Toml.isKept_readMultilineLiteral`
    * `Toml.readString?_moved`
-/

namespace ScriptWorkspace

namespace Toml

------------------------------------------------------------
-- The End Of A Long String
------------------------------------------------------------

/- Quotes that a long string may end in. -/
structure AreExtra
    (quote : Char)
    (extra rest : Text) : Prop where
  quotes :
    ∃ count,
      extra = List.replicate count quote ∧ count ≤ 2
  stops : extra.length = 2 ∨ rest.head? ≠ some quote

theorem exists_of_takeExtraQuotes
    (quote : Char)
    (text : Text) :
    text =
        (takeExtraQuotes quote text).1 ++
          (takeExtraQuotes quote text).2 ∧
      AreExtra quote (takeExtraQuotes quote text).1
        (takeExtraQuotes quote text).2 := by
  fun_cases takeExtraQuotes quote text with
  | case1 rest => exact ⟨rfl, ⟨2, rfl, by decide⟩, .inl rfl⟩
  | case2 b rest hOther =>
      exact
        ⟨rfl, ⟨1, rfl, by decide⟩,
          .inr (by simpa using hOther)⟩
  | case3 a b rest hOther =>
      exact
        ⟨rfl, ⟨0, rfl, by decide⟩,
          .inr (by simpa using hOther)⟩
  | case4 => exact ⟨rfl, ⟨1, rfl, by decide⟩, .inr (by simp)⟩
  | case5 a hOther =>
      exact
        ⟨rfl, ⟨0, rfl, by decide⟩,
          .inr (by simpa using hOther)⟩
  | case6 => exact ⟨rfl, ⟨0, rfl, by decide⟩, .inr (by simp)⟩

theorem AreExtra.takeExtraQuotes_eq
    {quote : Char}
    {extra rest : Text}
    (hExtra : AreExtra quote extra rest) :
    takeExtraQuotes quote (extra ++ rest) = (extra, rest) := by
  rcases hExtra with ⟨⟨count, rfl, hCount⟩, hStops⟩
  match count, hCount with
  | 0, _ =>
    rcases rest with _ | ⟨a, _ | ⟨b, rest⟩⟩ <;>
      simp_all [takeExtraQuotes]
  | 1, _ =>
    rcases rest with _ | ⟨b, rest⟩ <;>
      simp_all [takeExtraQuotes]
  | 2, _ => simp [takeExtraQuotes]

section LongStrings

variable {ending : Text}

/- Neither an ending nor the indentation adds to the quotes. -/
theorem AreExtra.congr_rest
    {quote : Char}
    {extra rest other : Text}
    (hExtra : AreExtra quote extra rest)
    (hHead :
      other.head? = some quote → rest.head? = some quote) :
    AreExtra quote extra other :=
  ⟨hExtra.quotes, hExtra.stops.imp_right (mt hHead)⟩

theorem AreExtra.append
    {quote : Char}
    (hFeed : quote ≠ '\n')
    (hEnding : FollowsLine ending)
    {extra rest : Text}
    (hExtra : AreExtra quote extra rest) :
    AreExtra quote extra (rest ++ ending) := by
  apply hExtra.congr_rest
  intro hHead
  cases rest with
  | nil =>
      rcases hEnding with rfl | ⟨others, rfl⟩
      · cases hHead
      · cases hHead
        exact absurd rfl hFeed
  | cons c rest => exact hHead

theorem AreExtra.moved
    {quote : Char}
    (hFeed : quote ≠ '\n')
    (hEnding : FollowsLine ending)
    {extra rest : Text}
    (hExtra : AreExtra quote extra rest) :
    AreExtra quote extra (Toml.moved ending rest) :=
  hExtra.congr_rest (head?_moved_iff hEnding hFeed rest).mp

/- The quotes that end a string do not begin a line. -/
theorem AreExtra.not_mem
    {quote c : Char}
    (hOther : quote ≠ c)
    {extra rest : Text}
    (hExtra : AreExtra quote extra rest) :
    c ∉ extra := by
  rcases hExtra.quotes with ⟨count, rfl, _⟩
  simp [Ne.symm hOther]

/- Strings of several lines, with the quote they end in. -/
inductive IsLong : Place → Char → Prop
  | basic (folded : Bool) : IsLong (.longBasic folded) '"'
  | literal : IsLong .longLiteral '\''

theorem IsLong.isFlush_quotes
    {place : Place}
    {quote : Char}
    (hLong : IsLong place quote)
    {extra rest : Text}
    (hExtra : AreExtra quote extra rest) :
    isFlush place
        (quote :: quote :: quote :: (extra ++ rest)) =
      isFlush .outside rest := by
  rcases hExtra with ⟨⟨count, rfl, hCount⟩, hStops⟩
  have hOther :
      count < 2 → ∀ after, rest ≠ quote :: after := by
    rintro hLess after rfl
    rw [List.length_replicate] at hStops
    rcases hStops with hStops | hStops
    · omega
    · exact hStops rfl
  match count, hCount with
  | 0, _ =>
    cases hLong <;>
      · rw [List.replicate_zero, List.nil_append, isFlush]
        · intro after hAfter
          exact hOther (by decide) _ hAfter
        · intro after hAfter
          exact hOther (by decide) _ hAfter
  | 1, _ =>
    cases hLong <;>
      · rw [List.replicate_one, List.singleton_append, isFlush]
        intro after hAfter
        exact hOther (by decide) _ hAfter
  | 2, _ =>
    cases hLong <;>
      · simp only [List.replicate, List.cons_append,
          List.nil_append]
        rw [isFlush]

/- The quotes that close a string, in the text they end. -/
theorem takeExtraQuotes_moved
    {quote : Char}
    (hFeed : quote ≠ '\n')
    (hEnding : FollowsLine ending)
    (text : Text) :
    takeExtraQuotes quote (moved ending text) =
      Prod.map id (moved ending)
        (takeExtraQuotes quote text) := by
  rcases exists_of_takeExtraQuotes quote text with
    ⟨hText, hExtra⟩
  have hMoved :
      takeExtraQuotes quote
          (moved ending
            ((takeExtraQuotes quote text).1 ++
              (takeExtraQuotes quote text).2)) =
        ((takeExtraQuotes quote text).1,
          moved ending (takeExtraQuotes quote text).2) := by
    rw [moved_append (hExtra.not_mem hFeed),
      (hExtra.moved hFeed hEnding).takeExtraQuotes_eq]
  rw [← hText] at hMoved
  exact hMoved

------------------------------------------------------------
-- Folded Lines
------------------------------------------------------------

theorem isSpaceOrNewline_of_isSpace
    {c : Char}
    (hSpace : isSpace c = true) :
    isSpaceOrNewline c = true := by
  simp [isSpaceOrNewline, hSpace]

/- A fold ends a line and takes the blanks behind it. -/
theorem skipFolded_eq_ok_iff
    {text after : Text}
    (hAfter : after ≠ []) :
    skipFolded text = .ok after ↔
      ∃ rest,
        text.dropWhile isSpace = '\n' :: rest ∧
          after = rest.dropWhile isSpaceOrNewline := by
  unfold skipFolded
  split
  · next hNil =>
    simp [hNil, Ne.symm hAfter]
  · next rest hNext =>
    rw [hNext, Except.ok.injEq]
    constructor
    · rintro rfl
      exact ⟨rest, rfl, rfl⟩
    · rintro ⟨_, hSame, rfl⟩
      cases hSame
      rfl
  · next hOther =>
    constructor
    · intro hOk
      cases hOk
    · rintro ⟨rest, hNext, _⟩
      exact absurd hNext (hOther rest)

theorem dropWhile_dropWhile_of_imp
    {p q : Char → Bool}
    (hImp : ∀ c, p c = true → q c = true)
    (text : Text) :
    (text.dropWhile p).dropWhile q = text.dropWhile q := by
  induction text with
  | nil => rfl
  | cons c text ih =>
      cases hChar : p c with
      | false => simp [hChar]
      | true => simp [hChar, hImp c hChar, ih]

theorem dropWhile_of_skipFolded
    {text after : Text}
    (hAfter : after ≠ [])
    (hFold : skipFolded text = .ok after) :
    text.dropWhile isSpaceOrNewline = after := by
  rcases (skipFolded_eq_ok_iff hAfter).mp hFold with
    ⟨rest, hNext, rfl⟩
  rw [← dropWhile_dropWhile_of_imp
    (fun c => isSpaceOrNewline_of_isSpace) text, hNext]
  rfl

theorem takes_of_skipFolded
    {text after : Text}
    (hAfter : after ≠ [])
    (hFold : skipFolded text = .ok after) :
    Takes text after := by
  rw [← dropWhile_of_skipFolded hAfter hFold]
  exact .dropWhile (by decide) text

theorem dropWhile_append_of_ne_nil
    {p : Char → Bool}
    {text : Text}
    (hRest : text.dropWhile p ≠ [])
    (other : Text) :
    (text ++ other).dropWhile p =
      text.dropWhile p ++ other := by
  rw [List.dropWhile_append, if_neg]
  rw [List.isEmpty_iff]
  exact hRest

/- Blanks are dropped just the same at the margin. -/
theorem dropWhile_moved
    {p : Char → Bool}
    (hSpace : p ' ' = true)
    {text : Text}
    (hRest : text.dropWhile p ≠ []) :
    (moved ending text).dropWhile p =
      moved ending (text.dropWhile p) := by
  unfold moved
  rw [dropWhile_unindented hSpace,
    dropWhile_append_of_ne_nil hRest]

theorem skipFolded_moved
    {text after : Text}
    (hAfter : after ≠ [])
    (hFold : skipFolded text = .ok after) :
    skipFolded (moved ending text) =
      .ok (moved ending after) := by
  rcases (skipFolded_eq_ok_iff hAfter).mp hFold with
    ⟨rest, hNext, rfl⟩
  rw [skipFolded_eq_ok_iff (moved_ne_nil hAfter ending)]
  refine ⟨unindented true (rest ++ ending), ?_, ?_⟩
  · have hPart : text.dropWhile isSpace ≠ [] := by
      rw [hNext]
      exact List.cons_ne_nil _ _
    rw [dropWhile_moved (by decide) hPart, hNext, moved,
      List.cons_append, unindented_newline]
  · rw [dropWhile_unindented (by decide),
      dropWhile_append_of_ne_nil hAfter]
    rfl

/- Blanks in a fold have no meaning. -/
theorem isFlush_folded_dropWhile (text : Text) :
    isFlush (.longBasic true)
        (text.dropWhile isSpaceOrNewline) =
      isFlush (.longBasic true) text := by
  induction text with
  | nil => rfl
  | cons c text ih =>
      cases hChar : isSpaceOrNewline c with
      | false => simp [hChar]
      | true =>
          simp only [List.dropWhile_cons, hChar, if_true, ih]
          by_cases hFeed : c = '\n'
          · subst c
            rw [isFlush]
            simp
          · have hSpace : isSpace c = true := by
              simpa [isSpaceOrNewline, hFeed] using hChar
            rw [isFlush_longBasic_cons _ _ hFeed, hSpace,
              Bool.true_and]
            · intro hThree
              have hHead := hThree.head?
              cases hHead
              exact absurd hSpace (by decide)
            · rintro rfl
              exact absurd hSpace (by decide)

/- A fold ends where a character that is no blank stands. -/
theorem isFlush_folded_eq
    {text : Text}
    (hHead :
      ∀ c, text.head? = some c → isSpaceOrNewline c = false)
    (folded : Bool) :
    isFlush (.longBasic folded) text =
      isFlush (.longBasic false) text := by
  cases text with
  | nil => rfl
  | cons c text =>
      have hChar := hHead c rfl
      have hSpace : isSpace c = false := by
        simp only [isSpaceOrNewline, Bool.or_eq_false_iff]
          at hChar
        exact hChar.1
      have hFeed : c ≠ '\n' := by
        rintro rfl
        exact absurd hChar (by decide)
      by_cases hQuotes : StartsWithThree '"' (c :: text)
      · rcases hQuotes with ⟨rest, hText⟩
        rcases exists_of_takeExtraQuotes '"' rest with
          ⟨hRest, hExtra⟩
        rw [hText, hRest,
          (IsLong.basic folded).isFlush_quotes hExtra,
          (IsLong.basic false).isFlush_quotes hExtra]
      by_cases hEscape : c = '\\'
      · subst c
        cases text with
        | nil => cases folded <;> rfl
        | cons d text =>
            rw [isFlush, isFlush]
      · rw [isFlush_longBasic_cons hQuotes hEscape hFeed,
          isFlush_longBasic_cons hQuotes hEscape hFeed, hSpace,
          Bool.and_false, Bool.and_false]

------------------------------------------------------------
-- Strings Of Several Lines
------------------------------------------------------------

/- The character can stand in a string of several lines. -/
def isLongChar (c : Char) : Bool :=
  !(isControl c && c != '\n')

theorem readMultilineBasic_close
    (fuel : Nat)
    (text : Text) :
    readMultilineBasic (fuel + 1)
        ('"' :: '"' :: '"' :: text) =
      .ok (takeExtraQuotes '"' text) := by
  rw [readMultilineBasic]

theorem readMultilineBasic_cons_iff
    {c : Char}
    {text : Text}
    (hQuotes : ¬ StartsWithThree '"' (c :: text))
    (hEscape : c ≠ '\\')
    {fuel : Nat}
    {content rest : Text} :
    readMultilineBasic (fuel + 1) (c :: text) =
        .ok (content, rest) ↔
      isLongChar c = true ∧
        ∃ more,
          content = c :: more ∧
            readMultilineBasic fuel text =
              .ok (more, rest) := by
  rw [readMultilineBasic]
  · cases hControl : (isControl c && c != '\n') with
    | true => simp [isLongChar, hControl, bind, Except.bind,
        throw, throwThe, MonadExceptOf.throw]
    | false =>
        simp only [isLongChar, hControl, Bool.not_false,
          Bool.false_eq_true, if_false, true_and]
        exact map_cons_eq_ok_iff
  · rintro after rfl rfl
    exact hQuotes ⟨after, rfl⟩
  · exact hEscape

theorem readMultilineBasic_fold_iff
    {c : Char}
    (hFold : isSpaceOrNewline c = true)
    {fuel : Nat}
    {text content rest : Text} :
    readMultilineBasic (fuel + 1) ('\\' :: c :: text) =
        .ok (content, rest) ↔
      ∃ after,
        skipFolded (c :: text) = .ok after ∧
          readMultilineBasic fuel after =
            .ok (content, rest) := by
  rw [readMultilineBasic]
  simp only [hFold, if_true]
  cases skipFolded (c :: text) with
  | error fault => simp [bind, Except.bind]
  | ok after => simp [bind, Except.bind]

theorem readMultilineBasic_escape_iff
    {c : Char}
    (hFold : isSpaceOrNewline c = false)
    {fuel : Nat}
    {text content rest : Text} :
    readMultilineBasic (fuel + 1) ('\\' :: c :: text) =
        .ok (content, rest) ↔
      ∃ escaped after more,
        readEscape (c :: text) = .ok (escaped, after) ∧
          content = escaped :: more ∧
          readMultilineBasic fuel after = .ok (more, rest) := by
  rw [readMultilineBasic]
  simp only [hFold, Bool.false_eq_true, if_false]
  cases hRead : readEscape (c :: text) with
  | error fault => simp [bind, Except.bind]
  | ok found =>
      rcases found with ⟨escaped, after⟩
      refine map_cons_eq_ok_iff.trans ?_
      constructor
      · rintro ⟨more, hContent, hMore⟩
        exact ⟨escaped, after, more, rfl, hContent, hMore⟩
      · rintro ⟨_, _, more, hSame, hContent, hMore⟩
        cases hSame
        exact ⟨more, hContent, hMore⟩

theorem readMultilineLiteral_cons_iff
    {c : Char}
    {text : Text}
    (hQuotes : ¬ StartsWithThree '\'' (c :: text))
    {content rest : Text} :
    readMultilineLiteral (c :: text) = .ok (content, rest) ↔
      isLongChar c = true ∧
        ∃ more,
          content = c :: more ∧
            readMultilineLiteral text = .ok (more, rest) := by
  rw [readMultilineLiteral]
  · cases hControl : (isControl c && c != '\n') with
    | true => simp [isLongChar, hControl, bind, Except.bind,
        throw, throwThe, MonadExceptOf.throw]
    | false =>
        simp only [isLongChar, hControl, Bool.not_false,
          Bool.false_eq_true, if_false, true_and]
        exact map_cons_eq_ok_iff
  · rintro after rfl rfl
    exact hQuotes ⟨after, rfl⟩

theorem takes_takeExtraQuotes
    {quote : Char}
    (hReturn : quote ≠ '\r')
    (text : Text) :
    Takes text (takeExtraQuotes quote text).2 := by
  rcases exists_of_takeExtraQuotes quote text with
    ⟨hText, hExtra⟩
  exact ⟨_, hText, hExtra.not_mem hReturn⟩

theorem ne_carriage_of_isLongChar
    {c : Char}
    (hChar : isLongChar c = true) :
    c ≠ '\r' := by
  rintro rfl
  exact absurd hChar (by decide)

/-
  How a string in three double quotes is read: it ends, or a
  fold, an escape or a character stands before what follows.
-/
inductive ReadsLongBasic : Text → Text → Text → Prop
  | close
      {text content rest : Text}
      (hQuotes : takeExtraQuotes '"' text = (content, rest)) :
      ReadsLongBasic ('"' :: '"' :: '"' :: text) content rest
  | fold
      {c : Char}
      {text after content rest : Text}
      (hFold : isSpaceOrNewline c = true)
      (hSkip : skipFolded (c :: text) = .ok after)
      (hRest : ReadsLongBasic after content rest) :
      ReadsLongBasic ('\\' :: c :: text) content rest
  | escape
      {c escaped : Char}
      {text after content rest : Text}
      (hFold : isSpaceOrNewline c = false)
      (hEscaped :
        readEscape (c :: text) = .ok (escaped, after))
      (hRest : ReadsLongBasic after content rest) :
      ReadsLongBasic ('\\' :: c :: text) (escaped :: content)
        rest
  | char
      {c : Char}
      {text content rest : Text}
      (hQuotes : ¬ StartsWithThree '"' (c :: text))
      (hEscape : c ≠ '\\')
      (hChar : isLongChar c = true)
      (hRest : ReadsLongBasic text content rest) :
      ReadsLongBasic (c :: text) (c :: content) rest

theorem readsLongBasic_of_readMultilineBasic
    {fuel : Nat}
    {text content rest : Text}
    (hRead :
      readMultilineBasic fuel text = .ok (content, rest)) :
    ReadsLongBasic text content rest := by
  induction fuel generalizing text content with
  | zero => cases hRead
  | succ fuel ih =>
      cases text with
      | nil => cases hRead
      | cons c text =>
          by_cases hQuotes : StartsWithThree '"' (c :: text)
          · rcases hQuotes with ⟨after, hText⟩
            rw [hText, readMultilineBasic_close,
              Except.ok.injEq] at hRead
            rw [hText]
            exact .close hRead
          by_cases hEscape : c = '\\'
          · subst c
            cases text with
            | nil => cases hRead
            | cons c text =>
                cases hFold : isSpaceOrNewline c with
                | true =>
                    rw [readMultilineBasic_fold_iff hFold]
                      at hRead
                    rcases hRead with ⟨after, hSkip, hRead⟩
                    exact .fold hFold hSkip (ih hRead)
                | false =>
                    rw [readMultilineBasic_escape_iff hFold]
                      at hRead
                    rcases hRead with
                      ⟨escaped, after, more, hEscaped, rfl,
                        hRead⟩
                    exact .escape hFold hEscaped (ih hRead)
          · rw [readMultilineBasic_cons_iff hQuotes hEscape]
              at hRead
            rcases hRead with ⟨hChar, more, rfl, hRead⟩
            exact .char hQuotes hEscape hChar (ih hRead)

namespace ReadsLongBasic

theorem ne_nil
    {text content rest : Text}
    (hReads : ReadsLongBasic text content rest) :
    text ≠ [] := by
  cases hReads <;> exact List.cons_ne_nil _ _

theorem takes
    {text content rest : Text}
    (hReads : ReadsLongBasic text content rest) :
    Takes text rest := by
  induction hReads with
  | @close text content rest hQuotes =>
      have hTakes : Takes text (takeExtraQuotes '"' text).2 :=
        takes_takeExtraQuotes (by decide) text
      rw [hQuotes] at hTakes
      exact
        .cons (by decide)
          (.cons (by decide) (.cons (by decide) hTakes))
  | fold hFold hSkip hRest ih =>
      exact
        .cons (by decide)
          ((takes_of_skipFolded hRest.ne_nil hSkip).trans ih)
  | escape hFold hEscaped hRest ih =>
      exact
        .cons (by decide)
          ((takes_of_readEscape hEscaped).trans ih)
  | char hQuotes hEscape hChar hRest ih =>
      exact .cons (ne_carriage_of_isLongChar hChar) ih

/- The reader needs fuel for every character. -/
theorem read
    {text content rest : Text}
    (hReads : ReadsLongBasic text content rest)
    {fuel : Nat}
    (hFuel : text.length < fuel) :
    readMultilineBasic fuel text = .ok (content, rest) := by
  induction hReads generalizing fuel with
  | close hQuotes =>
      rcases Nat.exists_eq_add_of_lt hFuel with ⟨extra, rfl⟩
      rw [readMultilineBasic_close, hQuotes]
  | fold hFold hSkip hRest ih =>
      rcases Nat.exists_eq_add_of_lt hFuel with ⟨extra, rfl⟩
      rw [readMultilineBasic_fold_iff hFold]
      have hLength :=
        (takes_of_skipFolded hRest.ne_nil hSkip).length_le
      exact
        ⟨_, hSkip,
          ih (Nat.lt_of_le_of_lt hLength
            (Nat.lt_of_succ_lt_succ hFuel))⟩
  | escape hFold hEscaped hRest ih =>
      rcases Nat.exists_eq_add_of_lt hFuel with ⟨extra, rfl⟩
      rw [readMultilineBasic_escape_iff hFold]
      have hLength := (takes_of_readEscape hEscaped).length_le
      exact
        ⟨_, _, _, hEscaped, rfl,
          ih (Nat.lt_of_le_of_lt hLength
            (Nat.lt_of_succ_lt_succ hFuel))⟩
  | char hQuotes hEscape hChar hRest ih =>
      rcases Nat.exists_eq_add_of_lt hFuel with ⟨extra, rfl⟩
      rw [readMultilineBasic_cons_iff hQuotes hEscape]
      exact
        ⟨hChar, _, rfl, ih (Nat.lt_of_succ_lt_succ hFuel)⟩

end ReadsLongBasic

theorem takes_of_readMultilineBasic
    {fuel : Nat}
    {text content rest : Text}
    (hRead :
      readMultilineBasic fuel text = .ok (content, rest)) :
    Takes text rest :=
  (readsLongBasic_of_readMultilineBasic hRead).takes

theorem takes_of_readMultilineLiteral
    {text content rest : Text}
    (hRead :
      readMultilineLiteral text = .ok (content, rest)) :
    Takes text rest := by
  induction text generalizing content with
  | nil => cases hRead
  | cons c text ih =>
      by_cases hQuotes : StartsWithThree '\'' (c :: text)
      · rcases hQuotes with ⟨after, hText⟩
        rw [hText, readMultilineLiteral, Except.ok.injEq]
          at hRead
        have hTakes :
            Takes after (takeExtraQuotes '\'' after).2 :=
          takes_takeExtraQuotes (by decide) after
        rw [hRead] at hTakes
        rw [hText]
        exact
          .cons (by decide)
            (.cons (by decide) (.cons (by decide) hTakes))
      · rw [readMultilineLiteral_cons_iff hQuotes] at hRead
        rcases hRead with ⟨hChar, more, rfl, hRead⟩
        exact
          .cons (ne_carriage_of_isLongChar hChar) (ih hRead)

------------------------------------------------------------
-- Long Strings Without Indentation
------------------------------------------------------------

/-
  A reader finds the same value in a text that loses its
  indentation, and no string behind it loses any.
-/
structure IsKept
    {α : Type}
    (ending : Text)
    (read : Text → Except Fault (α × Text))
    (text : Text)
    (value : α)
    (rest : Text) : Prop where
  flush : isFlush .outside (rest ++ ending) = true
  reads :
    read (moved ending text) =
      .ok (value, moved ending rest)

theorem IsLong.isFlush_close
    {place : Place}
    {quote : Char}
    (hLong : IsLong place quote)
    (hEnding : FollowsLine ending)
    {text content rest : Text}
    (hQuotes : takeExtraQuotes quote text = (content, rest)) :
    isFlush place
        (quote :: quote :: quote :: (text ++ ending)) =
      isFlush .outside (rest ++ ending) := by
  have hFeed : quote ≠ '\n' := by cases hLong <;> decide
  rcases exists_of_takeExtraQuotes quote text with
    ⟨hText, hExtra⟩
  rw [hQuotes] at hText hExtra
  rw [hText, List.append_assoc]
  exact hLong.isFlush_quotes (hExtra.append hFeed hEnding)

theorem isFlush_longBasic_digits
    {digits : Text}
    (hDigits : AreHexDigits digits)
    (rest : Text) :
    isFlush (.longBasic false) (digits ++ rest) =
      isFlush (.longBasic false) rest := by
  have hQuote : '"' ∉ digits := hDigits.not_mem (by decide)
  have hEscape : '\\' ∉ digits := hDigits.not_mem (by decide)
  have hFeed : '\n' ∉ digits := hDigits.not_mem (by decide)
  clear hDigits
  induction digits with
  | nil => rfl
  | cons c digits ih =>
      rw [List.mem_cons, not_or] at hQuote hEscape hFeed
      rw [List.cons_append,
        isFlush_longBasic_cons _ (Ne.symm hEscape.1)
          (Ne.symm hFeed.1),
        Bool.false_and, ih hQuote.2 hEscape.2 hFeed.2]
      intro hThree
      have hHead := hThree.head?
      rw [List.head?_cons, Option.some.injEq] at hHead
      exact hQuote.1 hHead.symm

/- Behind a fold the text goes on with what is no blank. -/
theorem isFlush_fold
    {c : Char}
    (hFold : isSpaceOrNewline c = true)
    {text after : Text}
    (hAfter : after ≠ [])
    (hSkip : skipFolded (c :: text) = .ok after) :
    isFlush (.longBasic false)
        ('\\' :: c :: (text ++ ending)) =
      isFlush (.longBasic false) (after ++ ending) := by
  have hDrop := dropWhile_of_skipFolded hAfter hSkip
  have hHead :
      ∀ d, (after ++ ending).head? = some d →
        isSpaceOrNewline d = false := by
    intro d hHead
    have hStops :=
      List.head?_dropWhile_not isSpaceOrNewline (c :: text)
    rw [hDrop] at hStops
    cases after with
    | nil => exact absurd rfl hAfter
    | cons e rest =>
        cases hHead
        simpa using hStops
  have hRest :
      (text ++ ending).dropWhile isSpaceOrNewline =
        after ++ ending := by
    rw [List.dropWhile_cons, if_pos hFold] at hDrop
    have hRemains :
        text.dropWhile isSpaceOrNewline ≠ [] := by
      rw [hDrop]
      exact hAfter
    rw [dropWhile_append_of_ne_nil hRemains, hDrop]
  rw [isFlush, hFold, ← isFlush_folded_dropWhile, hRest,
    isFlush_folded_eq hHead]

/- A character of a flush string stays where it stands. -/
theorem moved_of_isFlush_longBasic
    (hEnding : FollowsLine ending)
    {c : Char}
    {text : Text}
    (hQuotes : ¬ StartsWithThree '"' (c :: text))
    (hEscape : c ≠ '\\')
    (hFlush :
      isFlush (.longBasic false) (c :: text ++ ending) =
        true) :
    moved ending (c :: text) = c :: moved ending text ∧
      isFlush (.longBasic false) (text ++ ending) = true := by
  rw [List.cons_append] at hFlush
  by_cases hFeed : c = '\n'
  · subst c
    rw [isFlush, Bool.and_eq_true, Bool.false_or,
      bne_iff_ne] at hFlush
    exact ⟨moved_newline hFlush.1, hFlush.2⟩
  · refine ⟨moved_cons hFeed ending text, ?_⟩
    rw [isFlush_longBasic_cons _ hEscape hFeed,
      Bool.false_and] at hFlush
    · exact hFlush
    · intro hThree
      exact
        hQuotes (hThree.of_append (by decide) hEnding)

theorem moved_of_isFlush_longLiteral
    (hEnding : FollowsLine ending)
    {c : Char}
    {text : Text}
    (hQuotes : ¬ StartsWithThree '\'' (c :: text))
    (hFlush :
      isFlush .longLiteral (c :: text ++ ending) = true) :
    moved ending (c :: text) = c :: moved ending text ∧
      isFlush .longLiteral (text ++ ending) = true := by
  rw [List.cons_append] at hFlush
  by_cases hFeed : c = '\n'
  · subst c
    rw [isFlush, Bool.and_eq_true, bne_iff_ne] at hFlush
    exact ⟨moved_newline hFlush.1, hFlush.2⟩
  · refine ⟨moved_cons hFeed ending text, ?_⟩
    rw [isFlush_longLiteral_cons _ hFeed] at hFlush
    · exact hFlush
    · intro hThree
      exact
        hQuotes (hThree.of_append (by decide) hEnding)

theorem readEscape_moved
    {text rest : Text}
    {c : Char}
    (hRead : readEscape text = .ok (c, rest)) :
    readEscape (moved ending text) =
      .ok (c, moved ending rest) := by
  rcases exists_of_readEscape hRead with
    ⟨sign, digits, rfl, hSign, _, hDigits, hOther⟩
  have hFeed : sign ≠ '\n' := by
    rintro rfl
    exact absurd hSign (by decide)
  rw [moved_cons hFeed,
    moved_append (hDigits.not_mem (by decide)), hOther]

theorem isFlush_escape
    {c escaped : Char}
    {text after : Text}
    (hFold : isSpaceOrNewline c = false)
    (hEscaped : readEscape (c :: text) = .ok (escaped, after)) :
    isFlush (.longBasic false)
        ('\\' :: c :: (text ++ ending)) =
      isFlush (.longBasic false) (after ++ ending) := by
  rcases exists_of_readEscape hEscaped with
    ⟨sign, digits, hText, _, _, hDigits, _⟩
  rw [List.cons.injEq] at hText
  rw [isFlush, hFold, hText.2, List.append_assoc,
    isFlush_longBasic_digits hDigits]

/- A string without indentation is read as it was. -/
theorem ReadsLongBasic.moved
    (hEnding : FollowsLine ending)
    {text content rest : Text}
    (hReads : ReadsLongBasic text content rest)
    (hFlush :
      isFlush (.longBasic false) (text ++ ending) = true) :
    isFlush .outside (rest ++ ending) = true ∧
      ReadsLongBasic (Toml.moved ending text) content
        (Toml.moved ending rest) := by
  induction hReads with
  | @close text content rest hQuotes =>
      rw [List.cons_append, List.cons_append,
        List.cons_append,
        (IsLong.basic false).isFlush_close hEnding hQuotes]
        at hFlush
      refine ⟨hFlush, ?_⟩
      rw [moved_cons (by decide), moved_cons (by decide),
        moved_cons (by decide)]
      apply ReadsLongBasic.close
      rw [takeExtraQuotes_moved (by decide) hEnding, hQuotes]
      rfl
  | @fold c text after content rest hFold hSkip hRest ih =>
      have hAfter := hRest.ne_nil
      rw [List.cons_append, List.cons_append,
        isFlush_fold hFold hAfter hSkip] at hFlush
      refine ⟨(ih hFlush).1, ?_⟩
      have hMoved :
          skipFolded (Toml.moved ending (c :: text)) =
            .ok (Toml.moved ending after) :=
        skipFolded_moved hAfter hSkip
      rcases exists_moved_cons ending c text with
        ⟨other, hOther⟩
      rw [moved_cons (by decide), hOther]
      rw [hOther] at hMoved
      exact .fold hFold hMoved (ih hFlush).2
  | @escape c escaped text after content rest hFold hEscaped
      hRest ih =>
      rw [List.cons_append, List.cons_append,
        isFlush_escape hFold hEscaped] at hFlush
      refine ⟨(ih hFlush).1, ?_⟩
      have hMoved :
          readEscape (Toml.moved ending (c :: text)) =
            .ok (escaped, Toml.moved ending after) :=
        readEscape_moved hEscaped
      rcases exists_moved_cons ending c text with
        ⟨other, hOther⟩
      rw [moved_cons (by decide), hOther]
      rw [hOther] at hMoved
      exact .escape hFold hMoved (ih hFlush).2
  | char hQuotes hEscape hChar hRest ih =>
      rcases moved_of_isFlush_longBasic hEnding hQuotes
          hEscape hFlush with
        ⟨hMoved, hFlush⟩
      refine ⟨(ih hFlush).1, ?_⟩
      have hNotQuotes :=
        mt (StartsWithThree.of_moved (by decide) hEnding)
          hQuotes
      rw [hMoved] at hNotQuotes ⊢
      exact .char hNotQuotes hEscape hChar (ih hFlush).2

/- What a string of several lines says stays the same. -/
theorem isKept_readMultilineBasic
    (hEnding : FollowsLine ending)
    {fuel : Nat}
    {text content rest : Text}
    (hRead :
      readMultilineBasic fuel text = .ok (content, rest))
    (hFlush :
      isFlush (.longBasic false) (text ++ ending) = true)
    {more : Nat}
    (hMore : (moved ending text).length < more) :
    IsKept ending (readMultilineBasic more) text content
      rest := by
  have hReads := readsLongBasic_of_readMultilineBasic hRead
  rcases hReads.moved hEnding hFlush with ⟨hAfter, hMoved⟩
  exact ⟨hAfter, hMoved.read hMore⟩

theorem isKept_readMultilineLiteral
    (hEnding : FollowsLine ending)
    {text content rest : Text}
    (hRead :
      readMultilineLiteral text = .ok (content, rest))
    (hFlush :
      isFlush .longLiteral (text ++ ending) = true) :
    IsKept ending readMultilineLiteral text content rest := by
  induction text generalizing content with
  | nil => cases hRead
  | cons c text ih =>
      by_cases hQuotes : StartsWithThree '\'' (c :: text)
      · rcases hQuotes with ⟨after, hText⟩
        rw [hText] at hRead hFlush ⊢
        rw [readMultilineLiteral, Except.ok.injEq] at hRead
        constructor
        · rw [← IsLong.literal.isFlush_close hEnding hRead]
          exact hFlush
        · rw [moved_cons (by decide), moved_cons (by decide),
            moved_cons (by decide), readMultilineLiteral,
            takeExtraQuotes_moved (by decide) hEnding, hRead]
          rfl
      · rw [readMultilineLiteral_cons_iff hQuotes] at hRead
        rcases hRead with ⟨hChar, tail, rfl, hRead⟩
        have hMoved :=
          moved_of_isFlush_longLiteral hEnding hQuotes hFlush
        have hRest := ih hRead hMoved.2
        constructor
        · exact hRest.flush
        · rw [hMoved.1, readMultilineLiteral_cons_iff]
          · exact ⟨hChar, tail, rfl, hRest.reads⟩
          · rw [← hMoved.1]
            intro hThree
            exact hQuotes (hThree.of_moved (by decide) hEnding)

/- A line end in front of a string is not part of it. -/
theorem dropNewline_moved
    {place : Place}
    (hPlace :
      ∀ rest,
        isFlush place ('\n' :: rest) =
          (rest.head? != some ' ' && isFlush place rest))
    {text : Text}
    (hText : text ≠ [])
    (hFlush : isFlush place (text ++ ending) = true) :
    dropNewline (moved ending text) =
        moved ending (dropNewline text) ∧
      isFlush place (dropNewline text ++ ending) = true := by
  cases text with
  | nil => exact absurd rfl hText
  | cons c text =>
      by_cases hFeed : c = '\n'
      · subst c
        rw [List.cons_append, hPlace, Bool.and_eq_true,
          bne_iff_ne] at hFlush
        rw [moved_newline hFlush.1]
        exact ⟨rfl, hFlush.2⟩
      · have hSame :
            ∀ rest, dropNewline (c :: rest) = c :: rest := by
          intro rest
          rw [dropNewline]
          intro _ hChar
          rw [List.cons.injEq] at hChar
          exact hFeed hChar.1
        rw [moved_cons hFeed, hSame, hSame, moved_cons hFeed]
        exact ⟨rfl, hFlush⟩

theorem takes_dropNewline (text : Text) :
    Takes text (dropNewline text) := by
  unfold dropNewline
  split
  · exact .cons (by decide) (.refl _)
  · exact .refl _

end LongStrings

------------------------------------------------------------
-- Strings
------------------------------------------------------------

theorem takes_of_readString?
    {text content rest : Text}
    (hRead : readString? text = some (.ok (content, rest))) :
    Takes text rest := by
  unfold readString? at hRead
  split at hRead
  · next body =>
    rw [Option.some.injEq] at hRead
    have hTakes :=
      (takes_dropNewline body).trans
        (takes_of_readMultilineBasic hRead)
    exact
      .cons (by decide)
        (.cons (by decide) (.cons (by decide) hTakes))
  · next body =>
    rw [Option.some.injEq] at hRead
    have hTakes :=
      (takes_dropNewline body).trans
        (takes_of_readMultilineLiteral hRead)
    exact
      .cons (by decide)
        (.cons (by decide) (.cons (by decide) hTakes))
  · exact takes_of_readShortString? hRead

theorem readString?_eq_none_iff (text : Text) :
    readString? text = none ↔
      text.head? ≠ some '"' ∧ text.head? ≠ some '\'' := by
  unfold readString?
  split
  · simp
  · simp
  · exact readShortString?_eq_none_iff text

theorem readString?_of_not_three
    {text : Text}
    (hQuotes : ¬ StartsWithThree '"' text)
    (hApostrophes : ¬ StartsWithThree '\'' text) :
    readString? text = readShortString? text := by
  unfold readString?
  split
  · exact absurd ⟨_, rfl⟩ hQuotes
  · exact absurd ⟨_, rfl⟩ hApostrophes
  · rfl

/- A string on one line that begins with one quote only. -/
theorem isFlush_of_readShortString?
    {ending : Text}
    (hEnding : FollowsLine ending)
    {text content rest : Text}
    (hQuotes : ¬ StartsWithThree '"' text)
    (hApostrophes : ¬ StartsWithThree '\'' text)
    (hRead :
      readShortString? text = some (.ok (content, rest))) :
    isFlush .outside (text ++ ending) =
        isFlush .outside (rest ++ ending) ∧
      readShortString? (moved ending text) =
        some (.ok (content, moved ending rest)) := by
  rcases exists_of_readShortString? hRead with
    ⟨taken, rfl, hFeed, _, hReads, hFlush⟩
  constructor
  · rw [List.append_assoc]
    apply hFlush
    · intro hThree
      rw [← List.append_assoc] at hThree
      exact hQuotes (hThree.of_append (by decide) hEnding)
    · intro hThree
      rw [← List.append_assoc] at hThree
      exact
        hApostrophes (hThree.of_append (by decide) hEnding)
  · rw [moved_append hFeed]
    exact hReads _

/- Every string keeps what it says. -/
theorem readString?_moved
    {ending : Text}
    (hEnding : FollowsLine ending)
    {text content rest : Text}
    (hRead : readString? text = some (.ok (content, rest)))
    (hFlush : isFlush .outside (text ++ ending) = true) :
    isFlush .outside (rest ++ ending) = true ∧
      readString? (moved ending text) =
        some (.ok (content, moved ending rest)) := by
  by_cases hQuotes : StartsWithThree '"' text
  · rcases hQuotes with ⟨body, rfl⟩
    rw [readString?, Option.some.injEq] at hRead
    rw [List.cons_append, List.cons_append,
      List.cons_append, isFlush] at hFlush
    have hBody : body ≠ [] := by
      rintro rfl
      cases hRead
    rcases dropNewline_moved
        (fun rest => by rw [isFlush, Bool.false_or]) hBody
        hFlush with
      ⟨hDrop, hBodyFlush⟩
    have hKept :=
      isKept_readMultilineBasic hEnding hRead hBodyFlush
        (Nat.lt_succ_self _)
    refine ⟨hKept.flush, ?_⟩
    rw [moved_cons (by decide), moved_cons (by decide),
      moved_cons (by decide), readString?, hDrop,
      hKept.reads]
  by_cases hApostrophes : StartsWithThree '\'' text
  · rcases hApostrophes with ⟨body, rfl⟩
    rw [readString?, Option.some.injEq] at hRead
    rw [List.cons_append, List.cons_append,
      List.cons_append, isFlush] at hFlush
    have hBody : body ≠ [] := by
      rintro rfl
      cases hRead
    rcases dropNewline_moved (fun rest => by rw [isFlush])
        hBody hFlush with
      ⟨hDrop, hBodyFlush⟩
    have hKept :=
      isKept_readMultilineLiteral hEnding hRead hBodyFlush
    refine ⟨hKept.flush, ?_⟩
    rw [moved_cons (by decide), moved_cons (by decide),
      moved_cons (by decide), readString?, hDrop,
      hKept.reads]
  · rw [readString?_of_not_three hQuotes hApostrophes] at hRead
    rcases isFlush_of_readShortString? hEnding hQuotes
        hApostrophes hRead with
      ⟨hSame, hReads⟩
    rw [readString?_of_not_three, hReads, ← hSame]
    · exact ⟨hFlush, rfl⟩
    · intro hThree
      exact hQuotes (hThree.of_moved (by decide) hEnding)
    · intro hThree
      exact hApostrophes (hThree.of_moved (by decide) hEnding)

end Toml

end ScriptWorkspace
