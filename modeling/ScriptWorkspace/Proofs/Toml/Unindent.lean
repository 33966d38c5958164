import ScriptWorkspace.Proofs.Toml.Taking

/-
  Keys and values without indentation.

  A key or a value is read in the same way when the lines of
  the text lose the spaces they begin with, as long as no
  line that begins inside of a string has any.

  Main declarations:
    * `Toml.skipComment_moved`
    * `Toml.SkipsLayout.moved`
    * `Toml.isKept_readScalar`
    * `Toml.isKept_readWholeKey`
    * `Toml.ValuesKept`
    * `Toml.isKept_readWholeValue`
-/

namespace ScriptWorkspace

namespace Toml

variable {ending : Text}
variable (hEnding : FollowsLine ending)

include hEnding

------------------------------------------------------------
-- Blanks And Comments
------------------------------------------------------------

/- Blanks are skipped just the same at the margin. -/
theorem skipSpaces_unindented
    (atStart : Bool)
    (text : Text) :
    skipSpaces (unindented atStart (text ++ ending)) =
      moved ending (skipSpaces text) := by
  unfold skipSpaces moved
  rw [dropWhile_unindented (by decide),
    dropWhile_append_tail (by decide) hEnding]

theorem skipSpaces_moved (text : Text) :
    skipSpaces (moved ending text) =
      moved ending (skipSpaces text) :=
  skipSpaces_unindented hEnding false text

theorem isFlush_skipSpaces (text : Text) :
    isFlush .outside (skipSpaces text ++ ending) =
      isFlush .outside (text ++ ending) := by
  unfold skipSpaces
  rw [← dropWhile_append_tail (by decide) hEnding]
  exact isFlush_dropWhile (by decide) (text ++ ending)

omit hEnding in
/- A comment ends with its line. -/
theorem isFlush_comment
    {comment : Text}
    (hComment : '\n' ∉ comment)
    {tail : Text}
    (hTail : FollowsLine tail) :
    isFlush .comment (comment ++ tail) =
      isFlush .outside tail := by
  induction comment with
  | nil =>
      rcases hTail with rfl | ⟨rest, rfl⟩
      · rfl
      · have hNext :
            isFlush .outside ('\n' :: rest) =
              isFlush .outside rest := by
          apply isFlush_cons <;> decide
        rw [List.nil_append, hNext, isFlush]
  | cons c comment ih =>
      rw [List.mem_cons, not_or] at hComment
      rw [List.cons_append,
        isFlush_comment_cons (Ne.symm hComment.1),
        ih hComment.2]

omit hEnding in
/- A line is over where no character but its end comes. -/
theorem followsLine_dropWhile (text : Text) :
    FollowsLine (text.dropWhile (· != '\n')) := by
  induction text with
  | nil => exact .inl rfl
  | cons c text ih =>
      by_cases hFeed : c = '\n'
      · subst c
        exact .inr ⟨text, rfl⟩
      · simpa [hFeed] using ih

omit hEnding in
theorem FollowsLine.append
    (hEnding : FollowsLine ending)
    {tail : Text}
    (hTail : FollowsLine tail) :
    FollowsLine (tail ++ ending) := by
  rcases hTail with rfl | ⟨rest, rfl⟩
  · exact hEnding
  · exact .inr ⟨rest ++ ending, rfl⟩

omit hEnding in
theorem not_mem_takeWhile_ne
    (c : Char)
    (text : Text) :
    c ∉ text.takeWhile (· != c) := by
  intro hMem
  have hOther :=
    List.all_eq_true.mp List.all_takeWhile c hMem
  simp at hOther

theorem skipComment_moved
    {text rest : Text}
    (hSkip : skipComment text = .ok rest)
    (hFlush : isFlush .outside (text ++ ending) = true) :
    isFlush .outside (rest ++ ending) = true ∧
      skipComment (moved ending text) =
        .ok (moved ending rest) := by
  by_cases hHead : text.head? = some '#'
  · cases text with
    | nil => cases hHead
    | cons c text =>
        cases hHead
        rcases skipComment_eq_ok_iff.mp hSkip with
          ⟨hControl, hRest⟩
        have hText :
            text = text.takeWhile (· != '\n') ++ rest := by
          rw [hRest, List.takeWhile_append_dropWhile]
        have hFeed := not_mem_takeWhile_ne '\n' text
        have hTail : FollowsLine rest := by
          rw [hRest]
          exact followsLine_dropWhile text
        generalize text.takeWhile (· != '\n') = comment
          at hControl hText hFeed
        subst hText
        constructor
        · rw [List.cons_append, List.append_assoc, isFlush,
            isFlush_comment hFeed (hEnding.append hTail)]
            at hFlush
          exact hFlush
        · have hLine : ∀ c ∈ comment, (c != '\n') = true := by
            rintro c hMem
            rw [bne_iff_ne]
            rintro rfl
            exact hFeed hMem
          rw [moved_cons (by decide), moved_append hFeed,
            skipComment_eq_ok_iff,
            List.takeWhile_append_of_pos hLine,
            List.dropWhile_append_of_pos hLine]
          rcases hEnding.moved hTail with hMoved | hMoved
          · rw [hMoved]
            exact ⟨by simpa using hControl, rfl⟩
          · rcases hMoved with ⟨other, hMoved⟩
            rw [hMoved]
            exact ⟨by simpa using hControl, rfl⟩
  · rw [skipComment_of_ne hHead, Except.ok.injEq] at hSkip
    subst hSkip
    have hMoved := head?_moved_ne hEnding (by decide) hHead
    exact ⟨hFlush, skipComment_of_ne hMoved⟩

omit hEnding in
/- Something is left, so the blanks ended in the text. -/
theorem isFlush_dropWhile_append
    {text : Text}
    (hBlanks : text.dropWhile isSpaceOrNewline ≠ [])
    (hFlush : isFlush .outside (text ++ ending) = true) :
    isFlush .outside
        (text.dropWhile isSpaceOrNewline ++ ending) =
      true := by
  rw [← dropWhile_append_of_ne_nil hBlanks,
    isFlush_dropWhile (by decide)]
  exact hFlush

/- Blanks, line ends and comments in front of something. -/
theorem SkipsLayout.moved
    {text rest : Text}
    (hSkips : SkipsLayout text rest)
    (hRest : rest ≠ [])
    (hFlush : isFlush .outside (text ++ ending) = true) :
    isFlush .outside (rest ++ ending) = true ∧
      SkipsLayout (Toml.moved ending text)
        (Toml.moved ending rest) := by
  induction hSkips with
  | stop hOther =>
      refine ⟨isFlush_dropWhile_append hRest hFlush, ?_⟩
      rw [← dropWhile_moved (by decide) hRest]
      apply SkipsLayout.stop
      rw [dropWhile_moved (by decide) hRest]
      exact head?_moved_ne hEnding (by decide) hOther
  | @comment text comment after rest hNext hComment hSkips
      ih =>
      have hBlanks :
          text.dropWhile isSpaceOrNewline ≠ [] := by
        rw [hNext]
        exact List.cons_ne_nil _ _
      have hHashFlush :=
        isFlush_dropWhile_append hBlanks hFlush
      have hMovedNext :
          (Toml.moved ending text).dropWhile
              isSpaceOrNewline =
            Toml.moved ending
              (text.dropWhile isSpaceOrNewline) :=
        dropWhile_moved (by decide) hBlanks
      rw [hNext] at hHashFlush
      rw [hNext, moved_cons (by decide)] at hMovedNext
      rcases skipComment_moved hEnding hComment hHashFlush
        with ⟨hAfterFlush, hMovedComment⟩
      rw [moved_cons (by decide)] at hMovedComment
      rcases ih hRest hAfterFlush with ⟨hRestFlush, hMoved⟩
      exact
        ⟨hRestFlush, .comment hMovedNext hMovedComment hMoved⟩

------------------------------------------------------------
-- Scalars And Keys
------------------------------------------------------------

/- A reader that stays on its line opens no string. -/
theorem StaysOnLine.moved
    {α : Type}
    {read : Text → Option (α × Text)}
    (hRead : StaysOnLine read)
    {text rest : Text}
    {value : α}
    (hFound : read text = some (value, rest)) :
    isFlush .outside (rest ++ ending) =
        isFlush .outside (text ++ ending) ∧
      read (Toml.moved ending text) =
        some (value, Toml.moved ending rest) := by
  rcases hRead.takes hFound with ⟨taken, hText, hPlain⟩
  constructor
  · rw [hText, List.append_assoc, isFlush_plain hPlain]
  · rw [hRead.read_moved hEnding, hFound]
    rfl

theorem isKept_readScalar
    {text rest : Text}
    {value : Toml}
    (hRead : readScalar text = .ok (value, rest))
    (hFlush : isFlush .outside (text ++ ending) = true) :
    IsKept ending readScalar text value rest := by
  rcases readScalar_eq_ok_iff.mp hRead with
    ⟨content, hString, rfl⟩ | ⟨hNone, hPlain⟩
  · rcases readString?_moved hEnding hString hFlush with
      ⟨hRest, hMoved⟩
    refine ⟨hRest, ?_⟩
    rw [readScalar_eq_ok_iff]
    exact .inl ⟨content, hMoved, rfl⟩
  · rcases staysOnLine_plain?.moved hEnding hPlain with
      ⟨hRest, hMoved⟩
    rw [readString?_eq_none_iff] at hNone
    constructor
    · rw [hRest]
      exact hFlush
    · rw [readScalar_eq_ok_iff, readString?_eq_none_iff]
      refine .inr ⟨⟨?_, ?_⟩, hMoved⟩
      · exact head?_moved_ne hEnding (by decide) hNone.1
      · exact head?_moved_ne hEnding (by decide) hNone.2

omit hEnding in
/- Of three quotes in a row, a key takes the first two. -/
theorem head?_of_readShortString?
    {text content rest : Text}
    (hRead :
      readShortString? text = some (.ok (content, rest)))
    {quote : Char}
    (hQuote : quote = '"' ∨ quote = '\'')
    (hThree : StartsWithThree quote text) :
    rest.head? = some quote := by
  rcases hThree with ⟨body, rfl⟩
  rcases hQuote with rfl | rfl
  · cases hRead
    rfl
  · cases hRead
    rfl

/- No quote follows directly. -/
def FollowsKey (rest : Text) : Prop :=
  rest.head? ≠ some '"' ∧ rest.head? ≠ some '\''

theorem isKept_readKeyName
    {text name rest : Text}
    (hRead : readKeyName text = .ok (name, rest))
    (hNext : FollowsKey rest)
    (hFlush : isFlush .outside (text ++ ending) = true) :
    IsKept ending readKeyName text name rest := by
  rcases readKeyName_eq_ok_iff.mp hRead with
    hString | ⟨hNone, hBare⟩
  · have hQuotes : ¬ StartsWithThree '"' text := by
      intro hThree
      exact
        hNext.1
          (head?_of_readShortString? hString (.inl rfl) hThree)
    have hApostrophes : ¬ StartsWithThree '\'' text := by
      intro hThree
      exact
        hNext.2
          (head?_of_readShortString? hString (.inr rfl) hThree)
    rcases isFlush_of_readShortString? hEnding hQuotes
        hApostrophes hString with
      ⟨hSame, hMoved⟩
    constructor
    · rw [← hSame]
      exact hFlush
    · rw [readKeyName_eq_ok_iff]
      exact .inl hMoved
  · rcases staysOnLine_bareName.moved hEnding hBare with
      ⟨hRest, hMoved⟩
    rw [readShortString?_eq_none_iff] at hNone
    constructor
    · rw [hRest]
      exact hFlush
    · rw [readKeyName_eq_ok_iff, readShortString?_eq_none_iff]
      refine .inr ⟨⟨?_, ?_⟩, hMoved⟩
      · exact head?_moved_ne hEnding (by decide) hNone.1
      · exact head?_moved_ne hEnding (by decide) hNone.2

omit hEnding in
/- What no quote follows after blanks, none follows at all. -/
theorem FollowsKey.of_skipSpaces
    {rest : Text}
    (hNext : FollowsKey (skipSpaces rest)) :
    FollowsKey rest := by
  have hQuote :
      ∀ c, isSpace c = false →
        (skipSpaces rest).head? ≠ some c →
        rest.head? ≠ some c := by
    intro c hChar hHead
    cases rest with
    | nil => simp
    | cons d rest =>
        intro hSame
        cases hSame
        unfold skipSpaces at hHead
        simp [hChar] at hHead
  exact
    ⟨hQuote _ (by decide) hNext.1,
      hQuote _ (by decide) hNext.2⟩

theorem isKept_readKey
    {fuel : Nat}
    {text rest : Text}
    {key : Key}
    (hRead : readKey fuel text = .ok (key, rest))
    (hNext : FollowsKey rest)
    (hFlush : isFlush .outside (text ++ ending) = true)
    {more : Nat}
    (hMore : (moved ending text).length < more) :
    IsKept ending (readKey more) text key rest := by
  induction fuel generalizing text key more with
  | zero => cases hRead
  | succ fuel ih =>
      rcases Nat.exists_eq_succ_of_ne_zero
          (Nat.ne_of_gt (Nat.zero_lt_of_lt hMore)) with
        ⟨more, rfl⟩
      rcases readKey_eq_ok_iff.mp hRead with
        ⟨name, after, hName, hAfter⟩
      rcases hAfter with
        ⟨tail, names, hDot, hNames, rfl⟩ |
          ⟨hOther, hSame, rfl⟩
      · have hFollows : FollowsKey after := by
          apply FollowsKey.of_skipSpaces
          rw [hDot]
          exact ⟨by simp, by simp⟩
        have hNameKept :=
          isKept_readKeyName hEnding hName hFollows hFlush
        have hTail :
            isFlush .outside (skipSpaces tail ++ ending) =
              true := by
          rw [isFlush_skipSpaces hEnding,
            ← isFlush_cons (c := '.') (by decide) (by decide)
              (by decide),
            ← List.cons_append, ← hDot,
            isFlush_skipSpaces hEnding]
          exact hNameKept.flush
        have hMovedDot :
            skipSpaces (moved ending after) =
              '.' :: moved ending tail := by
          rw [skipSpaces_moved hEnding, hDot,
            moved_cons (by decide)]
        have hTakes :
            Takes (moved ending text)
              ('.' :: moved ending tail) := by
          rw [← hMovedDot]
          exact
            (takes_of_readKeyName hNameKept.reads).trans
              (takes_skipSpaces _)
        have hLess := hTakes.length_le
        rw [List.length_cons] at hLess
        have hSkip :=
          (takes_skipSpaces (moved ending tail)).length_le
        rw [skipSpaces_moved hEnding] at hSkip
        have hLength :
            (moved ending (skipSpaces tail)).length < more := by
          omega
        have hKept := ih hNames hTail hLength
        refine ⟨hKept.flush, ?_⟩
        rw [readKey_eq_ok_iff]
        refine ⟨name, moved ending after, hNameKept.reads, ?_⟩
        refine
          .inl ⟨moved ending tail, names, hMovedDot, ?_, rfl⟩
        rw [skipSpaces_moved hEnding]
        exact hKept.reads
      · have hFollows : FollowsKey after := by
          apply FollowsKey.of_skipSpaces
          rw [hSame]
          exact hNext
        have hNameKept :=
          isKept_readKeyName hEnding hName hFollows hFlush
        constructor
        · rw [← hSame, isFlush_skipSpaces hEnding]
          exact hNameKept.flush
        · rw [readKey_eq_ok_iff]
          refine ⟨name, moved ending after, hNameKept.reads, ?_⟩
          rw [skipSpaces_moved hEnding, hSame]
          rw [hSame] at hOther
          exact
            .inr
              ⟨head?_moved_ne hEnding (by decide) hOther, rfl,
                rfl⟩

theorem isKept_readWholeKey
    {text rest : Text}
    {key : Key}
    (hRead : readWholeKey text = .ok (key, rest))
    (hNext : FollowsKey rest)
    (hFlush : isFlush .outside (text ++ ending) = true) :
    IsKept ending readWholeKey text key rest :=
  have hKept :=
    isKept_readKey hEnding hRead hNext hFlush
      (Nat.lt_succ_self _)
  ⟨hKept.flush, hKept.reads⟩

------------------------------------------------------------
-- Values
------------------------------------------------------------

omit hEnding in
theorem isFlush_cons_append
    {c : Char}
    (hPlain : isPlain c = true)
    (rest : Text) :
    isFlush .outside (c :: rest ++ ending) =
      isFlush .outside (rest ++ ending) := by
  have hTaken : ∀ d ∈ [c], isPlain d = true := by
    simpa using hPlain
  exact isFlush_plain hTaken (rest ++ ending)

omit hEnding in
/- No value begins where the text ends. -/
theorem ne_nil_of_readValue
    {fuel : Nat}
    {text rest : Text}
    {value : Toml}
    (hRead : readValue fuel text = .ok (value, rest)) :
    text ≠ [] := by
  rintro rfl
  cases fuel with
  | zero => cases hRead
  | succ fuel =>
      rw [readValue_of_ne (by simp) (by simp)] at hRead
      cases hRead

omit hEnding in
theorem ne_nil_of_readItems
    {fuel : Nat}
    {text rest : Text}
    {items : List Toml}
    (hRead : readItems fuel text = .ok (items, rest)) :
    text ≠ [] := by
  rintro rfl
  cases fuel with
  | zero => cases hRead
  | succ fuel =>
      rcases (readItems_eq_ok_iff (by simp)).mp hRead with
        ⟨item, after, next, hItem, _⟩
      exact ne_nil_of_readValue hItem rfl

/- What comes before a value, an item or a closing bracket. -/
theorem isKept_skipLayout
    {text rest : Text}
    (hSkip : skipLayout text.length text = .ok rest)
    (hRest : rest ≠ [])
    (hFlush : isFlush .outside (text ++ ending) = true) :
    isFlush .outside (rest ++ ending) = true ∧
      skipLayout (moved ending text).length
          (moved ending text) =
        .ok (moved ending rest) := by
  rw [skipLayout_eq_ok_iff_skipsLayout (Nat.le_refl _)]
    at hSkip ⊢
  exact hSkip.moved hEnding hRest hFlush

omit hEnding in
/-
  What the readers of values find with some fuel, they find
  in the text without indentation too. There the fuel counts
  twice for each character: a value and an item can begin at
  it.
-/
structure ValuesKept
    (ending : Text)
    (fuel : Nat) : Prop where
  value :
    ∀ {text rest : Text} {value : Toml},
      readValue fuel text = .ok (value, rest) →
      isFlush .outside (text ++ ending) = true →
      ∀ {more : Nat},
        2 * (moved ending text).length + 2 ≤ more →
        IsKept ending (readValue more) text value rest
  items :
    ∀ {text rest : Text} {items : List Toml},
      readItems fuel text = .ok (items, rest) →
      isFlush .outside (text ++ ending) = true →
      ∀ {more : Nat},
        2 * (moved ending text).length + 3 ≤ more →
        IsKept ending (readItems more) text items rest
  members :
    ∀ {complete : List Key}
      {members table : Table}
      {text rest : Text},
      readMembers fuel complete members text =
          .ok (table, rest) →
      isFlush .outside (text ++ ending) = true →
      ∀ {more : Nat},
        2 * (moved ending text).length + 2 ≤ more →
        IsKept ending (readMembers more complete members)
          text table rest

namespace ValuesKept

variable {fuel : Nat}
variable (hFuel : ValuesKept ending fuel)

include hFuel

theorem readValue
    {text rest : Text}
    {value : Toml}
    (hRead :
      Toml.readValue (fuel + 1) text = .ok (value, rest))
    (hFlush : isFlush .outside (text ++ ending) = true)
    {more : Nat}
    (hMore : 2 * (moved ending text).length + 1 ≤ more) :
    IsKept ending (Toml.readValue (more + 1)) text value
      rest := by
  by_cases hArray : text.head? = some '['
  · cases text with
    | nil => cases hArray
    | cons c text =>
        cases hArray
        rw [isFlush_cons_append (by decide)] at hFlush
        rw [moved_cons (by decide), List.length_cons] at hMore
        rcases readArray_eq_ok_iff.mp hRead with
          ⟨start, items, hStart, hItems, rfl⟩
        rcases isKept_skipLayout hEnding hStart
            (ne_nil_of_readItems hItems) hFlush with
          ⟨hStartFlush, hMoved⟩
        have hLess := (takes_of_skipLayout hMoved).length_le
        have hLength :
            2 * (moved ending start).length + 3 ≤ more := by
          omega
        have hKept := hFuel.items hItems hStartFlush hLength
        refine ⟨hKept.flush, ?_⟩
        rw [moved_cons (by decide), readArray_eq_ok_iff]
        exact
          ⟨moved ending start, items, hMoved, hKept.reads, rfl⟩
  by_cases hTable : text.head? = some '\x7b'
  · cases text with
    | nil => cases hTable
    | cons c text =>
        cases hTable
        rw [isFlush_cons_append (by decide),
          ← isFlush_skipSpaces hEnding] at hFlush
        rw [moved_cons (by decide), List.length_cons] at hMore
        rcases readInline_eq_ok_iff.mp hRead with
          ⟨hClose, rfl⟩ | ⟨hOther, members, hMembers, rfl⟩
        · rw [hClose, isFlush_cons_append (by decide)]
            at hFlush
          refine ⟨hFlush, ?_⟩
          rw [moved_cons (by decide), readInline_eq_ok_iff,
            skipSpaces_moved hEnding, hClose,
            moved_cons (by decide)]
          exact .inl ⟨rfl, rfl⟩
        · have hLess :=
            (takes_skipSpaces (moved ending text)).length_le
          rw [skipSpaces_moved hEnding] at hLess
          have hLength :
              2 * (moved ending (skipSpaces text)).length + 2 ≤
                more := by
            omega
          have hKept := hFuel.members hMembers hFlush hLength
          refine ⟨hKept.flush, ?_⟩
          rw [moved_cons (by decide), readInline_eq_ok_iff,
            skipSpaces_moved hEnding]
          exact
            .inr
              ⟨head?_moved_ne hEnding (by decide) hOther,
                members, hKept.reads, rfl⟩
  · rw [readValue_of_ne hArray hTable] at hRead
    have hKept := isKept_readScalar hEnding hRead hFlush
    refine ⟨hKept.flush, ?_⟩
    rw [readValue_of_ne
      (head?_moved_ne hEnding (by decide) hArray)
      (head?_moved_ne hEnding (by decide) hTable)]
    exact hKept.reads

theorem readItems
    {text rest : Text}
    {items : List Toml}
    (hRead :
      Toml.readItems (fuel + 1) text = .ok (items, rest))
    (hFlush : isFlush .outside (text ++ ending) = true)
    {more : Nat}
    (hMore : 2 * (moved ending text).length + 2 ≤ more) :
    IsKept ending (Toml.readItems (more + 1)) text items
      rest := by
  by_cases hClose : text.head? = some ']'
  · cases text with
    | nil => cases hClose
    | cons c text =>
        cases hClose
        rw [readItems_close] at hRead
        cases hRead
        rw [isFlush_cons_append (by decide)] at hFlush
        refine ⟨hFlush, ?_⟩
        rw [moved_cons (by decide), readItems_close]
  · rcases (readItems_eq_ok_iff hClose).mp hRead with
      ⟨item, after, next, hItem, hLayout, hNext⟩
    have hItemKept := hFuel.value hItem hFlush hMore
    have hNonempty : next ≠ [] := by
      rcases hNext with ⟨rfl, _⟩ | ⟨_, _, _, rfl, _⟩
      · exact List.cons_ne_nil _ _
      · exact List.cons_ne_nil _ _
    rcases isKept_skipLayout hEnding hLayout hNonempty
        hItemKept.flush with
      ⟨hNextFlush, hMoved⟩
    have hMovedClose :=
      head?_moved_ne hEnding (by decide) hClose
    have hFront :=
      ((valuesTake more).value hItemKept.reads).trans
        (takes_of_skipLayout hMoved)
    rcases hNext with
      ⟨rfl, rfl⟩ |
        ⟨tail, start, others, rfl, hStart, hOthers, rfl⟩
    · rw [isFlush_cons_append (by decide)] at hNextFlush
      refine ⟨hNextFlush, ?_⟩
      rw [readItems_eq_ok_iff hMovedClose]
      rw [moved_cons (by decide)] at hMoved
      exact
        ⟨item, moved ending after, _, hItemKept.reads, hMoved,
          .inl ⟨rfl, rfl⟩⟩
    · rw [isFlush_cons_append (by decide)] at hNextFlush
      rw [moved_cons (by decide)] at hMoved hFront
      rcases isKept_skipLayout hEnding hStart
          (ne_nil_of_readItems hOthers) hNextFlush with
        ⟨hStartFlush, hStartMoved⟩
      have hLess := hFront.length_le
      rw [List.length_cons] at hLess
      have hStartLess :=
        (takes_of_skipLayout hStartMoved).length_le
      have hLength :
          2 * (moved ending start).length + 3 ≤ more := by
        omega
      have hKept := hFuel.items hOthers hStartFlush hLength
      refine ⟨hKept.flush, ?_⟩
      rw [readItems_eq_ok_iff hMovedClose]
      exact
        ⟨item, moved ending after, _, hItemKept.reads, hMoved,
          .inr
            ⟨moved ending tail, moved ending start, others, rfl,
              hStartMoved, hKept.reads, rfl⟩⟩

theorem readMembers
    {complete : List Key}
    {members table : Table}
    {text rest : Text}
    (hRead :
      Toml.readMembers (fuel + 1) complete members text =
        .ok (table, rest))
    (hFlush : isFlush .outside (text ++ ending) = true)
    {more : Nat}
    (hMore : 2 * (moved ending text).length + 1 ≤ more) :
    IsKept ending
      (Toml.readMembers (more + 1) complete members) text
      table rest := by
  rcases readMembers_eq_ok_iff.mp hRead with
    ⟨key, after, value, last, wider, hKey, hValue, hWider,
      hNext⟩
  have hKeyKept :=
    isKept_readWholeKey hEnding hKey ⟨by simp, by simp⟩ hFlush
  have hAfterFlush := hKeyKept.flush
  rw [isFlush_cons_append (by decide),
    ← isFlush_skipSpaces hEnding] at hAfterFlush
  have hKeyReads := hKeyKept.reads
  rw [moved_cons (by decide)] at hKeyReads
  have hKeyLess := (takes_of_readWholeKey hKeyReads).length_le
  rw [List.length_cons] at hKeyLess
  have hAfterLess :=
    (takes_skipSpaces (moved ending after)).length_le
  rw [skipSpaces_moved hEnding] at hAfterLess
  have hLength :
      2 * (moved ending (skipSpaces after)).length + 2 ≤
        more := by
    omega
  have hValueKept := hFuel.value hValue hAfterFlush hLength
  have hLastFlush := hValueKept.flush
  rw [← isFlush_skipSpaces hEnding] at hLastFlush
  have hValueReads := hValueKept.reads
  rw [← skipSpaces_moved hEnding] at hValueReads
  rcases hNext with ⟨hClose, rfl⟩ | ⟨tail, hComma, hMembers⟩
  · rw [hClose, isFlush_cons_append (by decide)] at hLastFlush
    refine ⟨hLastFlush, ?_⟩
    rw [readMembers_eq_ok_iff]
    refine
      ⟨key, moved ending after, value, moved ending last,
        table, hKeyReads, hValueReads, hWider, .inl ⟨?_, rfl⟩⟩
    rw [skipSpaces_moved hEnding, hClose,
      moved_cons (by decide)]
  · rw [hComma, isFlush_cons_append (by decide),
      ← isFlush_skipSpaces hEnding] at hLastFlush
    have hMovedComma :
        skipSpaces (moved ending last) =
          ',' :: moved ending tail := by
      rw [skipSpaces_moved hEnding, hComma,
        moved_cons (by decide)]
    have hBack :=
      (takes_skipSpaces (moved ending last)).length_le
    rw [hMovedComma, List.length_cons] at hBack
    have hValueLess :=
      ((valuesTake more).value hValueKept.reads).length_le
    have hTailLess :=
      (takes_skipSpaces (moved ending tail)).length_le
    rw [skipSpaces_moved hEnding] at hTailLess
    have hTailLength :
        2 * (moved ending (skipSpaces tail)).length + 2 ≤
          more := by
      omega
    have hKept := hFuel.members hMembers hLastFlush hTailLength
    refine ⟨hKept.flush, ?_⟩
    rw [readMembers_eq_ok_iff]
    refine
      ⟨key, moved ending after, value, moved ending last,
        wider, hKeyReads, hValueReads, hWider,
        .inr ⟨moved ending tail, hMovedComma, ?_⟩⟩
    rw [skipSpaces_moved hEnding]
    exact hKept.reads

end ValuesKept

theorem valuesKept (fuel : Nat) : ValuesKept ending fuel := by
  induction fuel with
  | zero =>
      constructor
      · intro _ _ _ hRead
        cases hRead
      · intro _ _ _ hRead
        cases hRead
      · intro _ _ _ _ _ hRead
        cases hRead
  | succ fuel ih =>
      constructor
      · intro text rest value hRead hFlush more hMore
        cases more with
        | zero => cases hMore
        | succ more =>
            exact
              ih.readValue hEnding hRead hFlush
                (Nat.le_of_succ_le_succ hMore)
      · intro text rest items hRead hFlush more hMore
        cases more with
        | zero => cases hMore
        | succ more =>
            exact
              ih.readItems hEnding hRead hFlush
                (Nat.le_of_succ_le_succ hMore)
      · intro complete members table text rest hRead hFlush
          more hMore
        cases more with
        | zero => cases hMore
        | succ more =>
            exact
              ih.readMembers hEnding hRead hFlush
                (Nat.le_of_succ_le_succ hMore)

theorem isKept_readWholeValue
    {text rest : Text}
    {value : Toml}
    (hRead : readWholeValue text = .ok (value, rest))
    (hFlush : isFlush .outside (text ++ ending) = true) :
    IsKept ending readWholeValue text value rest :=
  have hKept :=
    (valuesKept hEnding _).value hRead hFlush (Nat.le_refl _)
  ⟨hKept.flush, hKept.reads⟩

end Toml

end ScriptWorkspace
