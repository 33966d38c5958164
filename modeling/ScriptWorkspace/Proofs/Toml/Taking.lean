import ScriptWorkspace.Proofs.Toml.LongStrings
import ScriptWorkspace.Proofs.Toml.Rules

/-
  What the readers of a document take.

  Each reader leaves an end of the text that it was given,
  and takes no carriage return. A document that can be read
  is taken whole, so there is none in it.

  Main declarations:
    * `Toml.SkipsLayout`
    * `Toml.takes_of_readScalar`
    * `Toml.takes_of_readKey`
    * `Toml.valuesTake`
    * `Toml.takes_of_readStatement`
    * `Toml.takes_of_readStatements`
-/

namespace ScriptWorkspace

namespace Toml

------------------------------------------------------------
-- Blanks And Comments
------------------------------------------------------------

theorem takes_skipSpaces (text : Text) :
    Takes text (skipSpaces text) :=
  .dropWhile (by decide) text

/- The text behind the sign of a comment. -/
theorem takes_of_comment
    {text rest : Text}
    (hSkip : skipComment ('#' :: text) = .ok rest) :
    Takes text rest := by
  rcases skipComment_eq_ok_iff.mp hSkip with ⟨hControl, rfl⟩
  refine
    ⟨text.takeWhile (· != '\n'),
      List.takeWhile_append_dropWhile.symm, ?_⟩
  intro hMem
  rw [List.any_eq_false] at hControl
  exact hControl _ hMem (by decide)

theorem takes_of_skipComment
    {text rest : Text}
    (hSkip : skipComment text = .ok rest) :
    Takes text rest := by
  by_cases hHead : text.head? = some '#'
  · cases text with
    | nil => cases hHead
    | cons c text =>
        cases hHead
        exact .cons (by decide) (takes_of_comment hSkip)
  · rw [skipComment_of_ne hHead, Except.ok.injEq] at hSkip
    rw [hSkip]
    exact .refl rest

/- How blanks, line ends and comments are skipped. -/
inductive SkipsLayout : Text → Text → Prop
  | stop
      {text : Text}
      (hOther :
        (text.dropWhile isSpaceOrNewline).head? ≠ some '#') :
      SkipsLayout text (text.dropWhile isSpaceOrNewline)
  | comment
      {text comment after rest : Text}
      (hNext :
        text.dropWhile isSpaceOrNewline = '#' :: comment)
      (hComment : skipComment ('#' :: comment) = .ok after)
      (hRest : SkipsLayout after rest) :
      SkipsLayout text rest

theorem takes_of_comment_ahead
    {text comment after : Text}
    (hNext : text.dropWhile isSpaceOrNewline = '#' :: comment)
    (hComment : skipComment ('#' :: comment) = .ok after) :
    Takes text after ∧ after.length < text.length := by
  have hBlanks :
      Takes text (text.dropWhile isSpaceOrNewline) :=
    .dropWhile (by decide) text
  rw [hNext] at hBlanks
  constructor
  · exact hBlanks.trans (takes_of_skipComment hComment)
  · exact
      Nat.lt_of_le_of_lt (takes_of_comment hComment).length_le
        hBlanks.length_le

/- There is a character for every comment. -/
theorem skipLayout_eq_ok_iff_skipsLayout
    {fuel : Nat}
    {text rest : Text}
    (hFuel : text.length ≤ fuel) :
    skipLayout fuel text = .ok rest ↔
      SkipsLayout text rest := by
  constructor
  · intro hSkip
    induction fuel generalizing text with
    | zero =>
        rw [Nat.le_zero, List.length_eq_zero_iff] at hFuel
        subst hFuel
        cases hSkip
        exact .stop (by decide)
    | succ fuel ih =>
        rcases skipLayout_eq_ok_iff.mp hSkip with
          ⟨comment, after, hNext, hComment, hSkip⟩ |
            ⟨hOther, rfl⟩
        · have hLess :=
            (takes_of_comment_ahead hNext hComment).2
          exact .comment hNext hComment (ih (by omega) hSkip)
        · exact .stop hOther
  · intro hSkips
    induction hSkips generalizing fuel with
    | @stop text hOther =>
        cases fuel with
        | zero =>
            rw [Nat.le_zero, List.length_eq_zero_iff] at hFuel
            subst hFuel
            rfl
        | succ fuel =>
            rw [skipLayout_eq_ok_iff]
            exact .inr ⟨hOther, rfl⟩
    | comment hNext hComment hRest ih =>
        have hLess :=
          (takes_of_comment_ahead hNext hComment).2
        rcases Nat.exists_eq_add_of_lt
            (Nat.lt_of_lt_of_le hLess hFuel) with
          ⟨extra, rfl⟩
        rw [skipLayout_eq_ok_iff]
        exact
          .inl ⟨_, _, hNext, hComment, ih (by omega)⟩

theorem SkipsLayout.takes
    {text rest : Text}
    (hSkips : SkipsLayout text rest) :
    Takes text rest := by
  induction hSkips with
  | stop hOther => exact .dropWhile (by decide) _
  | comment hNext hComment hRest ih =>
      exact (takes_of_comment_ahead hNext hComment).1.trans ih

theorem takes_of_skipLayout
    {text rest : Text}
    (hSkip : skipLayout text.length text = .ok rest) :
    Takes text rest :=
  ((skipLayout_eq_ok_iff_skipsLayout (Nat.le_refl _)).mp
    hSkip).takes

------------------------------------------------------------
-- Scalars And Keys
------------------------------------------------------------

theorem takes_of_readScalar
    {text rest : Text}
    {value : Toml}
    (hRead : readScalar text = .ok (value, rest)) :
    Takes text rest := by
  rcases readScalar_eq_ok_iff.mp hRead with
    ⟨content, hString, _⟩ | ⟨_, hPlain⟩
  · exact takes_of_readString? hString
  · exact staysOnLine_plain?.takes_rest hPlain

theorem staysOnLine_bareName :
    StaysOnLine (takeSome? isBareKeyChar) :=
  staysOnLine_takeSome? (by decide)

theorem takes_of_readKeyName
    {text name rest : Text}
    (hRead : readKeyName text = .ok (name, rest)) :
    Takes text rest := by
  rcases readKeyName_eq_ok_iff.mp hRead with
    hString | ⟨_, hBare⟩
  · exact takes_of_readShortString? hString
  · exact staysOnLine_bareName.takes_rest hBare

theorem takes_of_readKey
    {fuel : Nat}
    {text rest : Text}
    {key : Key}
    (hRead : readKey fuel text = .ok (key, rest)) :
    Takes text rest := by
  induction fuel generalizing text key with
  | zero => cases hRead
  | succ fuel ih =>
      rcases readKey_eq_ok_iff.mp hRead with
        ⟨name, after, hName, hNext⟩
      have hFront :=
        (takes_of_readKeyName hName).trans
          (takes_skipSpaces after)
      rcases hNext with
        ⟨more, names, hDot, hNames, _⟩ | ⟨_, hRest, _⟩
      · rw [hDot] at hFront
        have hBack :=
          (takes_skipSpaces more).trans (ih hNames)
        exact hFront.trans (.cons (by decide) hBack)
      · rw [hRest] at hFront
        exact hFront

theorem takes_of_readWholeKey
    {text rest : Text}
    {key : Key}
    (hRead : readWholeKey text = .ok (key, rest)) :
    Takes text rest :=
  takes_of_readKey hRead

------------------------------------------------------------
-- Values
------------------------------------------------------------

/- What the readers of values take with some fuel. -/
structure ValuesTake (fuel : Nat) : Prop where
  value :
    ∀ {text rest : Text} {value : Toml},
      readValue fuel text = .ok (value, rest) →
        Takes text rest
  items :
    ∀ {text rest : Text} {items : List Toml},
      readItems fuel text = .ok (items, rest) →
        Takes text rest
  members :
    ∀ {complete : List Key}
      {members table : Table}
      {text rest : Text},
      readMembers fuel complete members text =
          .ok (table, rest) →
        Takes text rest

namespace ValuesTake

variable {fuel : Nat}
variable (hFuel : ValuesTake fuel)

include hFuel

theorem readValue
    {text rest : Text}
    {value : Toml}
    (hRead :
      Toml.readValue (fuel + 1) text = .ok (value, rest)) :
    Takes text rest := by
  by_cases hArray : text.head? = some '['
  · cases text with
    | nil => cases hArray
    | cons c text =>
        cases hArray
        rcases readArray_eq_ok_iff.mp hRead with
          ⟨start, items, hStart, hItems, _⟩
        exact
          .cons (by decide)
            ((takes_of_skipLayout hStart).trans
              (hFuel.items hItems))
  by_cases hTable : text.head? = some '\x7b'
  · cases text with
    | nil => cases hTable
    | cons c text =>
        cases hTable
        refine .cons (by decide) ?_
        have hFront := takes_skipSpaces text
        rcases readInline_eq_ok_iff.mp hRead with
          ⟨hClose, _⟩ | ⟨_, members, hMembers, _⟩
        · rw [hClose] at hFront
          exact hFront.trans (.cons (by decide) (.refl rest))
        · exact hFront.trans (hFuel.members hMembers)
  · rw [readValue_of_ne hArray hTable] at hRead
    exact takes_of_readScalar hRead

theorem readItems
    {text rest : Text}
    {items : List Toml}
    (hRead :
      Toml.readItems (fuel + 1) text = .ok (items, rest)) :
    Takes text rest := by
  by_cases hClose : text.head? = some ']'
  · cases text with
    | nil => cases hClose
    | cons c text =>
        cases hClose
        rw [readItems_close] at hRead
        cases hRead
        exact .cons (by decide) (.refl _)
  · rcases (readItems_eq_ok_iff hClose).mp hRead with
      ⟨item, after, next, hItem, hLayout, hNext⟩
    have hFront :=
      (hFuel.value hItem).trans (takes_of_skipLayout hLayout)
    rcases hNext with
      ⟨rfl, _⟩ | ⟨more, start, others, rfl, hStart, hOthers, _⟩
    · exact hFront.trans (.cons (by decide) (.refl rest))
    · have hBack :=
        (takes_of_skipLayout hStart).trans
          (hFuel.items hOthers)
      exact hFront.trans (.cons (by decide) hBack)

theorem readMembers
    {complete : List Key}
    {members table : Table}
    {text rest : Text}
    (hRead :
      Toml.readMembers (fuel + 1) complete members text =
        .ok (table, rest)) :
    Takes text rest := by
  rcases readMembers_eq_ok_iff.mp hRead with
    ⟨key, after, value, last, wider, hKey, hValue, _, hNext⟩
  have hFront :
      Takes text (skipSpaces last) :=
    (takes_of_readWholeKey hKey).trans
      (.cons (by decide)
        (((takes_skipSpaces after).trans
          (hFuel.value hValue)).trans (takes_skipSpaces last)))
  rcases hNext with ⟨hClose, _⟩ | ⟨more, hComma, hMembers⟩
  · rw [hClose] at hFront
    exact hFront.trans (.cons (by decide) (.refl rest))
  · rw [hComma] at hFront
    have hBack :=
      (takes_skipSpaces more).trans (hFuel.members hMembers)
    exact hFront.trans (.cons (by decide) hBack)

end ValuesTake

theorem valuesTake (fuel : Nat) : ValuesTake fuel := by
  induction fuel with
  | zero =>
      constructor
      · intro _ _ _ hRead
        cases hRead
      · intro _ _ _ hRead
        cases hRead
      · intro _ _ _ _ _ hRead
        cases hRead
  | succ fuel ih =>
      constructor
      · exact ih.readValue
      · exact ih.readItems
      · exact ih.readMembers

------------------------------------------------------------
-- Statements
------------------------------------------------------------

/- The kinds of statements a line can begin with. -/
theorem readStatement_cases
    {draft changed : Draft}
    {text rest : Text}
    (hRead : readStatement draft text = .ok (changed, rest)) :
    (changed = draft ∧ rest = text ∧
        (text = [] ∨ text.head? = some '\n' ∨
          text.head? = some '#')) ∨
      (∃ header,
        text = '[' :: '[' :: header ∧
          readElementHeader draft header =
            .ok (changed, rest)) ∨
      (∃ header,
        text = '[' :: header ∧
          header.head? ≠ some '[' ∧
          readHeader draft header = .ok (changed, rest)) ∨
      (text.head? ≠ some '[' ∧
        text ≠ [] ∧
        text.head? ≠ some '\n' ∧
        text.head? ≠ some '#' ∧
        readAssignment draft text = .ok (changed, rest)) := by
  unfold readStatement at hRead
  split at hRead
  · cases hRead
    exact .inl ⟨rfl, rfl, .inl rfl⟩
  · cases hRead
    exact .inl ⟨rfl, rfl, .inr (.inl rfl)⟩
  · cases hRead
    exact .inl ⟨rfl, rfl, .inr (.inr rfl)⟩
  · next header => exact .inr (.inl ⟨header, rfl, hRead⟩)
  · next header hOther =>
    refine .inr (.inr (.inl ⟨header, rfl, ?_, hRead⟩))
    rw [head?_ne_iff]
    intro rest hHeader
    exact hOther rest (by rw [hHeader])
  · next hNil hFeed hComment _ hBracket =>
    refine .inr (.inr (.inr ⟨?_, ?_, ?_, ?_, hRead⟩))
    · exact head?_ne_iff.mpr hBracket
    · exact hNil
    · exact head?_ne_iff.mpr hFeed
    · exact head?_ne_iff.mpr hComment

theorem takes_of_readStatement
    {draft changed : Draft}
    {text rest : Text}
    (hRead : readStatement draft text = .ok (changed, rest)) :
    Takes text rest := by
  rcases readStatement_cases hRead with
    ⟨_, rfl, _⟩ | ⟨header, rfl, hHeader⟩ |
      ⟨header, rfl, _, hHeader⟩ | ⟨_, _, _, _, hPair⟩
  · exact .refl _
  · rcases readElementHeader_eq_ok_iff.mp hHeader with
      ⟨key, hKey, _⟩
    have hRest :
        Takes (']' :: ']' :: rest) rest :=
      .cons (by decide) (.cons (by decide) (.refl rest))
    have hTakes :=
      (takes_skipSpaces header).trans
        ((takes_of_readWholeKey hKey).trans hRest)
    exact .cons (by decide) (.cons (by decide) hTakes)
  · rcases readHeader_eq_ok_iff.mp hHeader with
      ⟨key, hKey, _⟩
    have hRest :
        Takes (']' :: rest) rest :=
      .cons (by decide) (.refl rest)
    have hTakes :=
      (takes_skipSpaces header).trans
        ((takes_of_readWholeKey hKey).trans hRest)
    exact .cons (by decide) hTakes
  · rcases readAssignment_eq_ok_iff.mp hPair with
      ⟨key, after, value, hKey, hValue, _⟩
    have hBack :=
      (takes_skipSpaces after).trans
        ((valuesTake _).value hValue)
    exact
      (takes_of_readWholeKey hKey).trans
        (.cons (by decide) hBack)

/- A document is read to its end. -/
theorem takes_of_readStatements
    {fuel : Nat}
    {draft : Draft}
    {text : Text}
    {table : Table}
    (hFuel : text.length < fuel)
    (hRead : readStatements fuel draft text = .ok table) :
    Takes text [] := by
  induction fuel generalizing draft text with
  | zero => cases hFuel
  | succ fuel ih =>
      rcases readStatements_eq_ok_iff.mp hRead with
        ⟨changed, after, last, hStatement, hComment, hNext⟩
      have hFront :=
        (takes_skipSpaces text).trans
          ((takes_of_readStatement hStatement).trans
            ((takes_skipSpaces after).trans
              (takes_of_skipComment hComment)))
      rcases hNext with ⟨rfl, _⟩ | ⟨more, rfl, hMore⟩
      · exact hFront
      · have hLess := hFront.length_le
        rw [List.length_cons] at hLess
        have hBack := ih (by omega) hMore
        exact hFront.trans (.cons (by decide) hBack)

end Toml

end ScriptWorkspace
