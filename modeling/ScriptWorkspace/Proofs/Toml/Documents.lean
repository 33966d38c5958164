import ScriptWorkspace.Proofs.Toml.Unindent

/-
  Documents without indentation.

  A document describes the same table when its lines lose
  the spaces they begin with, as long as no line that begins
  inside of a string has any. A line end behind it does not
  matter either.

  Main declarations:
    * `Toml.isKept_readStatement`
    * `Toml.readStatements_unindented`
    * `Toml.IsFlush`
    * `Toml.parse_of_unindented`
-/

namespace ScriptWorkspace

namespace Toml

section Statements

variable {ending : Text}
variable (hEnding : FollowsLine ending)

include hEnding

theorem isKept_readElementHeader
    {draft changed : Draft}
    {text rest : Text}
    (hRead :
      readElementHeader draft text = .ok (changed, rest))
    (hFlush : isFlush .outside (text ++ ending) = true) :
    IsKept ending (readElementHeader draft) text changed
      rest := by
  rcases readElementHeader_eq_ok_iff.mp hRead with
    ⟨key, hKey, hDraft⟩
  rw [← isFlush_skipSpaces hEnding] at hFlush
  have hKept :=
    isKept_readWholeKey hEnding hKey ⟨by simp, by simp⟩ hFlush
  constructor
  · have hRest := hKept.flush
    rw [isFlush_cons_append (by decide),
      isFlush_cons_append (by decide)] at hRest
    exact hRest
  · rw [readElementHeader_eq_ok_iff, skipSpaces_moved hEnding]
    have hReads := hKept.reads
    rw [moved_cons (by decide), moved_cons (by decide)]
      at hReads
    exact ⟨key, hReads, hDraft⟩

theorem isKept_readHeader
    {draft changed : Draft}
    {text rest : Text}
    (hRead : readHeader draft text = .ok (changed, rest))
    (hFlush : isFlush .outside (text ++ ending) = true) :
    IsKept ending (readHeader draft) text changed rest := by
  rcases readHeader_eq_ok_iff.mp hRead with
    ⟨key, hKey, hDraft⟩
  rw [← isFlush_skipSpaces hEnding] at hFlush
  have hKept :=
    isKept_readWholeKey hEnding hKey ⟨by simp, by simp⟩ hFlush
  constructor
  · have hRest := hKept.flush
    rw [isFlush_cons_append (by decide)] at hRest
    exact hRest
  · rw [readHeader_eq_ok_iff, skipSpaces_moved hEnding]
    have hReads := hKept.reads
    rw [moved_cons (by decide)] at hReads
    exact ⟨key, hReads, hDraft⟩

theorem isKept_readAssignment
    {draft changed : Draft}
    {text rest : Text}
    (hRead : readAssignment draft text = .ok (changed, rest))
    (hFlush : isFlush .outside (text ++ ending) = true) :
    IsKept ending (readAssignment draft) text changed
      rest := by
  rcases readAssignment_eq_ok_iff.mp hRead with
    ⟨key, after, value, hKey, hValue, hDraft⟩
  have hKept :=
    isKept_readWholeKey hEnding hKey ⟨by simp, by simp⟩ hFlush
  have hAfter := hKept.flush
  rw [isFlush_cons_append (by decide),
    ← isFlush_skipSpaces hEnding] at hAfter
  have hValueKept :=
    isKept_readWholeValue hEnding hValue hAfter
  refine ⟨hValueKept.flush, ?_⟩
  have hReads := hKept.reads
  rw [moved_cons (by decide)] at hReads
  rw [readAssignment_eq_ok_iff]
  refine
    ⟨key, moved ending after, value, hReads, ?_, hDraft⟩
  rw [skipSpaces_moved hEnding]
  exact hValueKept.reads

omit hEnding in
/- Where a line has no statement, nothing is taken. -/
theorem readStatement_of_blank
    (draft : Draft)
    {text : Text}
    (hBlank :
      text = [] ∨ text.head? = some '\n' ∨
        text.head? = some '#') :
    readStatement draft text = .ok (draft, text) := by
  cases text with
  | nil => rfl
  | cons c text =>
      rcases hBlank with hNil | hFeed | hComment
      · cases hNil
      · cases hFeed
        rfl
      · cases hComment
        rfl

omit hEnding in
theorem readStatement_header
    (draft : Draft)
    {text : Text}
    (hOther : text.head? ≠ some '[') :
    readStatement draft ('[' :: text) =
      readHeader draft text := by
  rw [readStatement]
  rw [head?_ne_iff] at hOther
  exact hOther

omit hEnding in
theorem readStatement_pair
    (draft : Draft)
    {text : Text}
    (hNonempty : text ≠ [])
    (hFeed : text.head? ≠ some '\n')
    (hComment : text.head? ≠ some '#')
    (hBracket : text.head? ≠ some '[') :
    readStatement draft text = readAssignment draft text := by
  rw [head?_ne_iff] at hFeed hComment hBracket
  rw [readStatement]
  · exact hNonempty
  · exact hFeed
  · exact hComment
  · intro rest
    exact hBracket ('[' :: rest)
  · exact hBracket

theorem isKept_readStatement
    {draft changed : Draft}
    {text rest : Text}
    (hRead : readStatement draft text = .ok (changed, rest))
    (hFlush : isFlush .outside (text ++ ending) = true) :
    IsKept ending (readStatement draft) text changed rest := by
  rcases readStatement_cases hRead with
    ⟨rfl, rfl, hBlank⟩ | ⟨header, rfl, hHeader⟩ |
      ⟨header, rfl, hOther, hHeader⟩ |
      ⟨hBracket, hNonempty, hFeed, hComment, hPair⟩
  · refine ⟨hFlush, readStatement_of_blank _ ?_⟩
    by_cases hNil : rest = []
    · subst hNil
      rcases hEnding.moved (.inl rfl) with hEnd | hEnd
      · exact .inl hEnd
      · rcases hEnd with ⟨other, hEnd⟩
        rw [hEnd]
        exact .inr (.inl rfl)
    · rw [head?_moved hNil]
      exact .inr (hBlank.resolve_left hNil)
  · rw [isFlush_cons_append (by decide),
      isFlush_cons_append (by decide)] at hFlush
    have hKept :=
      isKept_readElementHeader hEnding hHeader hFlush
    refine ⟨hKept.flush, ?_⟩
    rw [moved_cons (by decide), moved_cons (by decide)]
    exact hKept.reads
  · rw [isFlush_cons_append (by decide)] at hFlush
    have hKept := isKept_readHeader hEnding hHeader hFlush
    refine ⟨hKept.flush, ?_⟩
    rw [moved_cons (by decide),
      readStatement_header _
        (head?_moved_ne hEnding (by decide) hOther)]
    exact hKept.reads
  · have hKept := isKept_readAssignment hEnding hPair hFlush
    refine ⟨hKept.flush, ?_⟩
    rw [readStatement_pair]
    · exact hKept.reads
    · exact moved_ne_nil hNonempty ending
    · rw [head?_moved hNonempty]
      exact hFeed
    · exact head?_moved_ne hEnding (by decide) hComment
    · exact head?_moved_ne hEnding (by decide) hBracket

end Statements

------------------------------------------------------------
-- Documents
------------------------------------------------------------

/- The end of a document is an empty line. -/
theorem readStatements_nil
    (fuel : Nat)
    (draft : Draft) :
    readStatements fuel draft [] = .ok draft.members := by
  cases fuel <;> rfl

/-
  The lines are read one after another. The first one may
  begin anywhere, and each of the others at the margin.
-/
theorem readStatements_unindented
    {ending : Text}
    (hEnding : ending = [] ∨ ending = ['\n'])
    {fuel : Nat}
    {draft : Draft}
    {text : Text}
    {table : Table}
    (hFuel : text.length < fuel)
    (hRead : readStatements fuel draft text = .ok table)
    (hFlush : isFlush .outside (text ++ ending) = true)
    (atStart : Bool)
    {more : Nat}
    (hMore :
      (unindented atStart (text ++ ending)).length < more) :
    readStatements more draft
        (unindented atStart (text ++ ending)) =
      .ok table := by
  have hLine : FollowsLine ending := by
    rcases hEnding with rfl | rfl
    · exact .inl rfl
    · exact .inr ⟨[], rfl⟩
  induction fuel generalizing draft text atStart more with
  | zero => cases hFuel
  | succ fuel ih =>
      rcases Nat.exists_eq_succ_of_ne_zero
          (Nat.ne_of_gt (Nat.zero_lt_of_lt hMore)) with
        ⟨more, rfl⟩
      rcases readStatements_eq_ok_iff.mp hRead with
        ⟨changed, after, last, hStatement, hComment, hNext⟩
      rw [← isFlush_skipSpaces hLine] at hFlush
      have hKept :=
        isKept_readStatement hLine hStatement hFlush
      have hAfterFlush := hKept.flush
      rw [← isFlush_skipSpaces hLine] at hAfterFlush
      rcases skipComment_moved hLine hComment hAfterFlush with
        ⟨hLastFlush, hMoved⟩
      have hReads := hKept.reads
      rw [← skipSpaces_unindented hLine atStart] at hReads
      rw [← skipSpaces_moved hLine] at hMoved
      rw [readStatements_eq_ok_iff]
      refine
        ⟨changed, moved ending after, moved ending last, hReads,
          hMoved, ?_⟩
      rcases hNext with ⟨rfl, rfl⟩ | ⟨tail, rfl, hTail⟩
      · rcases hEnding with rfl | rfl
        · exact .inl ⟨rfl, rfl⟩
        · exact .inr ⟨[], rfl, readStatements_nil more changed⟩
      · have hFront :=
          (takes_skipSpaces text).trans
            ((takes_of_readStatement hStatement).trans
              ((takes_skipSpaces after).trans
                (takes_of_skipComment hComment)))
        have hMovedFront :=
          (takes_skipSpaces
            (unindented atStart (text ++ ending))).trans
            ((takes_of_readStatement hReads).trans
              ((takes_skipSpaces (moved ending after)).trans
                (takes_of_skipComment hMoved)))
        have hFeed :
            moved ending ('\n' :: tail) =
              '\n' :: unindented true (tail ++ ending) :=
          unindented_newline false (tail ++ ending)
        have hTailFlush :
            isFlush .outside (tail ++ ending) = true := by
          rw [← hLastFlush]
          symm
          apply isFlush_cons <;> decide
        have hLess := hFront.length_le
        have hMovedLess := hMovedFront.length_le
        rw [hFeed] at hMovedLess
        rw [List.length_cons] at hLess hMovedLess
        refine .inr ⟨_, hFeed, ?_⟩
        exact
          ih (by omega) hTail hTailFlush true (by omega)

/-
  No line of the document that begins inside of a string
  begins with a space, folded lines apart.
-/
def IsFlush (text : Text) : Prop :=
  isFlush .outside (joinLineEnds text) = true

instance (text : Text) : Decidable (IsFlush text) :=
  inferInstanceAs
    (Decidable (isFlush .outside (joinLineEnds text) = true))

/- A document that can be read has no stray carriage return. -/
theorem not_mem_joinLineEnds_of_parse
    {text : Text}
    {table : Table}
    (hParse : parse text = .ok table) :
    '\r' ∉ joinLineEnds text := by
  rcases takes_of_readStatements (Nat.lt_succ_self _) hParse
    with ⟨taken, hText, hReturn⟩
  rw [hText, List.append_nil]
  exact hReturn

/- The document without indentation says the same. -/
theorem parse_of_unindented
    {text other ending : Text}
    {table : Table}
    (hParse : parse text = .ok table)
    (hEnding : ending = [] ∨ ending = ['\n'])
    (hFlush :
      isFlush .outside (joinLineEnds text ++ ending) = true)
    (hOther :
      joinLineEnds other =
        unindented true (joinLineEnds text ++ ending)) :
    parse other = .ok table := by
  unfold parse
  rw [hOther]
  exact
    readStatements_unindented hEnding (Nat.lt_succ_self _)
      hParse hFlush true (Nat.lt_succ_self _)

end Toml

end ScriptWorkspace
