import ScriptWorkspace.Proofs.Script.Opaque

/-
  Inner attributes of the header.

  An attribute ends at the bracket that matches its opening
  one. Which one that is can be said of the text as a whole:
  the text in between is balanced, where literals are passed
  over. The scan reads the text line by line and begins every
  line outside of the literals; it finds the same bracket as
  long as no literal spans several lines.

  Main declarations:
    * `IsBalanced`
    * `Literal.after`, `Literal.breaks`
    * `beforeClose?`
    * `isBalanced_of_beforeClose?`
    * `IsBalanced.beforeClose?_append`
    * `Source.textFrom`, `Source.following`
    * `Source.attribute_is_read_as_one_text`
    * `Source.attribute_not_closed_behind_literal`
-/

namespace ScriptWorkspace

namespace Script

open Text

------------------------------------------------------------
-- Balanced Texts
------------------------------------------------------------

/-
  What can stand between the quotes of a literal: a quote or
  a backslash only behind a backslash.
-/
inductive IsLiteralBody : Text → Prop
  | nil : IsLiteralBody []
  | plain
      {c : Char}
      {rest : Text}
      (hQuote : c ≠ '"')
      (hBackslash : c ≠ '\\')
      (hRest : IsLiteralBody rest) :
      IsLiteralBody (c :: rest)
  | escaped
      {rest : Text}
      (c : Char)
      (hRest : IsLiteralBody rest) :
      IsLiteralBody ('\\' :: c :: rest)

/-
  A text whose brackets match, those in literals excepted.
-/
inductive IsBalanced : Text → Prop
  | nil : IsBalanced []
  | plain
      {c : Char}
      {rest : Text}
      (hQuote : c ≠ '"')
      (hOpening : c ≠ '[')
      (hClosing : c ≠ ']')
      (hRest : IsBalanced rest) :
      IsBalanced (c :: rest)
  | literal
      {body rest : Text}
      (hBody : IsLiteralBody body)
      (hRest : IsBalanced rest) :
      IsBalanced ('"' :: (body ++ '"' :: rest))
  | nested
      {inner rest : Text}
      (hInner : IsBalanced inner)
      (hRest : IsBalanced rest) :
      IsBalanced ('[' :: (inner ++ ']' :: rest))

theorem IsBalanced.append
    {front back : Text}
    (hFront : IsBalanced front)
    (hBack : IsBalanced back) :
    IsBalanced (front ++ back) := by
  induction hFront with
  | nil => exact hBack
  | plain hQuote hOpening hClosing _ ih =>
      exact .plain hQuote hOpening hClosing ih
  | literal hBody _ ih =>
      simpa [List.append_assoc] using .literal hBody ih
  | nested hInner _ _ ih =>
      simpa [List.append_assoc] using .nested hInner ih

------------------------------------------------------------
-- The Matching Bracket
------------------------------------------------------------

namespace Literal

/- Where the scan of an attribute stands after a character. -/
def after : Literal → Char → Literal
  | .outside, c => if c = '"' then .inside else .outside
  | .inside, c =>
    if c = '\\' then .escaped
    else if c = '"' then .outside
    else .inside
  | .escaped, _ => .inside

/- Where it stands after some characters. -/
def afterAll (literal : Literal) (text : Text) : Literal :=
  text.foldl after literal

/- A line feed is read inside of a literal. -/
def breaks : Literal → Text → Bool
  | _, [] => false
  | literal, c :: rest =>
    (c == '\n' && literal != .outside) ||
      (literal.after c).breaks rest

theorem breaks_append
    (literal : Literal)
    (front back : Text) :
    literal.breaks (front ++ back) =
      (literal.breaks front ||
        (literal.afterAll front).breaks back) := by
  induction front generalizing literal with
  | nil => rfl
  | cons c front ih =>
      simp [breaks, ih, afterAll, Bool.or_assoc]

end Literal

/-
  How many brackets are open around the innermost one after
  a character that does not close the outermost one.
-/
def aroundAfter
    (literal : Literal)
    (around : Nat)
    (c : Char) : Nat :=
  match literal with
  | .outside =>
    if c = '[' then around + 1
    else if c = ']' then around - 1
    else around
  | _ => around

/-
  The text in front of the bracket that closes the outermost
  of the brackets that are open.
-/
def beforeClose? : Literal → Nat → Text → Option Text
  | _, _, [] => none
  | literal, around, c :: rest =>
    if literal = .outside ∧ around = 0 ∧ c = ']' then
      some []
    else
      (beforeClose? (literal.after c)
        (aroundAfter literal around c) rest).map (c :: ·)

/- The depth of the brackets goes the same way. -/
theorem bracketDepthFrom_cons
    (literal : Literal)
    (around : Nat)
    (c : Char)
    (rest : Text) :
    bracketDepthFrom literal (c :: rest) (around + 1) =
      if literal = .outside ∧ around = 0 ∧ c = ']' then
        0
      else
        bracketDepthFrom (literal.after c) rest
          (aroundAfter literal around c + 1) := by
  cases literal with
  | outside =>
      by_cases hQuote : c = '"'
      · simp [bracketDepthFrom, Literal.after, aroundAfter,
          hQuote]
      · by_cases hOpening : c = '['
        · simp [bracketDepthFrom, Literal.after,
            aroundAfter, hOpening]
        · by_cases hClosing : c = ']'
          · cases around <;>
              simp [bracketDepthFrom, Literal.after,
                aroundAfter, hClosing]
          · simp [bracketDepthFrom, Literal.after,
              aroundAfter, hQuote, hOpening, hClosing]
  | inside =>
      simp only [bracketDepthFrom, Literal.after,
        aroundAfter, reduceCtorEq, false_and, if_false]
      split
      · rfl
      · split <;> rfl
  | escaped =>
      simp [bracketDepthFrom, Literal.after, aroundAfter]

------------------------------------------------------------
-- Soundness
------------------------------------------------------------

/-
  A text outside of literals behind which the outermost of
  the brackets that are open can be closed.
-/
def ClosesOutside : Nat → Text → Prop
  | 0, text => IsBalanced text
  | around + 1, text =>
    ∃ inner rest,
      text = inner ++ ']' :: rest ∧
        IsBalanced inner ∧
        ClosesOutside around rest

/- Such a text from anywhere in an attribute on. -/
def Closes
    (literal : Literal)
    (around : Nat)
    (text : Text) : Prop :=
  match literal with
  | .outside => ClosesOutside around text
  | .inside =>
    ∃ body rest,
      text = body ++ '"' :: rest ∧
        IsLiteralBody body ∧
        ClosesOutside around rest
  | .escaped =>
    ∃ c body rest,
      text = c :: (body ++ '"' :: rest) ∧
        IsLiteralBody body ∧
        ClosesOutside around rest

theorem ClosesOutside.of_append
    {front back : Text}
    (hFront : IsBalanced front)
    {around : Nat}
    (hBack : ClosesOutside around back) :
    ClosesOutside around (front ++ back) := by
  cases around with
  | zero => exact hFront.append hBack
  | succ around =>
      rcases hBack with ⟨inner, rest, rfl, hInner, hRest⟩
      refine ⟨front ++ inner, rest, ?_,
        hFront.append hInner, hRest⟩
      rw [List.append_assoc]

/- A character in front leaves such a text one. -/
theorem Closes.cons
    {literal : Literal}
    {around : Nat}
    {c : Char}
    {rest : Text}
    (hOpen :
      ¬(literal = .outside ∧ around = 0 ∧ c = ']'))
    (hRest :
      Closes (literal.after c) (aroundAfter literal around c)
        rest) :
    Closes literal around (c :: rest) := by
  cases literal with
  | outside =>
      by_cases hQuote : c = '"'
      · subst hQuote
        rcases hRest with ⟨body, back, rfl, hBody, hBack⟩
        have hLiteral := IsBalanced.literal hBody .nil
        have hAll := hBack.of_append hLiteral
        rwa [List.cons_append, List.append_assoc] at hAll
      · simp only [Closes, Literal.after, hQuote, if_false,
          aroundAfter] at hRest ⊢
        split at hRest
        case isTrue hOpening =>
          rcases hRest with ⟨inner, back, rfl, hInner, hBack⟩
          have hNested := IsBalanced.nested hInner .nil
          have hAll := hBack.of_append hNested
          rw [hOpening]
          rwa [List.cons_append, List.append_assoc] at hAll
        case isFalse hOpening =>
          split at hRest
          case isTrue hClosing =>
            subst hClosing
            cases around with
            | zero => simp at hOpen
            | succ around => exact ⟨[], rest, rfl, .nil, hRest⟩
          case isFalse hClosing =>
            exact
              hRest.of_append
                (.plain hQuote hOpening hClosing .nil)
  | inside =>
      simp only [Closes, Literal.after, aroundAfter]
        at hRest ⊢
      by_cases hBackslash : c = '\\'
      · rw [if_pos hBackslash] at hRest
        rcases hRest with
          ⟨next, body, back, rfl, hBody, hBack⟩
        exact
          ⟨'\\' :: next :: body, back, by rw [hBackslash]; rfl,
            .escaped next hBody, hBack⟩
      · rw [if_neg hBackslash] at hRest
        by_cases hQuote : c = '"'
        · rw [if_pos hQuote] at hRest
          exact ⟨[], rest, by rw [hQuote]; rfl, .nil, hRest⟩
        · rw [if_neg hQuote] at hRest
          rcases hRest with ⟨body, back, rfl, hBody, hBack⟩
          exact
            ⟨c :: body, back, rfl,
              .plain hQuote hBackslash hBody, hBack⟩
  | escaped =>
      rcases hRest with ⟨body, back, rfl, hBody, hBack⟩
      exact ⟨c, body, back, rfl, hBody, hBack⟩

/- What is found is such a text, in front of a bracket. -/
theorem closes_of_beforeClose?
    {literal : Literal}
    {around : Nat}
    {text inner : Text}
    (hFound :
      beforeClose? literal around text = some inner) :
    Closes literal around inner ∧
      ∃ tail, text = inner ++ ']' :: tail := by
  induction text generalizing literal around inner with
  | nil => simp [beforeClose?] at hFound
  | cons c rest ih =>
      unfold beforeClose? at hFound
      split at hFound
      case isTrue hClose =>
        rcases hClose with ⟨rfl, rfl, rfl⟩
        rw [← Option.some.inj hFound]
        exact ⟨.nil, rest, rfl⟩
      case isFalse hOpen =>
        rcases Option.map_eq_some_iff.mp hFound with
          ⟨more, hMore, rfl⟩
        rcases ih hMore with ⟨hCloses, tail, rfl⟩
        exact ⟨hCloses.cons hOpen, tail, rfl⟩

theorem isBalanced_of_beforeClose?
    {text inner : Text}
    (hFound : beforeClose? .outside 0 text = some inner) :
    IsBalanced inner ∧
      ∃ tail, text = inner ++ ']' :: tail :=
  closes_of_beforeClose? hFound

------------------------------------------------------------
-- Completeness
------------------------------------------------------------

/- A literal is passed over. -/
theorem IsLiteralBody.beforeClose?_append
    {body : Text}
    (hBody : IsLiteralBody body)
    (around : Nat)
    (rest : Text) :
    beforeClose? .inside around (body ++ '"' :: rest) =
      (beforeClose? .outside around rest).map
        (body ++ '"' :: ·) := by
  induction hBody with
  | nil => rfl
  | plain hQuote hBackslash _ ih =>
      simp [beforeClose?, Literal.after, aroundAfter, hQuote,
        hBackslash, ih, Function.comp_def]
  | escaped c _ ih =>
      simp [beforeClose?, Literal.after, aroundAfter, ih,
        Function.comp_def]

/- And so is a balanced text. -/
theorem IsBalanced.beforeClose?_append
    {front : Text}
    (hFront : IsBalanced front)
    (around : Nat)
    (rest : Text) :
    beforeClose? .outside around (front ++ rest) =
      (beforeClose? .outside around rest).map
        (front ++ ·) := by
  induction hFront generalizing around rest with
  | nil => simp
  | plain hQuote hOpening hClosing _ ih =>
      simp [beforeClose?, Literal.after, aroundAfter, hQuote,
        hOpening, hClosing, ih, Function.comp_def]
  | literal hBody _ ih =>
      rw [List.cons_append, List.append_assoc,
        List.cons_append]
      simp [beforeClose?, Literal.after, aroundAfter,
        hBody.beforeClose?_append, ih, Function.comp_def]
  | nested _ _ ihInner ihRest =>
      rw [List.cons_append, List.append_assoc,
        List.cons_append]
      simp [beforeClose?, Literal.after, aroundAfter, ihInner,
        ihRest, Function.comp_def]

theorem IsBalanced.beforeClose?_eq
    {inner : Text}
    (hInner : IsBalanced inner)
    (tail : Text) :
    beforeClose? .outside 0 (inner ++ ']' :: tail) =
      some inner := by
  rw [hInner.beforeClose?_append]
  simp [beforeClose?]

------------------------------------------------------------
-- Lines Of An Attribute
------------------------------------------------------------

/-
  The scan of one line in an attribute: the depth that it
  leaves is that of the text behind the line, unless the
  attribute ends in the line.
-/
theorem beforeClose?_line
    {literal : Literal}
    {around : Nat}
    {line : Text}
    (hFree : '\n' ∉ line)
    (behind : Text) :
    (bracketDepthFrom literal line (around + 1) = 0 ∧
        ∃ inner,
          beforeClose? literal around (line ++ behind) =
              some inner ∧
            '\n' ∉ inner) ∨
      ∃ next,
        bracketDepthFrom literal line (around + 1) =
            next + 1 ∧
          beforeClose? literal around (line ++ behind) =
            (beforeClose? (literal.afterAll line) next
              behind).map (line ++ ·) := by
  induction line generalizing literal around with
  | nil =>
      refine .inr ⟨around, rfl, ?_⟩
      simp [Literal.afterAll]
  | cons c line ih =>
      rcases List.ne_and_not_mem_of_not_mem_cons hFree with
        ⟨hChar, hRest⟩
      rw [bracketDepthFrom_cons, List.cons_append,
        beforeClose?]
      split
      case isTrue hClose =>
        exact .inl ⟨rfl, [], rfl, by simp⟩
      case isFalse hOpen =>
        rcases @ih (literal.after c)
            (aroundAfter literal around c) hRest with
          ⟨hZero, inner, hInner, hNone⟩ |
          ⟨next, hNext, hBehind⟩
        · refine .inl ⟨hZero, c :: inner, ?_, ?_⟩
          · rw [hInner]
            rfl
          · simp [hChar, hNone]
        · refine .inr ⟨next, hNext, ?_⟩
          rw [hBehind, Option.map_map]
          rfl

/- The end of a line closes nothing. -/
theorem beforeClose?_terminator
    (literal : Literal)
    (terminator : Terminator)
    (around : Nat)
    (behind : Text) :
    beforeClose? literal around
        (terminator.toText ++ behind) =
      (beforeClose? (literal.afterAll terminator.toText)
        around behind).map (terminator.toText ++ ·) := by
  cases literal <;> cases terminator <;>
    simp [Terminator.toText, beforeClose?, Literal.afterAll,
      Literal.after, aroundAfter, Function.comp_def]

/- But a literal goes on behind it. -/
theorem Literal.outside_of_breaks
    {literal : Literal}
    {terminator : Terminator}
    (hEnds : terminator ≠ .none)
    {behind : Text}
    (hBreaks :
      literal.breaks (terminator.toText ++ behind) =
        false) :
    literal = .outside ∧
      literal.afterAll terminator.toText = .outside ∧
      Literal.outside.breaks behind = false := by
  cases terminator <;> cases literal <;>
    simp_all [Terminator.toText, breaks, after, afterAll]

section Line

variable {around : Nat} {line behind : Text}
variable {terminator : Terminator}
variable (hFree : '\n' ∉ line)
variable (hLast : terminator = .none → behind = [])

include hFree hLast

/- The attribute ends in a line or in the text behind it. -/
theorem closes_in_line_or_behind
    {inner : Text}
    (hFound :
      beforeClose? .outside around
          (line ++ (terminator.toText ++ behind)) =
        some inner)
    (hBreaks : Literal.outside.breaks inner = false) :
    (bracketDepth line (around + 1) = 0 ∧
        inner.count '\n' = 0) ∨
      ∃ next more,
        bracketDepth line (around + 1) = next + 1 ∧
          beforeClose? .outside next behind = some more ∧
          Literal.outside.breaks more = false ∧
          inner.count '\n' = more.count '\n' + 1 := by
  rcases @beforeClose?_line .outside around line hFree
      (terminator.toText ++ behind) with
    ⟨hZero, other, hOther, hNone⟩ | ⟨next, hNext, hBehind⟩
  · rw [hFound, Option.some.injEq] at hOther
    refine .inl ⟨hZero, ?_⟩
    rw [hOther]
    exact List.count_eq_zero_of_not_mem hNone
  · rw [hFound, beforeClose?_terminator, Option.map_map]
      at hBehind
    rcases Option.map_eq_some_iff.mp hBehind.symm with
      ⟨more, hMore, hInner⟩
    have hEnds : terminator ≠ .none := by
      intro hEnd
      rw [hLast hEnd] at hMore
      simp [beforeClose?] at hMore
    simp only [Function.comp_apply] at hInner
    rw [← hInner, Literal.breaks_append, Bool.or_eq_false_iff]
      at hBreaks
    rcases Literal.outside_of_breaks hEnds hBreaks.2 with
      ⟨_, hAfter, hClean⟩
    rw [hAfter] at hMore
    refine .inr ⟨next, more, hNext, hMore, hClean, ?_⟩
    have hEnd : terminator.toText.count '\n' = 1 := by
      cases terminator with
      | none => exact absurd rfl hEnds
      | lineFeed => rfl
      | carriageReturnLineFeed => rfl
    rw [← hInner, List.count_append, List.count_append, hEnd,
      List.count_eq_zero_of_not_mem hFree]
    omega

/- If it ends nowhere, it does not end in the line. -/
theorem open_behind_line
    (hNone :
      beforeClose? .outside around
          (line ++ (terminator.toText ++ behind)) =
        none)
    (hBreaks :
      Literal.outside.breaks
          (line ++ (terminator.toText ++ behind)) =
        false) :
    ∃ next,
      bracketDepth line (around + 1) = next + 1 ∧
        beforeClose? .outside next behind = none ∧
        Literal.outside.breaks behind = false := by
  rcases @beforeClose?_line .outside around line hFree
      (terminator.toText ++ behind) with
    ⟨_, other, hOther, _⟩ | ⟨next, hNext, hBehind⟩
  · rw [hNone] at hOther
    exact absurd hOther (by simp)
  · refine ⟨next, hNext, ?_⟩
    by_cases hEnds : terminator = .none
    · rw [hLast hEnds]
      exact ⟨rfl, rfl⟩
    · rw [Literal.breaks_append, Bool.or_eq_false_iff]
        at hBreaks
      rcases Literal.outside_of_breaks hEnds hBreaks.2 with
        ⟨_, hAfter, hClean⟩
      rw [hNone, beforeClose?_terminator, Option.map_map,
        hAfter] at hBehind
      exact
        ⟨Option.map_eq_none_iff.mp hBehind.symm, hClean⟩

end Line

namespace Source

/- The script from the line of an index on. -/
def textFrom (script : Text) (index : Nat) : Text :=
  ((Line.splitText script).drop index).flatMap Line.raw

/-
  What follows in a script behind the beginning of a line:
  the rest of the line, its end and all later lines.
-/
def following
    (script : Text)
    (index : Nat)
    (line : Line)
    (rest : Text) : Text :=
  rest ++
    (line.terminator.toText ++ textFrom script (index + 1))

variable {script : Text} {index : Nat}

theorem textFrom_of_getElem?
    {line : Line}
    (hLine : (Line.splitText script)[index]? = some line) :
    textFrom script index =
      following script index line line.text := by
  rcases List.getElem?_eq_some_iff.mp hLine with
    ⟨hBound, rfl⟩
  unfold textFrom following
  rw [List.drop_eq_getElem_cons hBound, List.flatMap_cons,
    ← List.append_assoc]
  rfl

theorem exists_line_of_textFrom
    (hText : textFrom script index ≠ []) :
    ∃ line, (Line.splitText script)[index]? = some line := by
  cases hLine : (Line.splitText script)[index]? with
  | some line => exact ⟨line, rfl⟩
  | none =>
      rw [List.getElem?_eq_none_iff] at hLine
      unfold textFrom at hText
      rw [List.drop_eq_nil_iff.mpr hLine] at hText
      exact absurd rfl hText

section Line

variable {line : Line}
variable (hLine : (Line.splitText script)[index]? = some line)

include hLine

theorem lineTexts_of_splitText :
    (lineTexts script)[index]? = some line.text := by
  rw [← map_text_splitText, List.getElem?_map, hLine]
  rfl

/- No line has a line feed in its text. -/
theorem not_mem_text_of_splitText : '\n' ∉ line.text := by
  have hMem :=
    List.mem_of_getElem? (lineTexts_of_splitText hLine)
  rcases List.mem_map.mp hMem with ⟨raw, hRaw, hText⟩
  rw [← hText]
  exact
    not_mem_of_splitTerminator
      ((areLines_rawLines script).isLine_of_mem hRaw)

/- Only the last line may lack its end. -/
theorem textFrom_of_terminator
    (hEnds : line.terminator = .none) :
    textFrom script (index + 1) = [] := by
  rcases List.getElem?_eq_some_iff.mp hLine with
    ⟨hBound, hAt⟩
  have hDrop := List.drop_eq_getElem_cons hBound
  rw [hAt] at hDrop
  have hLines := areLines_rawLines script
  rw [← map_raw_placeLines 0 (rawLines script)] at hLines
  change AreLines ((Line.splitText script).map Line.raw)
    at hLines
  rw [← List.take_append_drop index (Line.splitText script),
    List.map_append,
    areLines_append_iff _ (by rw [hDrop]; simp), hDrop]
    at hLines
  unfold textFrom
  cases hRest : (Line.splitText script).drop (index + 1) with
  | nil => rfl
  | cons next lines =>
      rw [hRest] at hLines
      rcases hLines.2.1 with ⟨body, _, hRaw⟩
      have hFeed : '\n' ∈ line.raw := by
        rw [hRaw]
        simp
      unfold Line.raw at hFeed
      rw [hEnds] at hFeed
      simp only [Terminator.toText, List.append_nil] at hFeed
      exact
        absurd hFeed (not_mem_text_of_splitText hLine)

end Line

section Attribute

variable {line : Line}
variable {part : Text} {around openedAt : Nat}

/- Inside an attribute the next line is read from its start. -/
theorem exists_next_line
    (hState :
      stateBefore script index =
        .attribute (around + 1) openedAt)
    (hLine : (Line.splitText script)[index]? = some line) :
    stateBefore script (index + 1) =
        .ofBracketDepth (bracketDepth line.text (around + 1))
          openedAt ∧
      IsOpaque script index := by
  have hText := lineTexts_of_splitText hLine
  have hStart : headerStart (lineTexts script) ≤ index :=
    headerStart_le_of_stateBefore_ne (by simp [hState])
  refine ⟨?_, isOpaque_of_isOpen hText ?_⟩
  · rw [stateBefore_succ hText hStart, hState]
    rfl
  · rw [hState]
    exact True.intro

variable (hLine : (Line.splitText script)[index]? = some line)
variable (hFree : '\n' ∉ part)
variable
  (hState :
    stateBefore script (index + 1) =
      .ofBracketDepth (bracketDepth part (around + 1))
        openedAt)

include hLine hFree hState

/-
  From a part of a line on, the scan of an attribute reads to
  the line that has the matching bracket. The induction is on
  the number of lines in between.
-/
theorem header_behind_attribute
    {inner : Text}
    (hOpaque : IsOpaque script index)
    (hFound :
      beforeClose? .outside around
          (following script index line part) =
        some inner)
    (hBreaks : Literal.outside.breaks inner = false) :
    (∀ offset ≤ inner.count '\n',
        IsOpaque script (index + offset)) ∧
      stateBefore script (index + inner.count '\n' + 1) =
        .header := by
  generalize hCount : inner.count '\n' = count
  induction count generalizing index line part around inner with
  | zero =>
      rcases closes_in_line_or_behind hFree
          (textFrom_of_terminator hLine) hFound hBreaks with
        ⟨hZero, _⟩ | ⟨_, _, _, _, _, hMore⟩
      · rw [hZero] at hState
        refine ⟨?_, hState⟩
        intro offset hOffset
        rw [Nat.le_zero.mp hOffset]
        exact hOpaque
      · omega
  | succ count ih =>
      rcases closes_in_line_or_behind hFree
          (textFrom_of_terminator hLine) hFound hBreaks with
        ⟨_, hNone⟩ |
        ⟨next, more, hNext, hBehind, hClean, hMore⟩
      · omega
      · have hText : textFrom script (index + 1) ≠ [] := by
          intro hNil
          rw [hNil] at hBehind
          simp [beforeClose?] at hBehind
        rcases exists_line_of_textFrom hText with
          ⟨other, hOther⟩
        rw [hNext] at hState
        rcases exists_next_line hState hOther with
          ⟨hAfter, hHere⟩
        rw [textFrom_of_getElem? hOther] at hBehind
        rcases ih hOther (not_mem_text_of_splitText hOther)
            hAfter hHere hBehind hClean (by omega) with
          ⟨hAll, hHeader⟩
        constructor
        · intro offset hOffset
          cases offset with
          | zero => exact hOpaque
          | succ offset =>
              have hLater := hAll offset (by omega)
              rwa [Nat.add_right_comm] at hLater
        · rwa [Nat.add_right_comm index 1] at hHeader

/-
  If there is no such bracket, it reads to the end. Here the
  induction is on the number of lines that are left.
-/
theorem attribute_open_at_end
    (hNone :
      beforeClose? .outside around
          (following script index line part) =
        none)
    (hBreaks :
      Literal.outside.breaks
          (following script index line part) =
        false) :
    ∃ depth, lastState script = .attribute depth openedAt := by
  generalize hLeft :
    (lineTexts script).length - (index + 1) = left
  induction left generalizing index line part around with
  | zero =>
      rcases open_behind_line hFree
          (textFrom_of_terminator hLine) hNone hBreaks with
        ⟨next, hNext, _, _⟩
      rw [stateBefore_eq_lastState (by omega), hNext]
        at hState
      exact ⟨next + 1, hState⟩
  | succ left ih =>
      rcases open_behind_line hFree
          (textFrom_of_terminator hLine) hNone hBreaks with
        ⟨next, hNext, hBehind, hClean⟩
      have hBound :
          index + 1 < (Line.splitText script).length := by
        rw [length_splitText]
        omega
      have hOther := List.getElem?_eq_getElem hBound
      rw [hNext] at hState
      rcases exists_next_line hState hOther with
        ⟨hAfter, _⟩
      rw [textFrom_of_getElem? hOther] at hBehind hClean
      exact
        ih hOther (not_mem_text_of_splitText hOther) hAfter
          hBehind hClean (by omega)

end Attribute

------------------------------------------------------------
-- Attributes Of A Script
------------------------------------------------------------

/- An attribute is told from an interpreter line. -/
theorem isInterpreterLine_of_attribute
    {text rest : Text}
    (hOpens : text.stripLeft = '#' :: '!' :: '[' :: rest) :
    isInterpreterLine text = false := by
  unfold isInterpreterLine
  cases hStrip : stripPrefix? ['#', '!'] text with
  | none => rfl
  | some behind =>
      have hText := append_of_stripPrefix? hStrip
      have hHash : isBlank '#' = false := by decide
      have hBracket : isBlank '[' = false := by decide
      rw [hText] at hOpens
      simp [stripLeft, hHash] at hOpens
      simp [hOpens, stripLeft, hBracket, startsWith]

/- So the header has begun where a line opens an attribute. -/
theorem headerStart_le_of_attribute
    {line : Line}
    (hLine : (Line.splitText script)[index]? = some line)
    {rest : Text}
    (hOpens :
      line.text.stripLeft = '#' :: '!' :: '[' :: rest) :
    headerStart (lineTexts script) ≤ index := by
  have hText := lineTexts_of_splitText hLine
  have hPlain := isInterpreterLine_of_attribute hOpens
  cases hTexts : lineTexts script with
  | nil => exact Nat.zero_le index
  | cons first texts =>
      unfold headerStart
      split
      case isTrue hNames =>
        cases index with
        | zero =>
            rw [hTexts] at hText
            obtain rfl : first = line.text := by
              simpa using hText
            rw [namesInterpreter, hPlain] at hNames
            exact absurd hNames (by simp)
        | succ index => exact Nat.succ_pos index
      case isFalse hNames => exact Nat.zero_le index

theorem step_of_attribute
    {text rest : Text}
    (hOpens : text.stripLeft = '#' :: '!' :: '[' :: rest)
    (index : Nat) :
    HeaderState.step .header index text =
      (.ofBracketDepth (bracketDepth rest 1) index,
        none) := by
  simp [HeaderState.step, DocText.ofLine?, hOpens, docToken,
    stripPrefix?, isPlainComment, startsWith, bracketDepth,
    bracketDepthFrom]

/-
  Let the scan come to a line in the header that leads with
  the beginning of an attribute, and take what follows as one
  text. If a closing bracket stands behind a balanced text,
  and no literal of that text spans several lines, then all
  lines up to the one of the bracket are no documentation and
  do not end the header, and the scan is in the header again
  at the next line. If no closing bracket stands behind a
  balanced text, and no literal spans several lines, then
  reading the script fails and names the line.
-/
theorem attribute_is_read_as_one_text
    {line : Line}
    (hLine : (Line.splitText script)[index]? = some line)
    (hState : stateBefore script index = .header)
    {rest : Text}
    (hOpens :
      line.text.stripLeft = '#' :: '!' :: '[' :: rest) :
    (∀ inner tail,
        following script index line rest =
            inner ++ ']' :: tail →
          IsBalanced inner →
          Literal.outside.breaks inner = false →
          (∀ offset ≤ inner.count '\n',
              IsOpaque script (index + offset)) ∧
            stateBefore script
                (index + inner.count '\n' + 1) =
              .header) ∧
      ((¬∃ inner tail,
          following script index line rest =
              inner ++ ']' :: tail ∧
            IsBalanced inner) →
        Literal.outside.breaks
            (following script index line rest) =
          false →
        ofText script =
          .error
            (faultAt .innerAttribute (Line.splitText script)
              index)) := by
  have hText := lineTexts_of_splitText hLine
  have hStart := headerStart_le_of_attribute hLine hOpens
  have hStep := step_of_attribute hOpens index
  have hFree : '\n' ∉ rest := by
    intro hMem
    have hBare : '\n' ∈ line.text.stripLeft := by
      rw [hOpens]
      simp [hMem]
    exact
      not_mem_text_of_splitText hLine
        ((List.dropWhile_sublist isBlank).subset hBare)
  have hAfter :
      stateBefore script (index + 1) =
        .ofBracketDepth (bracketDepth rest (0 + 1)) index := by
    rw [stateBefore_succ hText hStart, hState, hStep]
  constructor
  case left =>
    intro inner tail hFollowing hInner hBreaks
    have hFound := hInner.beforeClose?_eq tail
    rw [← hFollowing] at hFound
    have hOpaque : IsOpaque script index := by
      apply isOpaque_of_step hText hStart
      · rw [hState, hStep]
      · rw [hState, hStep]
        exact HeaderState.ofBracketDepth_ne_code _ _
    exact
      header_behind_attribute hLine hFree hAfter hOpaque
        hFound hBreaks
  case right =>
    intro hNever hBreaks
    have hNone :
        beforeClose? .outside 0
            (following script index line rest) =
          none := by
      by_contra hSome
      rcases Option.ne_none_iff_exists'.mp hSome with
        ⟨inner, hFound⟩
      rcases isBalanced_of_beforeClose? hFound with
        ⟨hInner, tail, hFollowing⟩
      exact hNever ⟨inner, tail, hFollowing, hInner⟩
    rcases attribute_open_at_end hLine hFree hAfter hNone
        hBreaks with
      ⟨depth, hLast⟩
    rw [ofText_eq, hLast]

/- A bracket and an escaped quote in a literal, on line 2. -/
def spreadAttribute : Text :=
  "#![doc(\n  \"]\\\"\",\n)]\n//! x\n"

/- An attribute with one bracket too few. -/
def openAttribute : Text := "#![a[\n]\n//! x\n"

/- The first ends on its third line, the second nowhere. -/
theorem attribute_is_read_as_one_text_spread :
    (IsOpaque spreadAttribute 1 ∧
        IsOpaque spreadAttribute 2 ∧
        stateBefore spreadAttribute 3 = .header) ∧
      ofText openAttribute =
        .error
          { opening := .innerAttribute
            lineNumber := 1
            line := "#![a[" } := by
  constructor
  case left =>
    have hLine :
        (Line.splitText spreadAttribute)[0]? =
          some ⟨"#![doc(", .lineFeed, 0, none⟩ := by
      decide
    have hFound :
        beforeClose? .outside 0
            "doc(\n  \"]\\\"\",\n)]\n//! x\n" =
          some "doc(\n  \"]\\\"\",\n)" := by
      decide
    have hSpread :=
      attribute_is_read_as_one_text hLine (by decide)
        (show _ = '#' :: '!' :: '[' :: "doc(".toList by
          decide)
    rcases hSpread.1 _ "\n//! x\n" (by decide)
        (isBalanced_of_beforeClose? hFound).1 (by decide) with
      ⟨hAll, hHeader⟩
    exact
      ⟨hAll 1 (by decide), hAll 2 (by decide), hHeader⟩
  case right =>
    have hLine :
        (Line.splitText openAttribute)[0]? =
          some ⟨"#![a[", .lineFeed, 0, none⟩ := by
      decide
    have hNone :
        beforeClose? .outside 0
            (following openAttribute 0
              ⟨"#![a[", .lineFeed, 0, none⟩ "a[") =
          none := by
      decide
    have hOpen :=
      attribute_is_read_as_one_text hLine (by decide)
        (show _ = '#' :: '!' :: '[' :: "a[".toList by decide)
    rw [hOpen.2 ?_ (by decide)]
    · decide
    · rintro ⟨inner, tail, hFollowing, hInner⟩
      rw [hFollowing, hInner.beforeClose?_eq] at hNone
      exact absurd hNone (by simp)

/- A literal that spans two lines. -/
def literalOverLines : Text :=
  "#![doc = \"a\nb\"]\n//! x\n"

/- The attribute ends on line 2, and reading fails. -/
theorem attribute_not_closed_behind_literal :
    following literalOverLines 0
          ⟨"#![doc = \"a", .lineFeed, 0, none⟩ "doc = \"a" =
        "doc = \"a\nb\"" ++ ']' :: "\n//! x\n".toList ∧
      IsBalanced "doc = \"a\nb\"" ∧
      ofText literalOverLines =
        .error
          { opening := .innerAttribute
            lineNumber := 1
            line := "#![doc = \"a" } := by
  have hFound :
      beforeClose? .outside 0
          "doc = \"a\nb\"]\n//! x\n" =
        some "doc = \"a\nb\"" := by
    decide
  exact
    ⟨by decide, (isBalanced_of_beforeClose? hFound).1,
      by decide⟩

end Source

end Script

end ScriptWorkspace
