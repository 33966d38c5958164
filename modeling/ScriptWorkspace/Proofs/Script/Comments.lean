import ScriptWorkspace.Proofs.Script.Opaque

/-
  Block comments of the header.

  A reader of the header that misses nothing reads every line
  to its end. The scan reads a line up to the point where the
  comment or attribute that it is in is closed, so it does
  not see what is opened behind that point and left open at
  the end of the line; and it forgets at the end of a line
  that a string literal of an attribute is open. Up to the
  first line that begins inside of such a thing, the scan
  stands at the beginning of each line where the reader does.

  Main declarations:
    * `Place`
    * `Place.readOn`
    * `Place.readLine`
    * `Source.placeBefore`
    * `Place.IsPlain`
    * `Place.seen_readLine`
    * `Source.stateBefore_eq_seen`
    * `Source.comment_is_read_over_iff_leads`
    * `Source.comment_missed_behind_comment`
-/

namespace ScriptWorkspace

namespace Script

open Text

------------------------------------------------------------
-- A Reader That Misses Nothing
------------------------------------------------------------

/-
  Where a reader stands: between the parts of the header,
  inside a comment or an attribute of it, or in the code
  behind it. What is open keeps how many of its kind are open
  around the reader but for the first one, the line on which
  the first one was opened and whether it leads that line.
-/
inductive Place
  | header
  | comment (around openedAt : Nat) (leads : Bool)
  | «attribute»
      (around openedAt : Nat)
      (leads : Bool)
      (literal : Literal)
  | code
deriving DecidableEq, Repr

namespace Place

/-
  Read on in a line of a given index. Comments nest, and so
  do the brackets of an attribute outside of its literals,
  where a backslash escapes the character behind it. Behind
  an end, a comment or an attribute can begin again, unless
  two slashes come before it.
-/
def readOn (index : Nat) : Place → Text → Place
  | .attribute around openedAt leads .escaped, [] =>
    .attribute around openedAt leads .inside
  | place, [] => place
  | .header, '/' :: '*' :: rest =>
    readOn index (.comment 0 index false) rest
  | .header, '/' :: '/' :: _ => .header
  | .header, '#' :: '!' :: '[' :: rest =>
    readOn index (.attribute 0 index false .outside) rest
  | .header, _ :: rest => readOn index .header rest
  | .comment around openedAt leads, '/' :: '*' :: rest =>
    readOn index (.comment (around + 1) openedAt leads) rest
  | .comment 0 _ _, '*' :: '/' :: rest =>
    readOn index .header rest
  | .comment (around + 1) openedAt leads,
      '*' :: '/' :: rest =>
    readOn index (.comment around openedAt leads) rest
  | .comment around openedAt leads, _ :: rest =>
    readOn index (.comment around openedAt leads) rest
  | .attribute around openedAt leads .escaped, _ :: rest =>
    readOn index
      (.attribute around openedAt leads .inside) rest
  | .attribute around openedAt leads .inside,
      '\\' :: rest =>
    readOn index
      (.attribute around openedAt leads .escaped) rest
  | .attribute around openedAt leads .inside, '"' :: rest =>
    readOn index
      (.attribute around openedAt leads .outside) rest
  | .attribute around openedAt leads .outside, '"' :: rest =>
    readOn index
      (.attribute around openedAt leads .inside) rest
  | .attribute around openedAt leads .outside, '[' :: rest =>
    readOn index
      (.attribute (around + 1) openedAt leads .outside) rest
  | .attribute 0 _ _ .outside, ']' :: rest =>
    readOn index .header rest
  | .attribute (around + 1) openedAt leads .outside,
      ']' :: rest =>
    readOn index
      (.attribute around openedAt leads .outside) rest
  | .attribute around openedAt leads literal, _ :: rest =>
    readOn index
      (.attribute around openedAt leads literal) rest
  | .code, _ => .code

/-
  Read a line from its beginning. In the header, what it
  leads with decides what kind of line it is.
-/
def readLine
    (index : Nat)
    (place : Place)
    (text : Text) : Place :=
  match place with
  | .header =>
    let bare := text.stripLeft
    if (DocText.ofLine? text).isSome || bare.isEmpty ||
        isPlainComment bare then
      .header
    else if bare.startsWith ['/', '*'] then
      readOn index (.comment 0 index true) (bare.drop 2)
    else if bare.startsWith ['#', '!', '['] then
      readOn index (.attribute 0 index true .outside)
        (bare.drop 3)
    else
      .code
  | place => readOn index place text

/- Read lines in order. -/
def readLines :
    (index : Nat) → Place → List Text → Place
  | _, place, [] => place
  | index, place, text :: texts =>
    readLines (index + 1) (place.readLine index text) texts

/-
  What is open leads the line that opens it, and it is not
  in one of its literals.
-/
def IsPlain : Place → Prop
  | .header => True
  | .comment _ _ leads => leads = true
  | .attribute _ _ leads literal =>
    leads = true ∧ literal = .outside
  | .code => True

instance : (place : Place) → Decidable place.IsPlain
  | .header => .isTrue True.intro
  | .comment _ _ leads =>
    inferInstanceAs (Decidable (leads = true))
  | .attribute _ _ leads literal =>
    inferInstanceAs
      (Decidable (leads = true ∧ literal = .outside))
  | .code => .isTrue True.intro

------------------------------------------------------------
-- What The Scan Sees
------------------------------------------------------------

/- The scan sees what leads its line, and nothing else. -/
def seen : Place → HeaderState
  | .header => .header
  | .comment around openedAt true =>
    .comment (around + 1) openedAt
  | .comment _ _ false => .header
  | .attribute around openedAt true _ =>
    .attribute (around + 1) openedAt
  | .attribute _ _ false _ => .header
  | .code => .code

@[simp] theorem seen_header :
    header.seen = .header := rfl

@[simp] theorem seen_comment_eq_header
    {around openedAt : Nat}
    {leads : Bool} :
    (comment around openedAt leads).seen = .header ↔
      leads = false := by
  cases leads <;> simp [seen]

@[simp] theorem seen_attribute_eq_header
    {around openedAt : Nat}
    {leads : Bool}
    {literal : Literal} :
    («attribute» around openedAt leads literal).seen =
        .header ↔
      leads = false := by
  cases leads <;> simp [seen]

/- What the scan does not see, it passes over. -/
theorem seen_readOn_of_header
    (index : Nat)
    {place : Place}
    (hSeen : place.seen = .header)
    (text : Text) :
    (place.readOn index text).seen = .header := by
  fun_induction readOn index place text <;> simp_all

variable (index openedAt : Nat)

/- It reads a comment up to the end of it. -/
theorem seen_readOn_comment
    (around : Nat)
    (text : Text) :
    (readOn index (.comment around openedAt true)
        text).seen =
      .ofCommentDepth (commentDepth text (around + 1))
        openedAt := by
  generalize hDepth : around + 1 = depth
  fun_induction commentDepth text depth generalizing around
  case case1 depth =>
    simp [readOn, seen, HeaderState.ofCommentDepth, ← hDepth]
  case case2 rest depth ih =>
    rw [readOn]
    exact ih (around + 1) (by omega)
  case case3 rest =>
    obtain rfl : around = 0 := by omega
    exact seen_readOn_of_header index rfl rest
  case case4 rest depth hDeep ih =>
    obtain ⟨before, rfl⟩ := Nat.exists_eq_succ_of_ne_zero hDeep
    obtain rfl : around = before + 1 := by omega
    exact ih before rfl
  case case5 c rest depth hOpen hClose ih =>
    have hNoClose :
        ∀ after, c = '*' → rest = '/' :: after → False :=
      fun after hStar hSlash =>
        hClose after around hDepth.symm hStar hSlash
    rw [readOn]
    · exact ih around hDepth
    · exact hOpen
    · exact fun after _ => hNoClose after
    · exact fun _ after _ => hNoClose after

/- It reads an attribute up to the end of it. -/
theorem seen_readOn_attribute
    (around : Nat)
    (literal : Literal)
    (text : Text) :
    (readOn index (.attribute around openedAt true literal)
        text).seen =
      .ofBracketDepth
        (bracketDepthFrom literal text (around + 1))
        openedAt := by
  generalize hDepth : around + 1 = depth
  fun_induction bracketDepthFrom literal text depth generalizing around
  case case1 literal depth =>
    cases literal <;>
      simp [readOn, seen, HeaderState.ofBracketDepth,
        ← hDepth]
  case case8 rest depth hLast _ _ =>
    obtain rfl : around = 0 := by omega
    exact seen_readOn_of_header index rfl rest
  case case9 rest depth hDeep _ _ ih =>
    obtain ⟨before, rfl⟩ : ∃ before, around = before + 1 :=
      ⟨around - 1, by omega⟩
    exact ih before (by omega)
  case case7 rest depth _ ih => exact ih (around + 1) (by omega)
  case case10 c rest depth _ _ _ ih =>
    rw [readOn] <;> grind
  case case5 c rest depth _ _ ih =>
    rw [readOn] <;> grind
  all_goals
    rename_i ih
    exact ih around hDepth

/- From the beginning of a line on, it sees what is plain. -/
theorem seen_readLine
    {place : Place}
    (hPlain : place.IsPlain)
    (text : Text) :
    (place.readLine index text).seen =
      (place.seen.step index text).1 := by
  cases place with
  | header =>
      simp only [readLine, HeaderState.step, seen_header]
      cases hDoc : DocText.ofLine? text with
      | some doc => rfl
      | none =>
          simp only [Option.isSome_none, Bool.false_or]
          split
          case isTrue hKind => rfl
          case isFalse hKind =>
            split
            case isTrue hComment =>
              rcases List.isPrefixOf_iff_prefix.mp hComment with
                ⟨rest, hRest⟩
              rw [← hRest]
              exact seen_readOn_comment index index 0 rest
            case isFalse hComment =>
              split
              case isTrue hAttribute =>
                rcases List.isPrefixOf_iff_prefix.mp
                    hAttribute with
                  ⟨rest, hRest⟩
                rw [← hRest]
                exact
                  seen_readOn_attribute index index 0
                    .outside rest
              case isFalse hAttribute => rfl
  | comment around openedAt leads =>
      obtain rfl : leads = true := hPlain
      exact seen_readOn_comment index openedAt around text
  | «attribute» around openedAt leads literal =>
      obtain ⟨rfl, rfl⟩ :
          leads = true ∧ literal = .outside :=
        hPlain
      exact
        seen_readOn_attribute index openedAt around .outside
          text
  | code => cases text <;> rfl

theorem readLines_append
    (place : Place)
    (before after : List Text) :
    readLines index place (before ++ after) =
      readLines (index + before.length)
        (readLines index place before) after := by
  induction before generalizing index place with
  | nil => rfl
  | cons text before ih =>
      have hShift :
          index + 1 + before.length =
            index + (before.length + 1) := by
        omega
      simp only [List.cons_append, readLines, ih,
        List.length_cons, hShift]

end Place

namespace Source

------------------------------------------------------------
-- Where The Lines Of A Script Begin
------------------------------------------------------------

/- Where a reader of a script stands before a line. -/
def placeBefore (script : Text) (index : Nat) : Place :=
  let skipped := headerStart (lineTexts script)
  Place.readLines skipped .header
    (((lineTexts script).take index).drop skipped)

variable {script : Text} {index : Nat}

theorem placeBefore_of_le_headerStart
    (hIndex : index ≤ headerStart (lineTexts script)) :
    placeBefore script index = .header := by
  have hNone :
      ((lineTexts script).take index).drop
          (headerStart (lineTexts script)) =
        [] := by
    rw [List.drop_eq_nil_iff, List.length_take]
    omega
  simp only [placeBefore, hNone, Place.readLines]

theorem placeBefore_succ
    {text : Text}
    (hText : (lineTexts script)[index]? = some text)
    (hStart : headerStart (lineTexts script) ≤ index) :
    placeBefore script (index + 1) =
      (placeBefore script index).readLine index text := by
  rcases List.getElem?_eq_some_iff.mp hText with
    ⟨hBound, _⟩
  have hLength :
      ((lineTexts script).take index).length = index := by
    rw [List.length_take]
    omega
  have hTaken :
      headerStart (lineTexts script) +
          (((lineTexts script).take index).drop
            (headerStart (lineTexts script))).length =
        index := by
    rw [List.length_drop, hLength]
    omega
  simp only [placeBefore]
  rw [List.take_add_one, hText,
    List.drop_append_of_le_length
      (by rw [hLength]; exact hStart),
    Place.readLines_append, hTaken]
  rfl

/-
  The scan and the reader come to a line in the same way, if
  all lines before it begin plainly.
-/
theorem stateBefore_eq_seen
    (hIndex : index ≤ (lineTexts script).length)
    (hPlain :
      ∀ earlier < index,
        (placeBefore script earlier).IsPlain) :
    stateBefore script index =
      (placeBefore script index).seen := by
  induction index with
  | zero =>
      rw [stateBefore_of_le_headerStart (Nat.zero_le _),
        placeBefore_of_le_headerStart (Nat.zero_le _)]
      rfl
  | succ index ih =>
      by_cases hStart :
          headerStart (lineTexts script) ≤ index
      · have hBefore :=
          ih (by omega)
            (fun earlier hEarlier =>
              hPlain earlier (by omega))
        have hText :=
          List.getElem?_eq_getElem
            (Nat.lt_of_succ_le hIndex)
        have hHere := hPlain index (Nat.lt_succ_self index)
        rw [stateBefore_succ hText hStart,
          placeBefore_succ hText hStart, hBefore,
          Place.seen_readLine index hHere]
      · have hSkipped :
            index + 1 ≤ headerStart (lineTexts script) := by
          omega
        rw [stateBefore_of_le_headerStart hSkipped,
          placeBefore_of_le_headerStart hSkipped]
        rfl

/- A comment that is open at the end is reported. -/
theorem ofText_of_open_comment
    {depth openedAt : Nat}
    (hState :
      stateBefore script (lineTexts script).length =
        .comment depth openedAt) :
    ofText script =
      .error
        (faultAt .blockComment (Line.splitText script)
          openedAt) := by
  rw [stateBefore_eq_lastState le_rfl] at hState
  rw [ofText_eq, hState]

/-
  Up to the first line that begins in a literal, or in a
  comment or an attribute that is opened behind another one
  on its line, let a line of a script begin inside a comment.
  If the comment leads the line that opens it, then the line
  is no documentation and does not end the header, however
  deep the comments are nested and however many lines they
  span; and if the script ends there, reading it fails and
  names the line that opens the outermost comment. If the
  comment is opened behind something else, then the scan is
  in the header: it takes the line for one of the header, and
  at the end of the script it does not fail.
-/
theorem comment_is_read_over_iff_leads
    {around openedAt : Nat}
    {leads : Bool}
    (hIndex : index ≤ (lineTexts script).length)
    (hPlain :
      ∀ earlier < index,
        (placeBefore script earlier).IsPlain)
    (hPlace :
      placeBefore script index =
        .comment around openedAt leads) :
    (leads = true →
        stateBefore script index =
            .comment (around + 1) openedAt ∧
          (index < (lineTexts script).length →
            IsOpaque script index) ∧
          (index = (lineTexts script).length →
            ofText script =
              .error
                (faultAt .blockComment
                  (Line.splitText script) openedAt))) ∧
      (leads = false →
        stateBefore script index = .header ∧
          (index = (lineTexts script).length →
            ∃ source, ofText script = .ok source)) := by
  have hState := stateBefore_eq_seen hIndex hPlain
  rw [hPlace] at hState
  constructor
  case left =>
    rintro rfl
    refine ⟨hState, ?_, ?_⟩
    · intro hLine
      have hOpen : (stateBefore script index).IsOpen := by
        rw [hState]
        exact True.intro
      exact
        isOpaque_of_isOpen (List.getElem?_eq_getElem hLine)
          hOpen
    · rintro rfl
      exact ofText_of_open_comment hState
  case right =>
    rintro rfl
    refine ⟨hState, ?_⟩
    rintro rfl
    rw [stateBefore_eq_lastState le_rfl] at hState
    rw [ofText_eq, hState]
    exact ⟨_, rfl⟩

/- A comment in a comment; only the inner one is closed. -/
def nestedComment : Text := "/* a /* b\n//! x */ c\n"

/- What looks like documentation is not, and line 1 is named. -/
theorem comment_is_read_over_nested :
    IsOpaque nestedComment 1 ∧
      ofText nestedComment =
        .error
          { opening := .blockComment
            lineNumber := 1
            line := "/* a /* b" } := by
  have hPlain :
      ∀ earlier < 2,
        (placeBefore nestedComment earlier).IsPlain := by
    decide +kernel
  have hInner :
      placeBefore nestedComment 1 = .comment 1 0 true := by
    decide +kernel
  have hOuter :
      placeBefore nestedComment 2 = .comment 0 0 true := by
    decide +kernel
  have hInside :=
    comment_is_read_over_iff_leads (by decide)
      (fun earlier hEarlier => hPlain earlier (by omega))
      hInner
  have hEnd :=
    comment_is_read_over_iff_leads (by decide) hPlain hOuter
  refine ⟨(hInside.1 rfl).2.1 (by decide), ?_⟩
  rw [(hEnd.1 rfl).2.2 (by decide)]
  decide +kernel

/- A comment that is opened behind one that is closed. -/
def commentBehindComment : Text :=
  "/* a */ /* b\n//! x\n*/\n"

/- Its lines are taken for documentation, and for code. -/
theorem comment_missed_behind_comment :
    placeBefore commentBehindComment 1 =
        .comment 0 0 false ∧
      placeBefore commentBehindComment 2 =
        .comment 0 0 false ∧
      (∃ source line,
        ofText commentBehindComment = .ok source ∧
          source.lines[1]? = some line ∧
          line.doc = some ⟨"//! ", "x"⟩) ∧
      stateBefore commentBehindComment 3 = .code := by
  refine ⟨by decide +kernel, by decide +kernel, ?_,
    by decide +kernel⟩
  refine
    ⟨⟨markedLines commentBehindComment, false⟩,
      ⟨"//! x", .lineFeed, 13, some ⟨"//! ", "x"⟩⟩, ?_⟩
  decide +kernel

end Source

end Script

end ScriptWorkspace
