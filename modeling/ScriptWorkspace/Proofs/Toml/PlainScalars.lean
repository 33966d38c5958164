import ScriptWorkspace.Proofs.Toml.LineReaders

/-
  Numbers, dates and times stay on their line.

  Each of their readers is written once more, as it is put
  together of smaller readers that stay on the line, and
  shown to be the same.

  Main declarations:
    * `Toml.moment?`, `Toml.readMoment?_eq`
    * `Toml.number?`, `Toml.readNumber?_eq`
    * `Toml.staysOnLine_moment?`
    * `Toml.staysOnLine_number?`
-/

namespace ScriptWorkspace

namespace Toml

variable {α : Type}

------------------------------------------------------------
-- Dates And Times
------------------------------------------------------------

/- So many characters of one kind are all on the line. -/
theorem le_length_of_take
    {p : Char → Bool}
    (hStops : p '\n' = false)
    {line tail : Text}
    (hTail : FollowsLine tail)
    {count : Nat}
    (hLength : ((line ++ tail).take count).length = count)
    (hAll : ∀ c ∈ (line ++ tail).take count, p c = true) :
    count ≤ line.length := by
  rcases Nat.lt_or_ge line.length count with hMore | hFits
  · rcases hTail with rfl | ⟨rest, rfl⟩
    · rw [List.append_nil, List.length_take] at hLength
      omega
    · have hMem :
          '\n' ∈ (line ++ '\n' :: rest).take count := by
        rw [List.mem_take_iff_getElem]
        refine ⟨line.length, ?_, ?_⟩
        · simp
          omega
        · simp
      rw [hAll _ hMem] at hStops
      cases hStops
  · exact hFits

theorem staysOnLine_readField?
    (digits least greatest : Nat) :
    StaysOnLine (readField? digits least greatest) := by
  constructor
  · intro line tail hLine hTail
    unfold readField?
    rcases Nat.lt_or_ge line.length digits with
      hMore | hFits
    · rw [if_neg, if_neg]
      · rfl
      · simp only [Bool.and_eq_true, decide_eq_true_eq,
          List.length_take]
        omega
      · simp only [Bool.and_eq_true, decide_eq_true_eq,
          List.all_eq_true]
        rintro ⟨⟨hLength, hAll⟩, _⟩
        have hFits :=
          le_length_of_take (by decide) hTail hLength hAll
        omega
    · rw [List.take_append_of_le_length hFits,
        List.drop_append_of_le_length hFits]
      simp only
      split <;> rfl
  · intro text rest value hFound
    unfold readField? at hFound
    simp only at hFound
    split at hFound
    · next hDigits =>
      rw [Option.some.injEq, Prod.mk.injEq] at hFound
      simp only [Bool.and_eq_true, List.all_eq_true]
        at hDigits
      refine ⟨text.take digits, ?_, ?_⟩
      · rw [← hFound.2, List.take_append_drop]
      · intro c hMem
        exact isPlain_of_isDigit (hDigits.1.2 c hMem)
    · cases hFound

theorem staysOnLine_readDate? :
    StaysOnLine readDate? := by
  unfold readDate?
  refine (staysOnLine_readField? 4 0 9999).bind fun year => ?_
  refine .expect (by decide) ?_
  refine (staysOnLine_readField? 2 1 12).bind fun month => ?_
  refine .expect (by decide) ?_
  refine (staysOnLine_readField? 2 1 31).bind fun day => ?_
  exact .pure _

/- The digits behind a point as millionths. -/
def millionths (digits : Text) : Nat :=
  Text.numeralValue 10
    (digits.take 6 ++
      List.replicate (6 - (digits.take 6).length) '0')

theorem readMillionths_eq (text : Text) :
    readMillionths text =
      ((expect? '.' text >>= fun rest =>
        (takeSome? Text.isDigit rest).map
          (Prod.map millionths id))).getD (0, text) := by
  unfold readMillionths
  split
  · next rest =>
    rw [expect?_self]
    change
      (if (rest.takeWhile Text.isDigit).isEmpty then
          (0, '.' :: rest)
        else
          (millionths (rest.takeWhile Text.isDigit),
            rest.drop (rest.takeWhile Text.isDigit).length)) =
        ((takeSome? Text.isDigit rest).map
          (Prod.map millionths id)).getD (0, '.' :: rest)
    unfold takeSome?
    simp only
    split <;> rfl
  · next hPoint =>
    cases text with
    | nil => rfl
    | cons c rest =>
        have hOther : ¬ '.' = c := by
          rintro rfl
          exact hPoint rest rfl
        simp [expect?, hOther]

theorem staysOnLine_readMillionths :
    StaysOnLine fun text => some (readMillionths text) := by
  simp only [readMillionths_eq]
  refine .optional (.expect (by decide) ?_) 0
  exact (staysOnLine_takeSome? (by decide)).map millionths

theorem staysOnLine_readTime? :
    StaysOnLine readTime? := by
  unfold readTime?
  refine (staysOnLine_readField? 2 0 23).bind fun hour => ?_
  refine .expect (by decide) ?_
  refine (staysOnLine_readField? 2 0 59).bind fun minute => ?_
  refine .expect (by decide) ?_
  refine (staysOnLine_readField? 2 0 59).bind fun second => ?_
  exact
    staysOnLine_readMillionths.map fun microsecond =>
      ({ hour, minute, second, microsecond } : TimeOfDay)

/- An offset in minutes, behind its sign. -/
def readHours?
    (negative : Bool)
    (text : Text) : Option (Int × Text) := do
  let (hour, text) ← readField? 2 0 23 text
  let (minute, text) ← readField? 2 0 59 (← expect? ':' text)
  let minutes : Int := hour * 60 + minute
  return (if negative then -minutes else minutes, text)

/- An offset that is there. -/
def readSomeOffset? : Text → Option (Option Int × Text)
  | [] => none
  | c :: rest =>
    if c = 'Z' ∨ c = 'z' then
      some (some 0, rest)
    else if c = '+' then
      (readHours? false rest).map (Prod.map some id)
    else if c = '-' then
      (readHours? true rest).map (Prod.map some id)
    else
      none

/- An offset that is not there is none. -/
theorem getD_offset
    (found : Option (Int × Text))
    (text : Text) :
    (match found with
      | some (minutes, rest) => (some minutes, rest)
      | none => (none, text)) =
      (found.map (Prod.map some id)).getD (none, text) := by
  cases found with
  | none => rfl
  | some found => rfl

theorem readOffset_eq (text : Text) :
    readOffset text =
      (readSomeOffset? text).getD (none, text) := by
  unfold readOffset
  split
  · rfl
  · rfl
  · exact getD_offset (readHours? false _) _
  · exact getD_offset (readHours? true _) _
  · next hUpper hLower hPlus hMinus =>
    cases text with
    | nil => rfl
    | cons c rest =>
        have hZulu : ¬ (c = 'Z' ∨ c = 'z') := by
          rintro (rfl | rfl)
          · exact hUpper rest rfl
          · exact hLower rest rfl
        have hAhead : ¬ c = '+' := by
          rintro rfl
          exact hPlus rest rfl
        have hBehind : ¬ c = '-' := by
          rintro rfl
          exact hMinus rest rfl
        simp [readSomeOffset?, hZulu, hAhead, hBehind]

theorem staysOnLine_readHours? (negative : Bool) :
    StaysOnLine (readHours? negative) := by
  unfold readHours?
  refine (staysOnLine_readField? 2 0 23).bind fun hour => ?_
  refine .expect (by decide) ?_
  refine (staysOnLine_readField? 2 0 59).bind fun minute => ?_
  exact .pure _

theorem staysOnLine_readOffset :
    StaysOnLine fun text => some (readOffset text) := by
  simp only [readOffset_eq]
  refine .optional (.cons ?_ ?_) none
  · intro c _
    split
    · exact .pure (some 0)
    split
    · exact (staysOnLine_readHours? false).map some
    split
    · exact (staysOnLine_readHours? true).map some
    · exact .fail
  · intro c hMem rest
    have hNone :
        ∀ c ∈ specialChars,
          ¬ (c = 'Z' ∨ c = 'z') ∧ ¬ c = '+' ∧ ¬ c = '-' := by
      decide
    rw [if_neg (hNone c hMem).1, if_neg (hNone c hMem).2.1,
      if_neg (hNone c hMem).2.2]

theorem staysOnLine_readTimeAfter? :
    StaysOnLine readTimeAfter? := by
  have hSame :
      readTimeAfter? =
        fun text =>
          match text with
          | [] => none
          | c :: rest =>
            if c = 'T' ∨ c = 't' ∨ c = ' ' then
              readTime? rest
            else
              none := by
    funext text
    cases text with
    | nil => rfl
    | cons c rest => rfl
  rw [hSame]
  refine .cons ?_ ?_
  · intro c _
    split
    · exact staysOnLine_readTime?
    · exact .fail
  · intro c hMem rest
    have hNone :
        ∀ c ∈ specialChars,
          ¬ (c = 'T' ∨ c = 't' ∨ c = ' ') := by
      decide
    rw [if_neg (hNone c hMem)]

------------------------------------------------------------
-- Numbers
------------------------------------------------------------

/- The character is a digit of a base. -/
def isBaseDigit (base : Nat) (c : Char) : Bool :=
  ((Text.hexDigit? c).map fun n => decide (n < base)).getD
    false

/- The digits of the bases are hexadecimal digits. -/
theorem isBaseDigit_of_none
    (base : Nat)
    {c : Char}
    (hDigit : Text.hexDigit? c = none) :
    isBaseDigit base c = false := by
  simp [isBaseDigit, hDigit]

theorem readBased?_eq
    (base : Nat)
    (text : Text) :
    readBased? base text =
      (someDigits? (isBaseDigit base) text).map
        (Prod.map
          (fun digits =>
            .int (Text.numeralValue base digits))
          id) := by
  change
    (if (digitRun (isBaseDigit base) text).1.isEmpty then none
      else
        some
          (Toml.int
            (Text.numeralValue base
              (digitRun (isBaseDigit base) text).1),
            (digitRun (isBaseDigit base) text).2)) = _
  unfold someDigits?
  split <;> rfl

theorem staysOnLine_readBased? (base : Nat) :
    StaysOnLine (readBased? base) := by
  have hSame := funext (readBased?_eq base)
  rw [hSame]
  refine (staysOnLine_someDigits? ?_ ?_).map _
  · intro c hMem
    apply isBaseDigit_of_none
    revert c
    decide
  · exact isBaseDigit_of_none base (by decide)

theorem readPlaces_eq (text : Text) :
    readPlaces text =
      (expect? '.' text >>= someDigits? Text.isDigit).getD
        ([], text) := by
  unfold readPlaces
  split
  · next rest =>
    rw [expect?_self]
    change
      (if (digitRun Text.isDigit rest).1.isEmpty then
          ([], '.' :: rest)
        else
          ((digitRun Text.isDigit rest).1,
            (digitRun Text.isDigit rest).2)) =
        (someDigits? Text.isDigit rest).getD ([], '.' :: rest)
    unfold someDigits?
    split <;> rfl
  · next hPoint =>
    rw [expect?_eq_none hPoint]
    rfl

theorem staysOnLine_readPlaces :
    StaysOnLine fun text => some (readPlaces text) := by
  simp only [readPlaces_eq]
  refine .optional (.expect (by decide) ?_) []
  exact staysOnLine_someDigits? (by decide) (by decide)

/- The digits of an exponent, behind its sign. -/
def readPower?
    (negative : Bool)
    (text : Text) : Option (Option Int × Text) :=
  (someDigits? Text.isDigit text).map
    (Prod.map
      (fun digits =>
        let value : Int := Text.numeralValue 10 digits
        some (if negative then -value else value))
      id)

/- An exponent that may have a sign. -/
def readSignedPower?
    (text : Text) : Option (Option Int × Text) :=
  (expect? '-' text >>= readPower? true).or
    ((expect? '+' text >>= readPower? false).or
      (readPower? false text))

/- An exponent that is there. -/
def readSomeExponent?
    (text : Text) : Option (Option Int × Text) :=
  (expect? 'e' text >>= readSignedPower?).or
    (expect? 'E' text >>= readSignedPower?)

theorem readPower?_of_not
    (negative : Bool)
    {c : Char}
    (hChar : Text.isDigit c = false)
    (rest : Text) :
    readPower? negative (c :: rest) = none := by
  unfold readPower?
  rw [someDigits?_of_not hChar]
  rfl

theorem readSignedPower?_minus (rest : Text) :
    readSignedPower? ('-' :: rest) = readPower? true rest := by
  unfold readSignedPower?
  rw [readPower?_of_not false (by decide)]
  simp [expect?]

theorem readSignedPower?_plus (rest : Text) :
    readSignedPower? ('+' :: rest) = readPower? false rest := by
  unfold readSignedPower?
  rw [readPower?_of_not false (by decide)]
  simp [expect?]

theorem readSignedPower?_of_unsigned
    {rest : Text}
    (hNoMinus : ∀ after, rest ≠ '-' :: after)
    (hNoPlus : ∀ after, rest ≠ '+' :: after) :
    readSignedPower? rest = readPower? false rest := by
  unfold readSignedPower?
  rw [expect?_eq_none hNoMinus, expect?_eq_none hNoPlus]
  rfl

theorem readSomeExponent?_lower (rest : Text) :
    readSomeExponent? ('e' :: rest) =
      readSignedPower? rest := by
  simp [readSomeExponent?, expect?]

theorem readSomeExponent?_upper (rest : Text) :
    readSomeExponent? ('E' :: rest) =
      readSignedPower? rest := by
  simp [readSomeExponent?, expect?]

theorem readExponent_eq (text : Text) :
    readExponent text =
      (readSomeExponent? text).getD (none, text) := by
  have hPower :
      ∀ negative rest,
        (if (digitRun Text.isDigit rest).1.isEmpty then
            (none, text)
          else
            (some
              (let value : Int :=
                Text.numeralValue 10
                  (digitRun Text.isDigit rest).1
              if negative then -value else value),
              (digitRun Text.isDigit rest).2)) =
          (readPower? negative rest).getD (none, text) := by
    intro negative rest
    unfold readPower? someDigits?
    split <;> rfl
  unfold readExponent
  split
  · rw [readSomeExponent?_lower, readSignedPower?_minus]
    exact hPower true _
  · rw [readSomeExponent?_upper, readSignedPower?_minus]
    exact hPower true _
  · rw [readSomeExponent?_lower, readSignedPower?_plus]
    exact hPower false _
  · rw [readSomeExponent?_upper, readSignedPower?_plus]
    exact hPower false _
  · next hNoMinus hNoPlus =>
    rw [readSomeExponent?_lower,
      readSignedPower?_of_unsigned hNoMinus hNoPlus]
    exact hPower false _
  · next hNoMinus hNoPlus =>
    rw [readSomeExponent?_upper,
      readSignedPower?_of_unsigned hNoMinus hNoPlus]
    exact hPower false _
  · next hNoLower hNoUpper =>
    unfold readSomeExponent?
    rw [expect?_eq_none hNoLower, expect?_eq_none hNoUpper]
    rfl

theorem staysOnLine_readPower? (negative : Bool) :
    StaysOnLine (readPower? negative) :=
  (staysOnLine_someDigits? (by decide) (by decide)).map _

theorem staysOnLine_readSignedPower? :
    StaysOnLine readSignedPower? :=
  (StaysOnLine.expect (by decide)
      (staysOnLine_readPower? true)).or
    ((StaysOnLine.expect (by decide)
      (staysOnLine_readPower? false)).or
      (staysOnLine_readPower? false))

theorem staysOnLine_readExponent :
    StaysOnLine fun text => some (readExponent text) := by
  simp only [readExponent_eq]
  refine .optional ?_ none
  exact
    (StaysOnLine.expect (by decide)
        staysOnLine_readSignedPower?).or
      (.expect (by decide) staysOnLine_readSignedPower?)

/- A value that was read, or the fault of what was read. -/
def delivered
    (found : Option (Except Fault α × Text)) :
    Option (Except Fault (α × Text)) :=
  found.map fun (outcome, rest) =>
    outcome.map fun value => (value, rest)

/- The digits in front of the point. -/
def readWhole? (text : Text) : Option (Text × Text) :=
  (expect? '0' text >>= fun rest => some (['0'], rest)).or
    (someDigits? Text.isDigit text)

/- The number of the digits, the places and the exponent. -/
def numberOf
    (negative : Bool)
    (whole places : Text)
    (power : Option Int) : Except Fault Toml :=
  if places.isEmpty && power.isNone then
    if whole.length > maxDigits then
      .error .longNumeral
    else
      let value : Int := Text.numeralValue 10 whole
      .ok (.int (if negative then -value else value))
  else
    .ok
      (.float
        (Binary64.ofDecimal negative
          (Text.numeralValue 10 (whole ++ places))
          (power.getD 0 - places.length)))

/- A decimal number behind its sign. -/
def decimal?
    (negative : Bool)
    (text : Text) : Option (Except Fault Toml × Text) := do
  let (whole, rest) ← readWhole? text
  let (places, rest) ← some (readPlaces rest)
  let (power, rest) ← some (readExponent rest)
  return (numberOf negative whole places power, rest)

theorem readDecimal?_eq
    (negative : Bool)
    (text : Text) :
    readDecimal? negative text =
      delivered (decimal? negative text) := by
  unfold readDecimal? decimal?
  split
  next whole rest hWhole =>
  have hDigits :
      readWhole? text =
        if whole.isEmpty then none else some (whole, rest) := by
    unfold readWhole?
    split at hWhole
    · cases hWhole
      rw [expect?_self]
      rfl
    · next hZero =>
      rw [expect?_eq_none hZero]
      unfold someDigits?
      rw [hWhole]
      rfl
  rw [hDigits]
  cases hEmpty : whole.isEmpty with
  | true => rfl
  | false =>
      rcases hPlaces : readPlaces rest with ⟨places, between⟩
      rcases hPower : readExponent between with
        ⟨power, after⟩
      simp only [hPlaces, hPower, delivered, numberOf,
        Bool.false_eq_true, if_false, Option.bind_eq_bind,
        Option.bind_some, Option.pure_def, Option.map_some]
      split
      · split <;> rfl
      · rfl

theorem staysOnLine_decimal? (negative : Bool) :
    StaysOnLine (decimal? negative) := by
  have hWhole : StaysOnLine readWhole? :=
    (StaysOnLine.expect (by decide) (.pure ['0'])).or
      (staysOnLine_someDigits? (by decide) (by decide))
  refine hWhole.bind fun whole => ?_
  refine staysOnLine_readPlaces.bind fun places => ?_
  refine staysOnLine_readExponent.bind fun power => ?_
  exact .pure _

theorem delivered_or
    (found other : Option (Except Fault α × Text)) :
    delivered (found.or other) =
      (delivered found).or (delivered other) := by
  cases found with
  | none => rfl
  | some found => rfl

/- Infinity or no number, behind the sign. -/
def special?
    (negative : Bool)
    (text : Text) : Option (Except Fault Toml × Text) :=
  (word? ['i', 'n', 'f']
    (.ok (.float (Binary64.infinity negative))) text).or
    (word? ['n', 'a', 'n']
      (.ok (.float (Binary64.nan negative))) text)

theorem readSpecial?_eq
    (negative : Bool)
    (text : Text) :
    readSpecial? negative text =
      delivered (special? negative text) := by
  unfold readSpecial? special?
  split
  · rfl
  · rfl
  · next hInfinity hNan =>
    rw [word?_eq_none _ hInfinity, word?_eq_none _ hNan]
    rfl

theorem staysOnLine_special? (negative : Bool) :
    StaysOnLine (special? negative) :=
  (staysOnLine_word? (by decide) _).or
    (staysOnLine_word? (by decide) _)

/- A number behind its sign. -/
def signed?
    (negative : Bool)
    (text : Text) : Option (Except Fault Toml × Text) :=
  (decimal? negative text).or (special? negative text)

theorem readSigned?_eq
    (negative : Bool)
    (text : Text) :
    readSigned? negative text =
      delivered (signed? negative text) := by
  unfold readSigned? signed?
  rw [delivered_or, readDecimal?_eq, readSpecial?_eq]

theorem staysOnLine_signed? (negative : Bool) :
    StaysOnLine (signed? negative) :=
  (staysOnLine_decimal? negative).or
    (staysOnLine_special? negative)

/- A number with its base, behind the zero. -/
def based? (text : Text) : Option (Toml × Text) :=
  (expect? 'x' text >>= readBased? 16).or
    ((expect? 'o' text >>= readBased? 8).or
      (expect? 'b' text >>= readBased? 2))

theorem staysOnLine_based? : StaysOnLine based? :=
  (StaysOnLine.expect (by decide)
      (staysOnLine_readBased? 16)).or
    ((StaysOnLine.expect (by decide)
      (staysOnLine_readBased? 8)).or
      (.expect (by decide) (staysOnLine_readBased? 2)))

/- A number. -/
def number?
    (text : Text) : Option (Except Fault Toml × Text) :=
  (expect? '+' text >>= signed? false).or
    ((expect? '-' text >>= signed? true).or
      ((expect? '0' text >>= fun rest =>
          (based? rest).map (Prod.map Except.ok id)).or
        (signed? false text)))

/- A second sign is no number. -/
theorem signed?_of_sign
    (negative : Bool)
    {c : Char}
    (hSign : c = '+' ∨ c = '-')
    (rest : Text) :
    signed? negative (c :: rest) = none := by
  have hDigit : Text.isDigit c = false := by
    rcases hSign with rfl | rfl <;> decide
  have hZero : expect? '0' (c :: rest) = none := by
    rcases hSign with rfl | rfl <;> rfl
  have hWords :
      ∀ value : Except Fault Toml,
        word? ['i', 'n', 'f'] value (c :: rest) = none ∧
          word? ['n', 'a', 'n'] value (c :: rest) = none := by
    intro value
    rcases hSign with rfl | rfl <;> exact ⟨rfl, rfl⟩
  have hWhole : readWhole? (c :: rest) = none := by
    unfold readWhole?
    rw [hZero, someDigits?_of_not hDigit]
    rfl
  unfold signed? decimal? special?
  rw [hWhole, (hWords _).1, (hWords _).2]
  rfl

/- The base is that of the letter. -/
theorem based?_cons
    (letter : Char)
    (rest : Text) :
    based? (letter :: rest) =
      match letter with
      | 'x' => readBased? 16 rest
      | 'o' => readBased? 8 rest
      | 'b' => readBased? 2 rest
      | _ => none := by
  unfold based?
  split
  · simp [expect?]
  · simp [expect?]
  · simp [expect?]
  · next hHex hOctal hBinary =>
    have hOther :
        ¬ 'x' = letter ∧ ¬ 'o' = letter ∧ ¬ 'b' = letter :=
      ⟨fun h => hHex h.symm, fun h => hOctal h.symm,
        fun h => hBinary h.symm⟩
    simp [expect?, hOther]

theorem delivered_map_ok
    (found : Option (Toml × Text)) :
    delivered (found.map (Prod.map Except.ok id)) =
      found.map Except.ok := by
  cases found with
  | none => rfl
  | some found => rfl

/- What is not found first is looked for again. -/
theorem or_of_match
    (found : Option (Toml × Text))
    (other : Option (Except Fault (Toml × Text))) :
    (match found with
      | some found => some (Except.ok found)
      | none => other) =
      (found.map Except.ok).or other := by
  cases found with
  | none => rfl
  | some found => rfl

theorem readNumber?_eq (text : Text) :
    readNumber? text = delivered (number? text) := by
  unfold readNumber? number?
  split
  · next rest =>
    rw [readSigned?_eq, signed?_of_sign false (.inl rfl)]
    simp [expect?]
  · next rest =>
    rw [readSigned?_eq, signed?_of_sign false (.inr rfl)]
    simp [expect?]
  · next letter rest =>
    have hBased := based?_cons letter rest
    have hSigns :
        expect? '+' ('0' :: letter :: rest) = none ∧
          expect? '-' ('0' :: letter :: rest) = none :=
      ⟨rfl, rfl⟩
    rw [hSigns.1, hSigns.2, expect?_self]
    simp only [Option.bind_eq_bind, Option.bind_none,
      Option.bind_some, Option.none_or, delivered_or,
      delivered_map_ok, ← readSigned?_eq]
    rw [hBased]
    exact or_of_match _ _
  · next hPlus hMinus hZero =>
    have hBased :
        (expect? '0' text >>= fun rest =>
          (based? rest).map (Prod.map Except.ok id)) =
          (none : Option (Except Fault Toml × Text)) := by
      cases text with
      | nil => rfl
      | cons c rest =>
          by_cases hChar : '0' = c
          · subst c
            cases rest with
            | nil => rfl
            | cons letter rest =>
                exact (hZero letter rest rfl).elim
          · simp [expect?, hChar]
    rw [expect?_eq_none hPlus, expect?_eq_none hMinus,
      readSigned?_eq, hBased]
    rfl

theorem staysOnLine_number? : StaysOnLine number? :=
  (StaysOnLine.expect (by decide)
      (staysOnLine_signed? false)).or
    ((StaysOnLine.expect (by decide)
      (staysOnLine_signed? true)).or
      ((StaysOnLine.expect (by decide)
        (staysOnLine_based?.map Except.ok)).or
        (staysOnLine_signed? false)))

------------------------------------------------------------
-- Moments
------------------------------------------------------------

/- What follows a date. -/
def momentAfter
    (day : Date)
    (text : Text) : Option (Except Fault Toml × Text) :=
  if !day.exists then
    some (.error .calendar, text)
  else
    (do
      let (clock, rest) ← readTimeAfter? text
      let (offset, rest) ← some (readOffset rest)
      return (Except.ok (Toml.dateTime day clock offset),
        rest)).or
      (some (.ok (.date day), text))

/- A date, a time, or a date with a time. -/
def moment?
    (text : Text) : Option (Except Fault Toml × Text) :=
  (do
    let (day, rest) ← readDate? text
    momentAfter day rest).or
    ((readTime? text).map
      (Prod.map (fun clock => Except.ok (.time clock)) id))

theorem readMoment?_eq (text : Text) :
    readMoment? text = delivered (moment? text) := by
  unfold readMoment? moment? momentAfter
  cases hDate : readDate? text with
  | none =>
      simp only [Option.bind_eq_bind, Option.bind_none,
        Option.none_or]
      cases readTime? text with
      | none => rfl
      | some found => rfl
  | some found =>
      rcases found with ⟨day, rest⟩
      simp only [Option.bind_eq_bind, Option.bind_some]
      split
      · rfl
      · cases readTimeAfter? rest with
        | none => rfl
        | some found => rfl

theorem staysOnLine_momentAfter (day : Date) :
    StaysOnLine (momentAfter day) := by
  cases hExists : day.exists with
  | false =>
      have hSame :
          momentAfter day =
            fun text =>
              some (Except.error Fault.calendar, text) := by
        funext text
        simp [momentAfter, hExists]
      rw [hSame]
      exact .pure _
  | true =>
      have hSame :
          momentAfter day = fun text =>
            (do
              let (clock, rest) ← readTimeAfter? text
              let (offset, rest) ← some (readOffset rest)
              return (Except.ok (Toml.dateTime day clock offset),
                rest)).or
              (some (Except.ok (Toml.date day), text)) := by
        funext text
        simp [momentAfter, hExists]
      rw [hSame]
      refine .or ?_ (.pure _)
      refine staysOnLine_readTimeAfter?.bind fun clock => ?_
      exact staysOnLine_readOffset.bind fun offset => .pure _

theorem staysOnLine_moment? : StaysOnLine moment? :=
  (staysOnLine_readDate?.bind staysOnLine_momentAfter).or
    (staysOnLine_readTime?.map _)

end Toml

end ScriptWorkspace
