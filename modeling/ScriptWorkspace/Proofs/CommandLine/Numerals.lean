import ScriptWorkspace.CommandLine.Request

/-
  Numerals that are read back as numbers.

  A number is written with decimal digits, and a minus sign
  in front if it is negative. That word is read as the number
  it was written for.

  Main declarations:
    * `Text.numeralValue_ofNat`
    * `CommandLine.integer?_numeral`
-/

namespace ScriptWorkspace

namespace Text

------------------------------------------------------------
-- Digits
------------------------------------------------------------

theorem isDigit_iff (c : Char) :
    isDigit c = true ↔ 48 ≤ c.toNat ∧ c.toNat ≤ 57 := by
  unfold isDigit
  rw [decide_eq_true_iff]
  exact Iff.rfl

theorem isDigit_of_mem_ofNat
    {n : Nat}
    {c : Char}
    (hMem : c ∈ ofNat n) :
    isDigit c = true := by
  have hDigit :=
    Nat.isDigit_of_mem_toDigits (by decide) (by decide) hMem
  simp only [Char.isDigit, Bool.and_eq_true,
    decide_eq_true_eq, ge_iff_le,
    UInt32.le_iff_toNat_le] at hDigit
  exact (isDigit_iff c).mpr hDigit

theorem hexDigit?_of_isDigit
    {c : Char}
    (hDigit : isDigit c = true) :
    hexDigit? c = some (c.toNat - '0'.toNat) := by
  unfold isDigit at hDigit
  rw [decide_eq_true_iff] at hDigit
  unfold hexDigit?
  rw [if_pos hDigit]

/- The numeral of a number has the value of the number. -/
theorem numeralValue_ofNat (n : Nat) :
    numeralValue 10 (ofNat n) = n := by
  have hFold :
      ∀ (digits : Text) (value : Nat),
        (∀ c ∈ digits, isDigit c = true) →
        digits.foldl
            (fun value c =>
              value * 10 + (hexDigit? c).getD 0)
            value =
          Nat.ofDigitChars 10 digits value := by
    intro digits
    induction digits with
    | nil => intro value _; rfl
    | cons c digits ih =>
        intro value hDigits
        rw [List.forall_mem_cons] at hDigits
        rw [List.foldl_cons, ih _ hDigits.2,
          Nat.ofDigitChars_cons,
          hexDigit?_of_isDigit hDigits.1, Option.getD_some,
          Nat.mul_comm]
  unfold numeralValue
  rw [hFold _ _ fun c => isDigit_of_mem_ofNat]
  exact Nat.ofDigitChars_toDigits (by decide) (by decide)

/- Nothing is stripped off a text without white space. -/
theorem strip_of_not_blank
    {text : Text}
    (hText : ∀ c ∈ text, isBlank c = false) :
    strip text = text := by
  have hDrop :
      ∀ other : Text,
        (∀ c ∈ other, isBlank c = false) →
        other.dropWhile isBlank = other := by
    intro other hOther
    cases other with
    | nil => rfl
    | cons c other =>
        have hFirst := hOther c List.mem_cons_self
        rw [List.dropWhile_cons, if_neg (by simp [hFirst])]
  have hReverse : ∀ c ∈ text.reverse, isBlank c = false := by
    simpa using hText
  unfold strip stripRight stripLeft dropRightWhile
  rw [hDrop text hText, hDrop text.reverse hReverse,
    List.reverse_reverse]

theorem isBlank_of_isDigit
    {c : Char}
    (hDigit : isDigit c = true) :
    isBlank c = false := by
  rw [isDigit_iff] at hDigit
  unfold isBlank
  simp only [Bool.or_eq_false_iff, Bool.and_eq_false_iff,
    decide_eq_false_iff_not, beq_eq_false_iff_ne]
  omega

end Text

/- A text is read as a text from the system text it makes. -/
theorem OsText.toText?_text (text : Text) :
    OsText.toText? (text : OsText) = some text := by
  induction text with
  | nil => rfl
  | cons c text ih =>
      simp only [List.map_cons, OsText.toText?, ih,
        Option.map_some]

namespace CommandLine

------------------------------------------------------------
-- Numbers
------------------------------------------------------------

theorem digits?_of_isDigit
    {text : Text}
    (hText : ∀ c ∈ text, Text.isDigit c = true)
    (hNe : text ≠ []) :
    digits? text = some text := by
  fun_induction digits? text with
  | case1 => exact absurd rfl hNe
  | case2 => rfl
  | case3 c hDigit =>
      exact absurd (hText c List.mem_cons_self) hDigit
  | case4 c rest hDigit ih =>
      have hLine := hText '_' (by simp)
      exact absurd hLine (by decide)
  | case5 c rest hDigit =>
      exact absurd (hText c List.mem_cons_self) hDigit
  | case6 c rest hOne hLine hDigit ih =>
      have hRest : ∀ c ∈ rest, Text.isDigit c = true := by
        intro c hMem
        exact hText c (List.mem_cons_of_mem _ hMem)
      rw [ih hRest fun hNil => hOne hNil, Option.map_some]
  | case7 c rest hOne hLine hDigit =>
      exact absurd (hText c List.mem_cons_self) hDigit

/- Digits alone are a number that is not negative. -/
theorem integer?_of_isDigit
    {text : Text}
    (hText : ∀ c ∈ text, Text.isDigit c = true)
    (hNe : text ≠ []) :
    integer? (text : OsText) =
      some (Text.numeralValue 10 text : Int) := by
  have hStrip : Text.strip text = text :=
    Text.strip_of_not_blank fun c hMem =>
      Text.isBlank_of_isDigit (hText c hMem)
  unfold integer?
  simp only [OsText.toText?_text, Option.bind_eq_bind,
    Option.bind_some, hStrip]
  split
  · exact absurd (hText '-' List.mem_cons_self) (by decide)
  · exact absurd (hText '+' List.mem_cons_self) (by decide)
  · rw [digits?_of_isDigit hText hNe]
    rfl

/- And digits behind a minus sign are a negative one. -/
theorem integer?_of_minus
    {text : Text}
    (hText : ∀ c ∈ text, Text.isDigit c = true)
    (hNe : text ≠ []) :
    integer? (('-' :: text : Text) : OsText) =
      some (-(Text.numeralValue 10 text : Int)) := by
  have hStrip : Text.strip ('-' :: text) = '-' :: text := by
    apply Text.strip_of_not_blank
    intro c hMem
    rcases List.mem_cons.mp hMem with rfl | hMem
    · decide
    · exact Text.isBlank_of_isDigit (hText c hMem)
  unfold integer?
  simp only [OsText.toText?_text, Option.bind_eq_bind,
    Option.bind_some, hStrip, digits?_of_isDigit hText hNe]
  rfl

/- The numeral of an integer is read as the integer. -/
theorem integer?_numeral (n : Int) :
    integer? (Cargo.numeral n) = some n := by
  unfold Cargo.numeral
  cases n with
  | ofNat n =>
      rw [Text.ofInt,
        integer?_of_isDigit (fun _ => Text.isDigit_of_mem_ofNat)
          Nat.toDigits_ne_nil,
        Text.numeralValue_ofNat]
      rfl
  | negSucc n =>
      rw [Text.ofInt,
        integer?_of_minus (fun _ => Text.isDigit_of_mem_ofNat)
          Nat.toDigits_ne_nil,
        Text.numeralValue_ofNat]
      rfl

end CommandLine

end ScriptWorkspace
