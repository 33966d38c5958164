import ScriptWorkspace.CommandLine.Options

/-
  Words that are read as options.

  A command line is read from left to right: an option that
  takes a value takes the next word, whatever that word is,
  and the first word of two dashes that is no value ends the
  options. So the reading of some words does not depend on
  what follows them, and words that are read one after the
  other are read as the options of both. If each option is
  told at one place, the values that are found for it are
  those it was given there.

  Main declarations:
    * `readFrom_of_lt`
    * `readArguments_option`, `readArguments_value`
    * `IsReadAs`
    * `IsReadAs.append`, `IsReadAs.operands`
    * `givenOf`
    * `values_givenOf`
-/

namespace ScriptWorkspace

namespace CommandLine

variable {specs : List OptionSpec}

------------------------------------------------------------
-- One Word
------------------------------------------------------------

/- An option without a value, and what follows it. -/
theorem readFrom_option
    {word : OsText}
    {given : List Given}
    (mixed : Bool)
    (fuel : Nat)
    (words : List OsText)
    (hEnd : word ≠ endOfOptions)
    (hOption : isOption word = true)
    (hWord : readWord specs word = some (.complete given)) :
    readFrom specs mixed (fuel + 1) (word :: words) =
      (readFrom specs mixed fuel words).map
        (·.withGiven given) := by
  rw [readFrom, if_neg hEnd, if_pos hOption, hWord]
  cases readFrom specs mixed fuel words with
  | none => rfl
  | some others => rfl

/- An option with a value, which is the next word. -/
theorem readFrom_value
    {word : OsText}
    {name : Text}
    (mixed : Bool)
    (fuel : Nat)
    (value : OsText)
    (words : List OsText)
    (hEnd : word ≠ endOfOptions)
    (hOption : isOption word = true)
    (hWord :
      readWord specs word =
        some { given := [], pending := some name }) :
    readFrom specs mixed (fuel + 1)
        (word :: value :: words) =
      (readFrom specs mixed fuel words).map
        (·.withGiven [{ name, value }]) := by
  rw [readFrom, if_neg hEnd, if_pos hOption, hWord]
  simp only [Option.bind_eq_bind, Option.bind_some]
  cases readFrom specs mixed fuel words with
  | none => rfl
  | some others => rfl

/- A command keeps all words after its name. -/
theorem readFrom_operand
    {word : OsText}
    (specs : List OptionSpec)
    (fuel : Nat)
    (words : List OsText)
    (hEnd : word ≠ endOfOptions)
    (hOperand : isOption word = false) :
    readFrom specs false (fuel + 1) (word :: words) =
      some { given := [], operands := word :: words } := by
  simp [readFrom, hEnd, hOperand]

------------------------------------------------------------
-- Fuel
------------------------------------------------------------

theorem readFrom_succ
    {mixed : Bool}
    {fuel : Nat}
    {words : List OsText}
    (hFuel : words.length < fuel) :
    readFrom specs mixed (fuel + 1) words =
      readFrom specs mixed fuel words := by
  induction fuel generalizing words with
  | zero => exact absurd hFuel (Nat.not_lt_zero _)
  | succ fuel ih =>
      cases words with
      | nil => rfl
      | cons word words =>
          have hWords : words.length < fuel := by
            simpa using hFuel
          have hRest := ih hWords
          rw [readFrom, readFrom]
          split
          · rfl
          · split
            · cases readWord specs word with
              | none => rfl
              | some found =>
                  rcases found with ⟨given, pending⟩
                  simp only [Option.bind_eq_bind,
                    Option.bind_some]
                  cases pending with
                  | none => simp only [hRest]
                  | some name =>
                      cases words with
                      | nil => rfl
                      | cons value words =>
                          have hPast :=
                            ih (Nat.lt_of_succ_lt hWords)
                          simp only [hPast]
            · simp only [hRest]

/- Fuel beyond the number of words makes no difference. -/
theorem readFrom_of_lt
    {mixed : Bool}
    {fuel : Nat}
    {words : List OsText}
    (hFuel : words.length < fuel) :
    readFrom specs mixed fuel words =
      readArguments specs mixed words := by
  induction hFuel with
  | refl => rfl
  | step hLe ih => rw [readFrom_succ hLe, ih]

------------------------------------------------------------
-- Whole Command Lines
------------------------------------------------------------

theorem readArguments_option
    {word : OsText}
    {given : List Given}
    (mixed : Bool)
    (words : List OsText)
    (hEnd : word ≠ endOfOptions)
    (hOption : isOption word = true)
    (hWord : readWord specs word = some (.complete given)) :
    readArguments specs mixed (word :: words) =
      (readArguments specs mixed words).map
        (·.withGiven given) := by
  rw [readArguments,
    readFrom_option mixed _ words hEnd hOption hWord]
  rfl

theorem readArguments_value
    {word : OsText}
    {name : Text}
    (mixed : Bool)
    (value : OsText)
    (words : List OsText)
    (hEnd : word ≠ endOfOptions)
    (hOption : isOption word = true)
    (hWord :
      readWord specs word =
        some { given := [], pending := some name }) :
    readArguments specs mixed (word :: value :: words) =
      (readArguments specs mixed words).map
        (·.withGiven [{ name, value }]) := by
  have hFuel :
      words.length < (word :: value :: words).length := by
    simp only [List.length_cons]
    omega
  rw [readArguments,
    readFrom_value mixed _ value words hEnd hOption hWord,
    readFrom_of_lt hFuel]

/- What ends the options leaves all words after it alone. -/
theorem readArguments_endOfOptions
    (specs : List OptionSpec)
    (mixed : Bool)
    (words : List OsText) :
    readArguments specs mixed (endOfOptions :: words) =
      some { given := [], operands := words } := by
  rw [readArguments, readFrom, if_pos rfl]

------------------------------------------------------------
-- Several Words
------------------------------------------------------------

/- Words that are read as options, whatever follows them. -/
def IsReadAs
    (specs : List OptionSpec)
    (words : List OsText)
    (given : List Given) : Prop :=
  ∀ mixed rest,
    readArguments specs mixed (words ++ rest) =
      (readArguments specs mixed rest).map
        (·.withGiven given)

namespace IsReadAs

variable {words others : List OsText}
variable {given more : List Given}

theorem nil : IsReadAs specs [] [] := by
  intro mixed rest
  cases hRest : readArguments specs mixed rest with
  | none => rw [List.nil_append, hRest, Option.map_none]
  | some arguments =>
      rw [List.nil_append, hRest, Option.map_some]
      rfl

/- Words one after the other are the options of both. -/
theorem append
    (hWords : IsReadAs specs words given)
    (hOthers : IsReadAs specs others more) :
    IsReadAs specs (words ++ others) (given ++ more) := by
  intro mixed rest
  rw [List.append_assoc, hWords, hOthers]
  cases readArguments specs mixed rest with
  | none => rfl
  | some arguments =>
      simp only [Option.map_some, Arguments.withGiven,
        List.append_assoc]

/- Behind such words two dashes end the options. -/
theorem operands
    (hWords : IsReadAs specs words given)
    (mixed : Bool)
    (rest : List OsText) :
    readArguments specs mixed
        (words ++ endOfOptions :: rest) =
      some { given, operands := rest } := by
  rw [hWords, readArguments_endOfOptions]
  simp [Arguments.withGiven]

end IsReadAs

------------------------------------------------------------
-- Values
------------------------------------------------------------

/- An option that is given with some values. -/
def givenAs
    (name : Text)
    (values : List OsText) : List Given :=
  values.map fun value => { name, value }

/- Options one after the other, each with its values. -/
def givenOf
    (settings : List (Text × List OsText)) : List Given :=
  settings.flatMap fun (name, values) => givenAs name values

theorem has_eq (name : String) (arguments : Arguments) :
    arguments.has name =
      !(arguments.values name).isEmpty := by
  unfold Arguments.has Arguments.values
  induction arguments.given with
  | nil => rfl
  | cons given more ih =>
      cases hName : given.name == name.toList <;>
        simp [hName, ih]

theorem count_eq (name : String) (arguments : Arguments) :
    arguments.count name =
      (arguments.values name).length := by
  unfold Arguments.count Arguments.values
  rw [List.length_map, List.countP_eq_length_filter]

theorem values_append
    (name : String)
    (given more : List Given)
    (operands : List OsText) :
    Arguments.values name
        { given := given ++ more, operands } =
      Arguments.values name { given, operands } ++
        Arguments.values name { given := more, operands } := by
  simp [Arguments.values]

theorem values_givenAs_self
    (name : String)
    (values operands : List OsText) :
    Arguments.values name
        { given := givenAs name.toList values, operands } =
      values := by
  simp [Arguments.values, givenAs, List.filter_map,
    Function.comp_def]

theorem values_givenAs_of_ne
    {name : String}
    {other : Text}
    (hNe : other ≠ name.toList)
    (values operands : List OsText) :
    Arguments.values name
        { given := givenAs other values, operands } =
      [] := by
  simp [Arguments.values, givenAs, List.filter_map,
    Function.comp_def, hNe]

/- If no option is told twice, each has its own values. -/
theorem values_givenOf
    {settings : List (Text × List OsText)}
    (hNames : (settings.map Prod.fst).Nodup)
    (name : String)
    (operands : List OsText) :
    Arguments.values name
        { given := givenOf settings, operands } =
      (settings.lookup name.toList).getD [] := by
  induction settings with
  | nil => rfl
  | cons setting settings ih =>
      rcases setting with ⟨key, values⟩
      rw [List.map_cons, List.nodup_cons] at hNames
      rw [givenOf, List.flatMap_cons, values_append,
        ← givenOf, ih hNames.2]
      by_cases hKey : key = name.toList
      · subst hKey
        have hRest : settings.lookup name.toList = none := by
          rw [List.lookup_eq_none_iff]
          intro other hMem
          rw [bne_iff_ne]
          intro hSame
          exact
            hNames.1
              (List.mem_map.mpr ⟨other, hMem, hSame.symm⟩)
        rw [values_givenAs_self, hRest,
          List.lookup_cons_self, Option.getD_none,
          List.append_nil, Option.getD_some]
      · have hOther : (name.toList == key) = false := by
          rw [beq_eq_false_iff_ne]
          exact Ne.symm hKey
        rw [values_givenAs_of_ne hKey, List.nil_append,
          List.lookup_cons, hOther]

end CommandLine

end ScriptWorkspace
