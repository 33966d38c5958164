import ScriptWorkspace.Proofs.CommandLine.Numerals
import ScriptWorkspace.Proofs.CommandLine.Reading
import ScriptWorkspace.Proofs.Path.Spelling

/-
  What the words of a call of the build tool say.

  The words that build and run a package are read from left
  to right, each option that takes a value with the word
  after it. Whatever the values are, the options that are
  read are the ones that the call was made with, and the
  words of the script are all words behind the separator.
  So calls of the same words are the same call, up to how a
  build that is not verbose is told.

  Main declarations:
    * `Cargo.RunCall`
    * `Cargo.RunCall.ofWords?`
    * `Cargo.RunCall.settings`
    * `Cargo.KnowsRunOptions`
    * `Cargo.KnowsRunOptions.isReadAs_repeated`
    * `Cargo.RunCall.exists_words_eq`
    * `Cargo.RunCall.ofArguments?_settings`
    * `Cargo.RunCall.run_words_are_decoded`
-/

namespace ScriptWorkspace

namespace Cargo

open CommandLine

------------------------------------------------------------
-- Calls
------------------------------------------------------------

/- What is run, how it is built, and the script's words. -/
structure RunCall where
  package : OsText
  manifest : Path
  options : RunOptions
  arguments : List OsText
deriving DecidableEq, Repr

/- The command that builds and runs. -/
def runCommand : OsText := "run"

namespace RunCall

/- The words of a call, without the name of the program. -/
def words (call : RunCall) : List OsText :=
  runArguments call.package call.manifest call.arguments
    call.options

/- The call that some options and other words make. -/
def ofArguments? (read : Arguments) : Option RunCall := do
  let package ← read.value? "--package"
  let manifest ← read.path? "--manifest-path"
  let jobs ← jobs? read
  let options := runOptions jobs read
  let arguments := read.operands
  return { package, manifest, options, arguments }

/- The call that some words are, read from left to right. -/
def ofWords?
    (specs : List OptionSpec) :
    List OsText → Option RunCall
  | [] => none
  | command :: words =>
    if command = runCommand then
      (readArguments specs false words).bind ofArguments?
    else
      none

/- A build that is not verbose has a verbosity of zero. -/
def settled (call : RunCall) : RunCall :=
  { call with
    options :=
      { call.options with
        verbosity := max call.options.verbosity 0 } }

/- An option without a value, given some number of times. -/
def marks (count : Nat) : List OsText :=
  List.replicate count []

/- Each option of a call, with all values it is given. -/
def settings (call : RunCall) : List (Text × List OsText) :=
  [("--package", [call.package]),
    ("--manifest-path", [call.manifest.text]),
    ("--jobs", (call.options.jobs.map numeral).toList),
    ("--bin", call.options.binary.toList),
    ("--release", marks call.options.release.toNat),
    ("--profile", call.options.profile.toList),
    ("--features", call.options.features),
    ("--all-features", marks call.options.allFeatures.toNat),
    ("--no-default-features",
      marks call.options.noDefaultFeatures.toNat),
    ("--target", call.options.target.toList),
    ("--message-format", call.options.messageFormats),
    ("--verbose", marks call.options.verbosity.toNat),
    ("--frozen", marks call.options.frozen.toNat),
    ("--locked", marks call.options.locked.toNat),
    ("--offline", marks call.options.offline.toNat)]

end RunCall

------------------------------------------------------------
-- Options Of The Build Tool
------------------------------------------------------------

/- The option for the package that is run. -/
def packageOption : OptionSpec :=
  setting "--package" (some 'p')

/- The option for a verbose build, which may be repeated. -/
def verboseOption : OptionSpec :=
  switch "--verbose" (some 'v')

/- The options of the build tool that a call may be given. -/
def callOptions : List OptionSpec :=
  [packageOption, setting "--manifest-path" none,
    setting "--jobs" (some 'j'), setting "--bin" none,
    switch "--release" (some 'r'), setting "--profile" none,
    setting "--features" (some 'F'),
    switch "--all-features" none,
    switch "--no-default-features" none,
    setting "--target" none, setting "--message-format" none,
    verboseOption, switch "--frozen" none,
    switch "--locked" none, switch "--offline" none]

/-
  Options of a build tool, among which those of a call have
  their meaning. There may be any others beside them.
-/
structure KnowsRunOptions
    (specs : List OptionSpec) : Prop where
  long :
    ∀ spec ∈ callOptions,
      findLong? specs spec.long = some spec
  package :
    findShort? specs (.char 'p') = some packageOption
  verbose :
    findShort? specs (.char 'v') = some verboseOption
  dashes :
    ∀ spec ∈ specs, ['-', '-'] <+: spec.long

/- The name of an option is one word, and no other one. -/
theorem isOption_of_mem_callOptions :
    ∀ spec ∈ callOptions,
      isOption spec.long = true ∧
        (spec.long : OsText) ≠ endOfOptions ∧
        splitEquals spec.long =
          ((spec.long : OsText), none) := by
  decide

------------------------------------------------------------
-- Words That Are Read
------------------------------------------------------------

theorem valued_eq_repeated
    (option : OsText)
    (value : Option OsText) :
    valued option value =
      repeated option value.toList := by
  cases value with
  | none => rfl
  | some value => rfl

theorem verbosityFlag_eq (verbosity : Int) :
    verbosityFlag verbosity =
      match verbosity.toNat with
      | 0 => []
      | count + 1 =>
        [.char '-' ::
          List.replicate (count + 1) (.char 'v')] := by
  unfold verbosityFlag
  cases hCount : verbosity.toNat with
  | zero => rw [if_neg (by omega)]
  | succ count =>
      rw [if_pos (by omega)]
      simp only [List.map_cons, List.map_replicate]

theorem splitEquals_replicate (count : Nat) :
    splitEquals (List.replicate count (.char 'v')) =
      (List.replicate count (.char 'v'), none) := by
  induction count with
  | zero => rfl
  | succ count ih =>
      rw [List.replicate_succ, splitEquals,
        if_neg (by decide), ih]

namespace KnowsRunOptions

variable {specs : List OptionSpec}
variable (hSpecs : KnowsRunOptions specs)
include hSpecs

section

variable (spec : OptionSpec)
variable (hSpec : spec ∈ callOptions)
include hSpec

theorem isReadAs_setting
    (hValue : spec.takesValue = true)
    (value : OsText) :
    IsReadAs specs [(spec.long : OsText), value]
      (givenAs spec.long [value]) := by
  rcases isOption_of_mem_callOptions spec hSpec with
    ⟨hOption, hEnd, hSplit⟩
  have hWord :
      readWord specs spec.long =
        some { given := [], pending := some spec.long } := by
    simp only [readWord, hSplit, hSpecs.long spec hSpec,
      hValue, if_true, withValue]
  intro mixed rest
  exact
    readArguments_value mixed value rest hEnd hOption hWord

theorem isReadAs_switch
    (hValue : spec.takesValue = false) :
    IsReadAs specs [(spec.long : OsText)]
      (givenAs spec.long [[]]) := by
  rcases isOption_of_mem_callOptions spec hSpec with
    ⟨hOption, hEnd, hSplit⟩
  have hWord :
      readWord specs spec.long =
        some
          (.complete [{ name := spec.long, value := [] }]) := by
    simp [readWord, hSplit, hSpecs.long spec hSpec, hValue]
  intro mixed rest
  exact readArguments_option mixed rest hEnd hOption hWord

/- An option for each value is read with these values. -/
theorem isReadAs_repeated
    (hValue : spec.takesValue = true)
    (values : List OsText) :
    IsReadAs specs (repeated spec.long values)
      (givenAs spec.long values) := by
  induction values with
  | nil => exact .nil
  | cons value values ih =>
      have hFirst :=
        hSpecs.isReadAs_setting spec hSpec hValue value
      exact hFirst.append ih

/- An option with a value is read if there is a value. -/
theorem isReadAs_valued
    (hValue : spec.takesValue = true)
    (value : Option OsText) :
    IsReadAs specs (valued spec.long value)
      (givenAs spec.long value.toList) := by
  rw [valued_eq_repeated]
  exact hSpecs.isReadAs_repeated spec hSpec hValue _

/- An option without a value is read if it is given. -/
theorem isReadAs_flag
    (hValue : spec.takesValue = false)
    (given : Bool) :
    IsReadAs specs (flag spec.long given)
      (givenAs spec.long (RunCall.marks given.toNat)) := by
  cases given with
  | false => exact .nil
  | true => exact hSpecs.isReadAs_switch spec hSpec hValue

end

/- Letters behind one dash are an option each. -/
theorem readWord_letters
    {letters : OsText}
    (hDash : letters.head? ≠ some (.char '-'))
    (hEquals : splitEquals letters = (letters, none)) :
    readWord specs (.char '-' :: letters) =
      readCluster specs letters := by
  have hLong :
      findLong? specs (.char '-' :: letters) = none := by
    unfold findLong?
    rw [List.find?_eq_none]
    intro spec hSpec hSame
    rcases hSpecs.dashes spec hSpec with ⟨rest, hRest⟩
    apply hDash
    rw [beq_iff_eq, ← hRest] at hSame
    rw [← (List.cons.inj hSame).2]
    rfl
  have hSplit :
      splitEquals (.char '-' :: letters) =
        (.char '-' :: letters, none) := by
    rw [splitEquals, if_neg (by decide), hEquals]
  unfold readWord
  rw [hSplit]
  simp only [hLong]
  split
  next word hLetters =>
      rw [(List.cons.inj hLetters).2] at hDash
      exact absurd rfl hDash
  next => rfl

/- The package is told by the letter of its option. -/
theorem isReadAs_package (package : OsText) :
    IsReadAs specs ["-p", package]
      (givenAs "--package" [package]) := by
  have hLetter :
      readWord specs [.char '-', .char 'p'] =
        some { given := [], pending := some "--package" } := by
    rw [hSpecs.readWord_letters (by decide) (by decide),
      readCluster, hSpecs.package]
    rfl
  intro mixed rest
  exact
    readArguments_value mixed package rest (by decide)
      (by decide) hLetter

/- Each letter is read as one more degree of verbosity. -/
theorem readCluster_replicate (count : Nat) :
    readCluster specs (List.replicate count (.char 'v')) =
      some
        (.complete
          (givenAs "--verbose" (RunCall.marks count))) := by
  induction count with
  | zero => rfl
  | succ count ih =>
      rw [List.replicate_succ, readCluster, hSpecs.verbose,
        ih]
      rfl

theorem isReadAs_verbosityFlag (verbosity : Int) :
    IsReadAs specs (verbosityFlag verbosity)
      (givenAs "--verbose"
        (RunCall.marks verbosity.toNat)) := by
  rw [verbosityFlag_eq]
  cases verbosity.toNat with
  | zero => exact .nil
  | succ count =>
      have hDash :
          (List.replicate (count + 1)
              (OsChar.char 'v')).head? ≠
            some (.char '-') := by
        simp [List.replicate_succ]
      have hWord :=
        hSpecs.readWord_letters hDash
          (splitEquals_replicate (count + 1))
      rw [hSpecs.readCluster_replicate] at hWord
      have hEnd :
          .char '-' ::
              List.replicate (count + 1) (.char 'v') ≠
            endOfOptions := by
        simp [endOfOptions, List.replicate_succ]
      intro mixed rest
      exact
        readArguments_option mixed rest hEnd
          (by simp [isOption]) hWord

end KnowsRunOptions

------------------------------------------------------------
-- Whole Calls
------------------------------------------------------------

namespace RunCall

variable {specs : List OptionSpec}

/-
  The words of a call are its name, the options that it is
  given, and the words of the script behind a separator.
-/
theorem exists_words_eq
    (hSpecs : KnowsRunOptions specs)
    (call : RunCall) :
    ∃ front,
      call.words =
          runCommand ::
            (front ++ endOfOptions :: call.arguments) ∧
        IsReadAs specs front (givenOf call.settings) := by
  have hFront :=
    (hSpecs.isReadAs_package call.package).append <|
    (hSpecs.isReadAs_setting
      (setting "--manifest-path" none)
      (by decide) rfl call.manifest.text).append <|
    (hSpecs.isReadAs_valued
      (setting "--jobs" (some 'j'))
      (by decide) rfl
      (call.options.jobs.map numeral)).append <|
    (hSpecs.isReadAs_valued
      (setting "--bin" none)
      (by decide) rfl call.options.binary).append <|
    (hSpecs.isReadAs_flag
      (switch "--release" (some 'r'))
      (by decide) rfl call.options.release).append <|
    (hSpecs.isReadAs_valued
      (setting "--profile" none)
      (by decide) rfl call.options.profile).append <|
    (hSpecs.isReadAs_repeated
      (setting "--features" (some 'F'))
      (by decide) rfl call.options.features).append <|
    (hSpecs.isReadAs_flag
      (switch "--all-features" none)
      (by decide) rfl call.options.allFeatures).append <|
    (hSpecs.isReadAs_flag
      (switch "--no-default-features" none)
      (by decide) rfl
      call.options.noDefaultFeatures).append <|
    (hSpecs.isReadAs_valued
      (setting "--target" none)
      (by decide) rfl call.options.target).append <|
    (hSpecs.isReadAs_repeated
      (setting "--message-format" none)
      (by decide) rfl call.options.messageFormats).append <|
    (hSpecs.isReadAs_verbosityFlag
      call.options.verbosity).append <|
    (hSpecs.isReadAs_flag
      (switch "--frozen" none)
      (by decide) rfl call.options.frozen).append <|
    (hSpecs.isReadAs_flag
      (switch "--locked" none)
      (by decide) rfl call.options.locked).append <|
    (hSpecs.isReadAs_flag
      (switch "--offline" none)
      (by decide) rfl call.options.offline).append .nil
  refine ⟨_, ?_, hFront⟩
  simp only [words, runArguments, List.append_assoc,
    List.cons_append, List.nil_append, List.append_nil]
  rfl

/- No option is told twice in the settings of a call. -/
theorem nodup_settings (call : RunCall) :
    (call.settings.map Prod.fst).Nodup := by
  simp only [settings, List.map_cons, List.map_nil]
  decide

/- An option without a value is given or not. -/
theorem isEmpty_marks (given : Bool) :
    (marks given.toNat).isEmpty = !given := by
  cases given with
  | false => rfl
  | true => rfl

theorem getLast?_toList
    {α : Type}
    (value : Option α) :
    value.toList.getLast? = value := by
  cases value with
  | none => rfl
  | some value => rfl

/- The number of jobs is read from its numeral. -/
theorem jobs?_of_values
    {read : Arguments}
    {jobs : Option Int}
    (hJobs :
      read.values "--jobs" = (jobs.map numeral).toList) :
    jobs? read = some jobs := by
  unfold jobs? Arguments.value?
  rw [hJobs, getLast?_toList]
  cases jobs with
  | none => rfl
  | some n =>
      exact congrArg (Option.map some) (integer?_numeral n)

/- The settings of a call make that call. -/
theorem ofArguments?_settings
    {call : RunCall}
    (hManifest : call.manifest.IsProper) :
    ofArguments?
        { given := givenOf call.settings
          operands := call.arguments } =
      some call.settled := by
  have hValues :=
    fun name =>
      values_givenOf call.nodup_settings name call.arguments
  have hJobs := jobs?_of_values (hValues "--jobs")
  have hVerbosity :
      ((marks call.options.verbosity.toNat).length : Int) =
        max call.options.verbosity 0 := by
    rw [marks, List.length_replicate, Int.toNat_eq_max]
  -- Each option is looked up by its name in the settings.
  simp only [ofArguments?, Arguments.value?,
    Arguments.path?, runOptions, has_eq, count_eq, hValues,
    hJobs]
  simp [settings, List.lookup_cons, getLast?_toList,
    isEmpty_marks, hVerbosity, Path.ofText_text hManifest,
    settled]

/- A build that is not verbose has the same words. -/
theorem words_settled (call : RunCall) :
    call.settled.words = call.words := by
  have hCount :
      (max call.options.verbosity 0).toNat =
        call.options.verbosity.toNat := by
    omega
  have hFlag :
      verbosityFlag (max call.options.verbosity 0) =
        verbosityFlag call.options.verbosity := by
    rw [verbosityFlag_eq, verbosityFlag_eq, hCount]
  simp only [settled, words, runArguments, hFlag]

/- The words of a call are read as the call. -/
theorem ofWords?_words
    (hSpecs : KnowsRunOptions specs)
    {call : RunCall}
    (hManifest : call.manifest.IsProper) :
    ofWords? specs call.words = some call.settled := by
  rcases exists_words_eq hSpecs call with
    ⟨front, hWords, hFront⟩
  rw [hWords, ofWords?, if_pos rfl, hFront.operands,
    Option.bind_some]
  exact ofArguments?_settings hManifest

/-
  The words of a call are that call, read from left to right
  by a build tool that knows the options of calls, whatever
  others it has. What is in front of the separator is read
  as the options of the call, whatever stands behind it, and
  what is behind it are the words of the script. So calls of
  the same words are the same, up to how a build that is not
  verbose is told.
-/
theorem run_words_are_decoded
    {specs : List OptionSpec}
    (hSpecs : KnowsRunOptions specs)
    {call : RunCall}
    (hManifest : call.manifest.IsProper) :
    ofWords? specs call.words = some call.settled ∧
      (∃ front,
        call.words =
            runCommand ::
              (front ++ endOfOptions :: call.arguments) ∧
          ∀ others,
            readArguments specs false
                (front ++ endOfOptions :: others) =
              some
                { given := givenOf call.settings
                  operands := others }) ∧
      ∀ other : RunCall,
        other.manifest.IsProper →
          (other.words = call.words ↔
            other.settled = call.settled) := by
  have hRead := ofWords?_words hSpecs hManifest
  refine ⟨hRead, ?_, ?_⟩
  · rcases exists_words_eq hSpecs call with
      ⟨front, hWords, hFront⟩
    refine ⟨front, hWords, ?_⟩
    intro others
    exact hFront.operands false others
  · intro other hOther
    constructor
    · intro hSame
      have hOtherRead := ofWords?_words hSpecs hOther
      rw [hSame, hRead] at hOtherRead
      exact (Option.some.inj hOtherRead).symm
    · intro hSame
      rw [← words_settled other, hSame, words_settled]

/- A build tool that has more options than calls have. -/
def largerTool : List OptionSpec :=
  setting "--config" none :: switch "--quiet" (some 'q') ::
    callOptions

/- A call whose values look like options and separators. -/
def deceptiveCall : RunCall :=
  { package := "--"
    manifest := .ofText ("/ws/Cargo.toml" : String)
    options :=
      { RunOptions.usual with
        jobs := some (-3)
        binary := some ("--release" : String)
        features := ["--", ""]
        verbosity := -1 }
    arguments := ["--quiet", "--", "--config"] }

/- It is read with no verbosity, and else as it was made. -/
theorem run_words_are_decoded_deceptive :
    KnowsRunOptions largerTool ∧
      deceptiveCall.manifest.IsProper ∧
      ofWords? largerTool deceptiveCall.words =
        some
          { deceptiveCall with
            options :=
              { deceptiveCall.options with
                verbosity := 0 } } := by
  have hTool : KnowsRunOptions largerTool :=
    { long := by decide +kernel
      package := by decide
      verbose := by decide
      dashes := by decide }
  have hManifest : deceptiveCall.manifest.IsProper :=
    Path.isProper_ofText _
  exact
    ⟨hTool, hManifest,
      (run_words_are_decoded hTool hManifest).1⟩

end RunCall

end Cargo

end ScriptWorkspace
