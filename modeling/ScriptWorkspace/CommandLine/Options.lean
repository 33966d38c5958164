import ScriptWorkspace.Path.Basic

/-
  Options on a command line.

  A long option stands alone, or has its value after an
  equals sign or in the next word. Short options can stand
  together in one word, of which the last may have its value
  right after it. Two dashes end the options. An option may
  come after other words, unless those are a command with
  options of its own.

  Key definitions include:
    * `CommandLine.OptionSpec`
    * `CommandLine.Arguments`
    * `CommandLine.readArguments`
-/

namespace ScriptWorkspace

namespace CommandLine

------------------------------------------------------------
-- Specifications
------------------------------------------------------------

/- An option: its names, and whether it takes a value. -/
structure OptionSpec where
  long : Text
  short : Option Char
  takesValue : Bool
deriving DecidableEq, Repr

/- An option without a value. -/
def switch
    (long : String)
    (short : Option Char) : OptionSpec :=
  { long := long, short, takesValue := false }

/- An option with a value. -/
def setting
    (long : String)
    (short : Option Char) : OptionSpec :=
  { long := long, short, takesValue := true }

/- The option of a long name. -/
def findLong?
    (specs : List OptionSpec)
    (name : OsText) : Option OptionSpec :=
  specs.find? fun spec =>
    (spec.long : OsText) == name

/- The option of a letter. -/
def findShort?
    (specs : List OptionSpec)
    (letter : OsChar) : Option OptionSpec :=
  specs.find? fun spec =>
    match spec.short with
    | some c => OsChar.char c == letter
    | none => false

------------------------------------------------------------
-- Words
------------------------------------------------------------

/- An option that was given, with its value if it has one. -/
structure Given where
  name : Text
  value : OsText
deriving DecidableEq, Repr

/-
  The options of a word, and an option whose value is the
  next word, if there is one.
-/
structure WordOptions where
  given : List Given
  pending : Option Text
deriving DecidableEq, Repr

/- Only options that need no further word. -/
def WordOptions.complete (given : List Given) : WordOptions :=
  { given, pending := none }

/- An option with its value, or one that waits for it. -/
def withValue
    (spec : OptionSpec)
    (value : Option OsText) : WordOptions :=
  match value with
  | some value => .complete [{ name := spec.long, value }]
  | none => { given := [], pending := some spec.long }

/- The options of a cluster of letters. -/
def readCluster
    (specs : List OptionSpec) :
    OsText → Option WordOptions
  | [] => some (.complete [])
  | letter :: rest => do
    let spec ← findShort? specs letter
    if spec.takesValue then
      return withValue spec
        (if rest.isEmpty then none else some rest)
    else
      let others ← readCluster specs rest
      return { others with
        given :=
          { name := spec.long, value := [] } ::
            others.given }

/- A word split at its first equals sign, if it has one. -/
def splitEquals : OsText → OsText × Option OsText
  | [] => ([], none)
  | unit :: rest =>
    if unit = .char '=' then
      ([], some rest)
    else
      let (name, value) := splitEquals rest
      (unit :: name, value)

/- The options of a word that begins with a dash. -/
def readWord
    (specs : List OptionSpec)
    (word : OsText) : Option WordOptions :=
  let (name, value) := splitEquals word
  match findLong? specs name with
  | some spec =>
    if spec.takesValue then
      some (withValue spec value)
    else if value.isSome then
      none
    else
      some (.complete [{ name := spec.long, value := [] }])
  | none =>
    match word with
    | .char '-' :: .char '-' :: _ => none
    | _ => readCluster specs (word.drop 1)

/- The word is one or more options. -/
def isOption (word : OsText) : Bool :=
  word.head? == some (.char '-') && decide (word.length > 1)

/- The word that ends the options. -/
def endOfOptions : OsText := "--"

------------------------------------------------------------
-- Arguments
------------------------------------------------------------

/- The options of a command line, and its other words. -/
structure Arguments where
  given : List Given
  operands : List OsText
deriving DecidableEq, Repr

namespace Arguments

/- The option was given. -/
def has (name : String) (arguments : Arguments) : Bool :=
  arguments.given.any (·.name == name.toList)

/- How often an option was given. -/
def count (name : String) (arguments : Arguments) : Nat :=
  arguments.given.countP (·.name == name.toList)

/- The values that were given for an option. -/
def values
    (name : String)
    (arguments : Arguments) : List OsText :=
  (arguments.given.filter (·.name == name.toList)).map
    Given.value

/- The value for an option that was given last. -/
def value?
    (name : String)
    (arguments : Arguments) : Option OsText :=
  (arguments.values name).getLast?

/- The path for an option that was given last. -/
def path?
    (name : String)
    (arguments : Arguments) : Option Path :=
  (arguments.value? name).map Path.ofText

/- The arguments with options in front. -/
def withGiven
    (given : List Given)
    (arguments : Arguments) : Arguments :=
  { arguments with given := given ++ arguments.given }

/- The arguments with an operand in front. -/
def withOperand
    (word : OsText)
    (arguments : Arguments) : Arguments :=
  { arguments with operands := word :: arguments.operands }

end Arguments

/- The arguments of a command line, at most `fuel` words. -/
def readFrom
    (specs : List OptionSpec)
    (mixed : Bool) :
    (fuel : Nat) →
    List OsText →
    Option Arguments
  | 0, _ => none
  | _, [] => some { given := [], operands := [] }
  | fuel + 1, word :: words =>
    if word = endOfOptions then
      some { given := [], operands := words }
    else if isOption word then do
      let found ← readWord specs word
      match found.pending, words with
      | none, _ =>
        let others ← readFrom specs mixed fuel words
        return others.withGiven found.given
      | some name, value :: words =>
        let others ← readFrom specs mixed fuel words
        return others.withGiven
          (found.given ++ [{ name, value }])
      | some _, [] => none
    else if mixed then do
      let others ← readFrom specs mixed fuel words
      return others.withOperand word
    else
      some { given := [], operands := word :: words }

/- The arguments of a command line with the given options. -/
def readArguments
    (specs : List OptionSpec)
    (mixed : Bool)
    (words : List OsText) : Option Arguments :=
  readFrom specs mixed (words.length + 1) words

end CommandLine

end ScriptWorkspace
