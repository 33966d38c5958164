import ScriptWorkspace.Path.Basic

/-
  Command lines of the build tool.

  A command is shown the way a shell reads it: each word that
  holds anything but harmless characters is put in quotes.

  Key definitions include:
    * `Cargo.quoteWord`
    * `Cargo.commandLine`
    * `Cargo.metadataArguments`
    * `Cargo.RunOptions`
    * `Cargo.runArguments`
-/

namespace ScriptWorkspace

namespace Cargo

------------------------------------------------------------
-- Shell Words
------------------------------------------------------------

/- The unit means nothing else than itself to a shell. -/
def isHarmless : OsChar → Bool
  | .char c =>
    Text.isLetter c || Text.isDigit c ||
      "_@%+=:,./-".toList.contains c
  | .byte _ => false

/- A unit inside of single quotes. -/
def quoteUnit (unit : OsChar) : OsText :=
  if unit = .char '\'' then "'\"'\"'" else [unit]

/- A word as a shell reads it. -/
def quoteWord (word : OsText) : OsText :=
  if !word.isEmpty && word.all isHarmless then
    word
  else
    .char '\'' :: word.flatMap quoteUnit ++ [.char '\'']

/- A command as a shell reads it. -/
def commandLine : List OsText → OsText
  | [] => []
  | [word] => quoteWord word
  | word :: words =>
    quoteWord word ++ .char ' ' :: commandLine words

------------------------------------------------------------
-- Options
------------------------------------------------------------

/- An option with a value, if there is a value. -/
def valued
    (option : OsText)
    (value : Option OsText) : List OsText :=
  match value with
  | some value => [option, value]
  | none => []

------------------------------------------------------------
-- Metadata
------------------------------------------------------------

/- The words that ask for the metadata of a workspace. -/
def metadataArguments
    (color : Text)
    (manifest : Option Path) : List OsText :=
  let asked : List OsText :=
    ["metadata", "--no-deps", "--format-version", "1",
      "--color", color, "--frozen"]
  asked ++ valued "--manifest-path" (manifest.map Path.text)

------------------------------------------------------------
-- Running
------------------------------------------------------------

/- How a script is built before it is run. -/
structure RunOptions where
  jobs : Option Int
  binary : Option OsText
  release : Bool
  profile : Option OsText
  features : List OsText
  allFeatures : Bool
  noDefaultFeatures : Bool
  target : Option OsText
  messageFormats : List OsText
  verbosity : Int
  frozen : Bool
  locked : Bool
  offline : Bool
deriving DecidableEq, Repr

/- The usual way to build a script. -/
def RunOptions.usual : RunOptions :=
  { jobs := none, binary := none, release := false
    profile := none, features := [], allFeatures := false
    noDefaultFeatures := false, target := none
    messageFormats := [], verbosity := 0, frozen := false
    locked := false, offline := false }

/- An option for each value. -/
def repeated
    (option : OsText)
    (values : List OsText) : List OsText :=
  values.flatMap fun value => [option, value]

/- An option that is given or not. -/
def flag (option : OsText) (given : Bool) : List OsText :=
  if given then [option] else []

/- The words for the verbosity of a build. -/
def verbosityFlag (verbosity : Int) : List OsText :=
  let letters : Text :=
    List.replicate verbosity.toNat 'v'
  if verbosity > 0 then [('-' :: letters : Text)] else []

/- A number as a word. -/
def numeral (n : Int) : OsText :=
  Text.ofInt n

/- The words that build and run a registered script. -/
def runArguments
    (package : OsText)
    (manifest : Path)
    (arguments : List OsText)
    (options : RunOptions) : List OsText :=
  let place : List OsText :=
    ["run", "-p", package, "--manifest-path", manifest.text]
  let build : List OsText :=
    valued "--jobs" (options.jobs.map numeral) ++
      valued "--bin" options.binary ++
      flag "--release" options.release ++
      valued "--profile" options.profile ++
      repeated "--features" options.features ++
      flag "--all-features" options.allFeatures ++
      flag "--no-default-features"
        options.noDefaultFeatures ++
      valued "--target" options.target ++
      repeated "--message-format" options.messageFormats ++
      verbosityFlag options.verbosity ++
      flag "--frozen" options.frozen ++
      flag "--locked" options.locked ++
      flag "--offline" options.offline
  let own : List OsText := "--" :: arguments
  place ++ build ++ own

end Cargo

end ScriptWorkspace
