import ScriptWorkspace.Cargo.Command
import ScriptWorkspace.CommandLine.Options
import ScriptWorkspace.Gist.Sync
import ScriptWorkspace.Session.Log

/-
  What a command line asks for.

  There are three programs: one manages workspaces, one is
  the same as a command of the build tool, and one runs a
  script. A command line that makes no sense asks for nothing.

  Key definitions include:
    * `Program`
    * `ColorChoice`
    * `Globals`
    * `Command`
    * `RunRequest`
    * `Request`
    * `CommandLine.read?`
-/

namespace ScriptWorkspace

namespace CommandLine

------------------------------------------------------------
-- Programs
------------------------------------------------------------

/- The programs that a command line can be for. -/
inductive Program
  | manager
  | cargoCommand
  | runner
deriving DecidableEq, Repr

/- The version of the programs. -/
def version : Text := "0.1.0"

/- The line that names a program and its version. -/
def versionLine (runner : Bool) : Text :=
  (if runner then ("bikecase " : Text)
    else "cargo-bikecase ") ++ version ++ ['\n']

------------------------------------------------------------
-- Global Options
------------------------------------------------------------

/- When output is colored. -/
inductive ColorChoice
  | auto
  | always
  | never
deriving DecidableEq, Repr

/- The word for a choice. -/
def ColorChoice.word : ColorChoice → Text
  | .auto => "auto"
  | .always => "always"
  | .never => "never"

/- The choice that a word stands for. -/
def ColorChoice.ofWord? (word : OsText) :
    Option ColorChoice :=
  [ColorChoice.auto, .always, .never].find? fun choice =>
    (choice.word : OsText) == word

/- What holds for every command. -/
structure Globals where
  verbosity : Nat
  quiet : Bool
  color : ColorChoice
  dryRun : Bool
  config : Option Path
deriving DecidableEq, Repr

/- What holds if nothing is said. -/
def Globals.usual : Globals :=
  { verbosity := 0, quiet := false, color := .auto
    dryRun := false, config := none }

------------------------------------------------------------
-- Requests
------------------------------------------------------------

/- A command on a workspace. -/
inductive Command
  | initWorkspace (path : Path)
  | new
      (path : Path)
      (name : Option OsText)
      (manifest : Option Path)
  | remove (package : Text) (manifest : Option Path)
  | include (path : Path) (manifest : Option Path)
  | exclude (path : Path) (manifest : Option Path)
  | import
      (file path manifest : Option Path)
  | export (package : Text) (manifest : Option Path)
  | gistClone
      (gistId : Text)
      (path manifest : Option Path)
  | gistPull (package : Text) (manifest : Option Path)
  | gistPush
      (package : Text)
      (options : Sync.PushOptions)
      (manifest : Option Path)
deriving DecidableEq, Repr

/- A script to be run. -/
structure RunRequest where
  file : Option Path
  arguments : List OsText
  options : Cargo.RunOptions
  manifest : Option Path
  color : ColorChoice
  config : Option Path
deriving DecidableEq, Repr

/- What a command line asks for. -/
inductive Request
  | showVersion (runner : Bool)
  | manage (globals : Globals) (command : Command)
  | runScript (request : RunRequest)
deriving DecidableEq, Repr

------------------------------------------------------------
-- Values
------------------------------------------------------------

/- The text of a word, with nothing for a foreign byte. -/
def textOf (word : OsText) : Text :=
  word.filterMap fun unit =>
    match unit with
    | .char c => some c
    | .byte _ => none

/- The choice of colors, if there is a proper one. -/
def color? (arguments : Arguments) : Option ColorChoice :=
  match arguments.value? "--color" with
  | none => some .auto
  | some word => ColorChoice.ofWord? word

/- Digits in groups, with an underscore between two groups. -/
def digits? : Text → Option Text
  | [] => none
  | [c] => if Text.isDigit c then some [c] else none
  | c :: '_' :: rest =>
    if Text.isDigit c then (digits? rest).map (c :: ·)
    else none
  | c :: rest =>
    if Text.isDigit c then (digits? rest).map (c :: ·)
    else none

/- The number that a word stands for. -/
def integer? (word : OsText) : Option Int := do
  let text := Text.strip (← word.toText?)
  let (negative, body) :=
    match text with
    | '-' :: rest => (true, rest)
    | '+' :: rest => (false, rest)
    | rest => (false, rest)
  let value : Int := Text.numeralValue 10 (← digits? body)
  return if negative then -value else value

/- The number of jobs, or nothing, if it is a number. -/
def jobs? (arguments : Arguments) : Option (Option Int) :=
  match arguments.value? "--jobs" with
  | none => some none
  | some word => (integer? word).map some

------------------------------------------------------------
-- Commands
------------------------------------------------------------

/- The option for the manifest of a workspace. -/
def manifestOption : OptionSpec :=
  setting "--manifest-path" none

/- The manifest that was given for a workspace. -/
def manifestOf (arguments : Arguments) : Option Path :=
  arguments.path? "--manifest-path"

/- The only operand. -/
def oneOperand? (arguments : Arguments) : Option OsText :=
  match arguments.operands with
  | [word] => some word
  | _ => none

/- The only operand, or none at all. -/
def atMostOne? (arguments : Arguments) :
    Option (Option OsText) :=
  match arguments.operands with
  | [] => some none
  | [word] => some (some word)
  | _ => none

/- A command on the gist of a package. -/
def readGistCommand? (words : List OsText) :
    Option Command := do
  let arguments ← readArguments [] false words
  let name :: words := arguments.operands | none
  if name = ("clone" : OsText) then
    let arguments ←
      readArguments [manifestOption, setting "--path" none]
        true words
    let gistId ← oneOperand? arguments
    return .gistClone (textOf gistId)
      (arguments.path? "--path") (manifestOf arguments)
  else if name = ("pull" : OsText) then
    let arguments ← readArguments [manifestOption] true words
    let package ← oneOperand? arguments
    return .gistPull (textOf package) (manifestOf arguments)
  else if name = ("push" : OsText) then
    let arguments ←
      readArguments
        [manifestOption, switch "--set-upstream" (some 'u'),
          switch "--private" none,
          setting "--description" none]
        true words
    let package ← oneOperand? arguments
    let options : Sync.PushOptions :=
      { setUpstream := arguments.has "--set-upstream"
        isPrivate := arguments.has "--private"
        description :=
          (arguments.value? "--description").map textOf }
    return .gistPush (textOf package) options
      (manifestOf arguments)
  else
    none

/- A command on a path or a package of a workspace. -/
def readSimple?
    (make : OsText → Option Path → Command)
    (words : List OsText) : Option Command := do
  let arguments ← readArguments [manifestOption] true words
  let word ← oneOperand? arguments
  return make word (manifestOf arguments)

/- The command that makes a workspace. -/
def readInit? (words : List OsText) : Option Command := do
  let arguments ← readArguments [] true words
  let path ← atMostOne? arguments
  return .initWorkspace (Path.ofText (path.getD []))

/- The command that makes a package. -/
def readNew? (words : List OsText) : Option Command := do
  let arguments ←
    readArguments [manifestOption, setting "--name" none]
      true words
  let path ← oneOperand? arguments
  return .new (Path.ofText path) (arguments.value? "--name")
    (manifestOf arguments)

/- The command that imports a script. -/
def readImport? (words : List OsText) : Option Command := do
  let arguments ←
    readArguments [manifestOption, setting "--path" none]
      true words
  let file ← atMostOne? arguments
  return .import (file.map Path.ofText)
    (arguments.path? "--path") (manifestOf arguments)

/- What reads the words after the name of a command. -/
def readers :
    List (String × (List OsText → Option Command)) :=
  [("init-workspace", readInit?), ("new", readNew?),
    ("rm",
      readSimple? fun word manifest =>
        .remove (textOf word) manifest),
    ("include",
      readSimple? fun word manifest =>
        .include (Path.ofText word) manifest),
    ("exclude",
      readSimple? fun word manifest =>
        .exclude (Path.ofText word) manifest),
    ("import", readImport?),
    ("export",
      readSimple? fun word manifest =>
        .export (textOf word) manifest),
    ("gist", readGistCommand?)]

/- The command of some words. -/
def readCommand? : List OsText → Option Command
  | [] => none
  | name :: words => do
    let (_, reader) ←
      readers.find? fun (known, _) => (known : OsText) == name
    reader words

------------------------------------------------------------
-- Command Lines
------------------------------------------------------------

/- The options that come before a command. -/
def globalOptions : List OptionSpec :=
  [switch "--version" (some 'V'),
    switch "--verbose" (some 'v'),
    switch "--quiet" (some 'q'), setting "--color" none,
    switch "--dry-run" none, setting "--config" none]

/- What the program that manages workspaces is asked for. -/
def readManager?
    (config : Option Path)
    (words : List OsText) : Option Request := do
  let arguments ← readArguments globalOptions false words
  if arguments.has "--version" then
    return .showVersion false
  let color ← color? arguments
  let command ← readCommand? arguments.operands
  let globals : Globals :=
    { verbosity := arguments.count "--verbose"
      quiet := arguments.has "--quiet"
      color
      dryRun := arguments.has "--dry-run"
      config := (arguments.path? "--config").or config }
  return .manage globals command

/- The options of the program that runs a script. -/
def runnerOptions : List OptionSpec :=
  [setting "--jobs" (some 'j'), setting "--bin" none,
    switch "--release" none, setting "--profile" none,
    setting "--features" none, switch "--all-features" none,
    switch "--no-default-features" none,
    setting "--target" none, setting "--message-format" none,
    switch "--verbose" (some 'v'), switch "--frozen" none,
    switch "--locked" none, switch "--offline" none,
    manifestOption, setting "--color" none,
    setting "--config" none, switch "--version" (some 'V')]

/- How a script is built, with a number of jobs. -/
def runOptions
    (jobs : Option Int)
    (arguments : Arguments) : Cargo.RunOptions :=
  { jobs
    binary := arguments.value? "--bin"
    release := arguments.has "--release"
    profile := arguments.value? "--profile"
    features := arguments.values "--features"
    allFeatures := arguments.has "--all-features"
    noDefaultFeatures := arguments.has "--no-default-features"
    target := arguments.value? "--target"
    messageFormats := arguments.values "--message-format"
    verbosity := arguments.count "--verbose"
    frozen := arguments.has "--frozen"
    locked := arguments.has "--locked"
    offline := arguments.has "--offline" }

/- What the program that runs a script is asked for. -/
def readRunner?
    (config : Option Path)
    (words : List OsText) : Option Request := do
  let arguments ← readArguments runnerOptions true words
  if arguments.has "--version" then
    return .showVersion true
  let color ← color? arguments
  let jobs ← jobs? arguments
  let request : RunRequest :=
    { file := arguments.operands.head?.map Path.ofText
      arguments := arguments.operands.drop 1
      options := runOptions jobs arguments
      manifest := manifestOf arguments
      color
      config := (arguments.path? "--config").or config }
  return .runScript request

/-
  What a program is asked for. The path of the settings may
  be set from outside.
-/
def read?
    (program : Program)
    (config : Option Path)
    (words : List OsText) : Option Request :=
  match program with
  | .manager => readManager? config words
  | .runner => readRunner? config words
  | .cargoCommand => do
    let arguments ← readArguments [] false words
    let name :: words := arguments.operands | none
    if name = ("bikecase" : OsText) then
      readManager? config words
    else
      none

end CommandLine

end ScriptWorkspace
