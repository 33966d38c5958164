import ScriptWorkspace.Failure.Basic
import ScriptWorkspace.Json.Value
import ScriptWorkspace.Session.Log
import ScriptWorkspace.Storage.Calls

/-
  Sessions: what operations act on, and what they leave.

  An operation reads and changes a tree of files, calls the
  build tool, sends requests to the store of gists and keeps
  a log. The build tool and the store are given from outside,
  as functions of a state of the world of which nothing else
  is known. An operation that fails keeps what it did before.

  Key definitions include:
    * `Invocation`
    * `Request`
    * `Outside`
    * `Session`
    * `Action`
    * `Action.perform`
    * `Action.logInfo`
    * `Action.call`
    * `Action.sendRequest`
-/

namespace ScriptWorkspace

------------------------------------------------------------
-- The Outside
------------------------------------------------------------

/- A call of the build tool. -/
structure Invocation where
  command : List OsText
  directory : Option Path
  timeout : Option Int
deriving DecidableEq, Repr

/- What comes of a call of the build tool. -/
inductive CallOutcome
  | finished (code : Int) (output errorOutput : Text)
  | notFound
  | timedOut
deriving DecidableEq, Repr

/- A request to the store of gists. -/
structure Request where
  method : Text
  url : Text
  token : Option Text
  payload : Option Json
deriving Repr

/- What comes of a request. -/
inductive Reply
  | answer (status : Nat) (body : Text)
  | failure (kind : Text)
deriving DecidableEq, Repr

/-
  What is given from outside: the home directory and the
  working directory, the variables of the environment, and
  how the build tool and the store of gists behave.
-/
structure Outside (ω : Type) where
  home : Path
  directory : Path
  «variables» : List (Text × OsText)
  call :
    Invocation →
    ω →
    Storage.Tree →
    CallOutcome × ω × Storage.Tree
  send : Request → ω → Reply × ω

------------------------------------------------------------
-- Sessions
------------------------------------------------------------

/-
  What operations act on: the files, the world, the lines of
  the input that are left; and what they leave behind: the
  log, the calls and requests made, and what is written to
  the two outputs.
-/
structure Session (ω : Type) where
  tree : Storage.Tree
  world : ω
  input : Except Utf8.Fault Text
  log : List LogRecord
  calls : List Invocation
  requests : List Request
  output : Text
  errorOutput : Text

/- A session in which nothing has been done. -/
def Session.start
    {ω : Type}
    (tree : Storage.Tree)
    (world : ω) : Session ω :=
  { tree, world, input := .ok [], log := [], calls := [],
    requests := [], output := [], errorOutput := [] }

/- An operation with a result. -/
abbrev Action (ω : Type) :=
  ReaderT (Outside ω)
    (ExceptT Failure (StateM (Session ω)))

namespace Action

variable {ω : Type}

/- The result of an operation, and the session after it. -/
def perform
    {α : Type}
    (action : Action ω α)
    (outside : Outside ω)
    (session : Session ω) :
    Except Failure α × Session ω :=
  (action.run outside).run.run session

/- The operation that does nothing but give a result. -/
def ofExcept {α : Type} : Except Failure α → Action ω α
  | .ok result => return result
  | .error failure => throw failure

------------------------------------------------------------
-- Logging
------------------------------------------------------------

/- Add a record to the log. -/
def log
    (level : Level)
    (parts : List OsText) : Action ω Unit :=
  modify fun session =>
    { session with
      log :=
        session.log ++ [{ level, message := parts.flatten }] }

/- Add a record of what was done. -/
def logInfo (parts : List OsText) : Action ω Unit :=
  log .info parts

/- Add a record of a detail. -/
def logDebug (parts : List OsText) : Action ω Unit :=
  log .debug parts

/- What stands in front of a record of a dry run. -/
def dryMark (dryRun : Bool) : OsText :=
  if dryRun then "[dry-run] " else ""

------------------------------------------------------------
-- Calls And Requests
------------------------------------------------------------

/- Call the build tool. -/
def call (invocation : Invocation) : Action ω CallOutcome := do
  let outside ← read
  let session ← get
  let (outcome, world, tree) :=
    outside.call invocation session.world session.tree
  set
    { session with
      world, tree
      calls := session.calls ++ [invocation] }
  return outcome

/- Send a request to the store of gists. -/
def sendRequest (request : Request) : Action ω Reply := do
  let outside ← read
  let session ← get
  let (reply, world) := outside.send request session.world
  set
    { session with
      world
      requests := session.requests ++ [request] }
  return reply

------------------------------------------------------------
-- Input And Output
------------------------------------------------------------

/- Write a text to the output. -/
def write (text : Text) : Action ω Unit :=
  modify fun session =>
    { session with output := session.output ++ text }

/- Write a text to the output for messages. -/
def writeError (text : Text) : Action ω Unit :=
  modify fun session =>
    { session with
      errorOutput := session.errorOutput ++ text }

/- What is left of the input. -/
def remainingInput : Action ω Text := do
  match (← get).input with
  | .ok text => return text
  | .error fault => throw (.unexpected (.encoding fault))

/- Put another text in the place of what is left to read. -/
def setInput (text : Text) : Action ω Unit :=
  modify fun session => { session with input := .ok text }

/- All that is left of the input, which is read then. -/
def readInput : Action ω Text := do
  let text ← remainingInput
  setInput []
  return text

/- The lines of an input, where each end is a line feed. -/
def plainLineEnds : Text → Text
  | '\r' :: '\n' :: rest => '\n' :: plainLineEnds rest
  | '\r' :: rest => '\n' :: plainLineEnds rest
  | c :: rest => c :: plainLineEnds rest
  | [] => []

/- The input that some bytes are. -/
def inputOf (bytes : List UInt8) : Except Utf8.Fault Text :=
  (Utf8.decode bytes).map plainLineEnds

------------------------------------------------------------
-- Surroundings
------------------------------------------------------------

/- A variable of the environment, if it is set. -/
def environment (name : Text) : Action ω (Option OsText) := do
  return (← read).«variables».lookup name

/- The location of the working directory. -/
def directory : Action ω Storage.Location := do
  return (← read).directory.names

/- The tree of files. -/
def tree : Action ω Storage.Tree := do
  return (← get).tree

/- Put another tree of files in the place of the old one. -/
def setTree (tree : Storage.Tree) : Action ω Unit :=
  modify fun session => { session with tree }

/- A path with a null character cannot be used at all. -/
def requireUsable (path : Path) : Action ω Unit :=
  if path.names.any (·.any (· == .char '\x00')) then
    throw (.unexpected .pathWithNull)
  else
    pure ()

end Action

end ScriptWorkspace
