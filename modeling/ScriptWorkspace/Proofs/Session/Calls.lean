import ScriptWorkspace.Proofs.Session.OnFiles
import ScriptWorkspace.Proofs.Session.OnlyAsks

/-
  Operations that do not call the build tool.

  Operations on files call nothing. Asking for metadata and
  running a package are one call each, and what comes of a
  run is the code that the call ended with.

  Main declarations:
    * `Action.CallsNothing`
    * `Action.CallsNothing.bind`
    * `Action.OnFiles.callsNothing`
    * `Cargo.calls_of_metadata`
    * `Cargo.perform_run`
-/

namespace ScriptWorkspace

open ScriptWorkspace.Action

variable {ω α β : Type}
variable {outside : Outside ω}

------------------------------------------------------------
-- Operations
------------------------------------------------------------

namespace Action

/- Wherever the operation begins, it calls nothing. -/
def CallsNothing
    (outside : Outside ω)
    (action : Action ω α) : Prop :=
  ∀ session : Session ω,
    (action.perform outside session).2.calls = session.calls

namespace CallsNothing

theorem of_onlyAsks
    {action : Action ω α}
    (hAsks : action.OnlyAsks outside) :
    action.CallsNothing outside :=
  fun session => (hAsks session).calls

/- What calls nothing adds nothing to the calls before it. -/
theorem calls_bind
    {action : Action ω α}
    {next : α → Action ω β}
    (session : Session ω)
    (hNext : ∀ result, (next result).CallsNothing outside) :
    ((action >>= next).perform outside session).2.calls =
      (action.perform outside session).2.calls := by
  rw [perform_bind]
  rcases action.perform outside session with
    ⟨result, between⟩
  cases result with
  | error failure => rfl
  | ok result => exact hNext result between

theorem bind
    {action : Action ω α}
    {next : α → Action ω β}
    (hAction : action.CallsNothing outside)
    (hNext : ∀ result, (next result).CallsNothing outside) :
    CallsNothing outside (action >>= next) := by
  intro session
  rw [calls_bind session hNext, hAction session]

end CallsNothing

/- No step of an operation on files is a call. -/
theorem OnFiles.callsNothing
    {action : Action ω α}
    (hFiles : action.OnFiles) :
    action.CallsNothing outside := by
  induction hFiles with
  | bind _ _ ihAction ihNext => exact .bind ihAction ihNext
  | pure result => exact fun _ => rfl
  | throw failure => exact fun _ => rfl
  | surroundings => exact fun _ => rfl
  | log level parts => exact fun _ => rfl
  | tree => exact fun _ => rfl
  | setTree tree => exact fun _ => rfl

end Action

------------------------------------------------------------
-- The Build Tool
------------------------------------------------------------

namespace Cargo

/- The build tool as it is found in the surroundings. -/
def programIn (outside : Outside ω) : OsText :=
  (outside.«variables».lookup ("CARGO" : Text)).getD
    ("cargo" : OsText)

/- The call that asks for the metadata of a workspace. -/
def asking
    (outside : Outside ω)
    (manifest : Option Path)
    (color : Text) : Invocation :=
  { command :=
      programIn outside ::
        metadataArguments color
          (manifest.map outside.directory.append)
    directory := some outside.directory
    timeout := some usualTimeout }

/- The call that runs a package. -/
def running
    (outside : Outside ω)
    (arguments : List OsText) : Invocation :=
  { command := programIn outside :: arguments
    directory := none
    timeout := none }

theorem perform_command
    (outside : Outside ω)
    (arguments : List OsText)
    (session : Session ω) :
    (command arguments).perform outside session =
      (.ok (programIn outside :: arguments), session) :=
  rfl

/- A session in which a command has been logged. -/
def announced
    (words : List OsText)
    (session : Session ω) : Session ω :=
  { session with
    log :=
      session.log ++
        [{ level := .info
           message :=
            ([Action.dryMark false, "Running `",
              commandLine words, "`"] : List OsText).flatten }] }

theorem perform_logCommand
    (outside : Outside ω)
    (words : List OsText)
    (session : Session ω) :
    (logCommand false words).perform outside session =
      (.ok (), announced words session) :=
  rfl

/- A session after a call, with what the call left. -/
def called
    (invocation : Invocation)
    (world : ω)
    (tree : Storage.Tree)
    (session : Session ω) : Session ω :=
  { session with
    world, tree
    calls := session.calls ++ [invocation] }

theorem perform_call
    {invocation : Invocation}
    {session : Session ω}
    {outcome : CallOutcome}
    {world : ω}
    {tree : Storage.Tree}
    (hCall :
      outside.call invocation session.world session.tree =
        (outcome, world, tree)) :
    (Action.call invocation).perform outside session =
      (.ok outcome, called invocation world tree session) := by
  have hRun :
      (Action.call invocation).perform outside session =
        (fun (left : CallOutcome × ω × Storage.Tree) =>
            (Except.ok left.1,
              called invocation left.2.1 left.2.2 session))
          (outside.call invocation session.world
            session.tree) :=
    rfl
  rw [hRun, hCall]

/- Asking for metadata is one call. -/
theorem calls_of_metadata
    (manifest : Option Path)
    (color : Text)
    (session : Session ω) :
    ((metadata manifest color outside.directory none).perform
        outside session).2.calls =
      session.calls ++ [asking outside manifest color] := by
  rw [metadata,
    perform_bind_of_ok _
      (perform_command outside _ session),
    perform_bind_of_ok _
      (perform_logCommand outside _ session)]
  -- The call is the only one, whatever is made of its outcome.
  refine CallsNothing.calls_bind _ fun outcome => ?_
  refine OnFiles.callsNothing ?_
  cases outcome with
  | notFound => exact .throw _
  | timedOut => exact .throw _
  | finished code output errorOutput =>
      dsimp only
      split
      · exact .throw_bind _ _
      · exact .ofExcept _

/- What comes of a run, by what came of its call. -/
def resultOf
    (call : Invocation) : CallOutcome → Except Failure Int
  | .finished code _ _ => .ok code
  | .notFound =>
    .error (.cargo (.commandNotFound (programOf call.command)))
  | .timedOut => .error (.unexpected .timedOut)

/- Running a package is one call, and ends as the call does. -/
theorem perform_run
    (outside : Outside ω)
    (arguments : List OsText)
    (session : Session ω) :
    ∃ outcome after,
      (run arguments none false false).perform outside
          session =
        (resultOf (running outside arguments) outcome,
          after) ∧
      outside.call (running outside arguments) session.world
          session.tree =
        (outcome, after.world, after.tree) ∧
      after.calls =
        session.calls ++ [running outside arguments] := by
  rcases hCall :
      outside.call (running outside arguments) session.world
        session.tree with
    ⟨outcome, world, tree⟩
  let begun :=
    announced (programIn outside :: arguments) session
  have hBegun :
      (Action.call (running outside arguments)).perform
          outside begun =
        (.ok outcome,
          called (running outside arguments) world tree
            begun) :=
    perform_call hCall
  refine
    ⟨outcome,
      called (running outside arguments) world tree begun, ?_,
      rfl, rfl⟩
  rw [run,
    perform_bind_of_ok _
      (perform_command outside arguments session),
    perform_bind_of_ok _
      (perform_logCommand outside _ session),
    if_neg Bool.false_ne_true]
  refine (perform_bind_of_ok _ hBegun).trans ?_
  cases outcome with
  | notFound => rfl
  | timedOut => rfl
  | finished code output errorOutput => rfl

end Cargo

end ScriptWorkspace
