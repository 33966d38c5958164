import ScriptWorkspace.Proofs.Session.OnFiles
import ScriptWorkspace.Proofs.Session.Perform

/-
  Operations that leave the input alone.

  Such an operation comes to the same whatever is left of the
  input, and leaves just that. What follows one is another
  one. So it is with operations on files, and with calls of
  the build tool.

  Main declarations:
    * `Session.withInput`
    * `Action.IgnoresInput`
    * `Action.IgnoresInput.bind`
    * `Action.OnFiles.ignoresInput`
    * `Cargo.ignoresInput_run`
-/

namespace ScriptWorkspace

variable {ω α β : Type}
variable {outside : Outside ω}

/- The session with another input. -/
def Session.withInput
    (session : Session ω)
    (input : Except Utf8.Fault Text) : Session ω :=
  { session with input }

------------------------------------------------------------
-- Operations
------------------------------------------------------------

namespace Action

/- The operation does the same for every input, and keeps it. -/
def IgnoresInput
    (outside : Outside ω)
    (action : Action ω α) : Prop :=
  ∀ (session : Session ω) (input : Except Utf8.Fault Text),
    action.perform outside (session.withInput input) =
      ((action.perform outside session).1,
        (action.perform outside session).2.withInput input)

namespace IgnoresInput

/- The input is left as it was. -/
theorem input_eq
    {action : Action ω α}
    (hAction : action.IgnoresInput outside)
    (session : Session ω) :
    (action.perform outside session).2.input =
      session.input :=
  congrArg (fun run => run.2.input)
    (hAction session session.input)

theorem bind
    {action : Action ω α}
    {next : α → Action ω β}
    (hAction : action.IgnoresInput outside)
    (hNext : ∀ result, (next result).IgnoresInput outside) :
    IgnoresInput outside (action >>= next) := by
  intro session input
  rw [perform_bind, perform_bind, hAction session input]
  rcases action.perform outside session with
    ⟨result, between⟩
  cases result with
  | error failure => rfl
  | ok result => exact hNext result between input

theorem call (invocation : Invocation) :
    IgnoresInput outside (Action.call invocation) :=
  fun _ _ => rfl

theorem writeError (text : Text) :
    IgnoresInput outside (Action.writeError text) :=
  fun _ _ => rfl

end IgnoresInput

/- No step of an operation on files concerns the input. -/
theorem OnFiles.ignoresInput
    {action : Action ω α}
    (hFiles : action.OnFiles) :
    action.IgnoresInput outside := by
  induction hFiles with
  | bind _ _ ihAction ihNext => exact .bind ihAction ihNext
  | pure result => exact fun _ _ => rfl
  | throw failure => exact fun _ _ => rfl
  | surroundings => exact fun _ _ => rfl
  | log level parts => exact fun _ _ => rfl
  | tree => exact fun _ _ => rfl
  | setTree tree => exact fun _ _ => rfl

/- Operations on files come before another operation. -/
theorem OnFiles.ignoresInput_bind
    {action : Action ω α}
    {next : α → Action ω β}
    (hFiles : action.OnFiles)
    (hNext : ∀ result, (next result).IgnoresInput outside) :
    IgnoresInput outside (action >>= next) :=
  .bind hFiles.ignoresInput hNext

end Action

open ScriptWorkspace.Action

------------------------------------------------------------
-- Calls Of The Build Tool
------------------------------------------------------------

namespace Cargo

theorem ignoresInput_metadata
    (manifest : Option Path)
    (color : Text)
    (directory : Path)
    (timeout : Option Int) :
    IgnoresInput outside
      (metadata manifest color directory timeout) := by
  refine
    (onFiles_command _).ignoresInput_bind fun words =>
      (OnFiles.logInfo _).ignoresInput_bind fun _ =>
        .bind (.call _) fun outcome => ?_
  refine OnFiles.ignoresInput ?_
  cases outcome with
  | notFound => exact .throw _
  | timedOut => exact .throw _
  | finished code output errorOutput =>
      dsimp only
      split
      · exact .throw_bind _ _
      · exact .ofExcept _

theorem ignoresInput_run
    (arguments : List OsText)
    (directory : Option Path)
    (mustSucceed dryRun : Bool) :
    IgnoresInput outside
      (run arguments directory mustSucceed dryRun) := by
  refine
    (onFiles_command _).ignoresInput_bind fun words =>
      (OnFiles.logInfo _).ignoresInput_bind fun _ => ?_
  split
  · exact (OnFiles.pure _).ignoresInput
  · refine .bind (.call _) fun outcome => ?_
    refine OnFiles.ignoresInput ?_
    cases outcome with
    | notFound => exact .throw _
    | timedOut => exact .throw _
    | finished code output errorOutput =>
        dsimp only
        split
        · exact .throw_bind _ _
        · exact .pure _

end Cargo

end ScriptWorkspace
