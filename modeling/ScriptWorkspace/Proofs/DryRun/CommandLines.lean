import ScriptWorkspace.Proofs.CommandLine.Reading
import ScriptWorkspace.Proofs.DryRun.Commands

/-
  Command lines that ask for a dry run.

  The option is global: it stands before the command, and is
  handed to it with the other global options. Whatever the
  command is, and wherever it fails, its run asks the build
  tool for metadata and the store of gists for gists, and
  does no more than that.

  Main declarations:
    * `CommandLine.AsksForDryRun`
    * `CommandLine.asksForDryRun_cons`
    * `CommandLine.AsksForDryRun.isForDryRun`
    * `CommandLine.dry_run_changes_nothing`
-/

namespace ScriptWorkspace

namespace CommandLine

open ScriptWorkspace.Action

variable {ω : Type}
variable {outside : Outside ω}

------------------------------------------------------------
-- Reading
------------------------------------------------------------

/-
  A command line asks for a dry run: the option is among
  those before the command, if these can be read at all.
-/
inductive AsksForDryRun : Program → List OsText → Prop
  | manager
      {words : List OsText}
      (hOption :
        ∀ arguments,
          readArguments globalOptions false words =
              some arguments →
            arguments.has "--dry-run" = true) :
      AsksForDryRun .manager words
  | cargoCommand
      {words : List OsText}
      (hRest : AsksForDryRun .manager words) :
      AsksForDryRun .cargoCommand ("bikecase" :: words)

/- The option may come first. -/
theorem asksForDryRun_cons (words : List OsText) :
    AsksForDryRun .manager ("--dry-run" :: words) := by
  refine .manager fun arguments hRead => ?_
  rw [readArguments,
    readFrom_option false _ words (by decide) (by decide) rfl]
    at hRead
  rcases Option.map_eq_some_iff.mp hRead with
    ⟨others, hOthers, rfl⟩
  rfl

/- Nothing is to be changed by what is asked for. -/
def Request.IsForDryRun : Request → Prop
  | .showVersion _ => True
  | .manage globals _ => globals.dryRun = true
  | .runScript _ => False

/- The option reaches the command with the other ones. -/
theorem AsksForDryRun.isForDryRun
    {program : Program}
    {words : List OsText}
    {config : Option Path}
    {request : Request}
    (hAsks : AsksForDryRun program words)
    (hRead : read? program config words = some request) :
    request.IsForDryRun := by
  induction hAsks with
  | @manager words hOption =>
      simp only [read?, readManager?, Option.bind_eq_bind,
        Option.bind_eq_some_iff] at hRead
      rcases hRead with ⟨arguments, hArguments, hRead⟩
      have hDry := hOption arguments hArguments
      split at hRead
      · cases hRead
        exact trivial
      · simp only [Option.bind_eq_some_iff] at hRead
        rcases hRead with ⟨color, _, command, _, hRead⟩
        cases hRead
        exact hDry
  | @cargoCommand words hRest ih =>
      have hName :
          readArguments [] false ("bikecase" :: words) =
            some
              { given := []
                operands := "bikecase" :: words } :=
        readFrom_operand [] _ words (by decide) (by decide)
      simp only [read?, hName, Option.bind_eq_bind,
        Option.bind_some, ↓reduceIte] at hRead
      exact ih hRead

------------------------------------------------------------
-- Carrying Out
------------------------------------------------------------

theorem isDry_reported
    {action : Action ω ExitCode}
    (hAction : action.IsDry outside) :
    IsDry outside (reported action) :=
  .tryCatch hAction fun _ =>
    .bind_pure (.writeError _)

theorem Request.IsForDryRun.isDry_perform
    {request : Request}
    (hDry : request.IsForDryRun) :
    IsDry outside request.perform := by
  cases request with
  | showVersion runner =>
      exact .of_onlyAsks (.bind_pure (.write _))
  | manage globals command =>
      have hGlobals : globals.dry = globals := by
        cases globals
        cases hDry
        rfl
      have hCommand :
          IsDry outside (command.perform globals.dry) :=
        command.isDry_perform globals
      rw [hGlobals] at hCommand
      exact isDry_reported (.bind hCommand fun _ => .pure _)
  | runScript request => exact hDry.elim

/- A failure is reported, and ends the program with a code. -/
theorem reported_code
    (outside : Outside ω)
    (session : Session ω)
    (action : Action ω Unit) :
    ∃ code ∈ [ExitCode.success, .failure],
      ((reported do action; return .success).perform outside
          session).1 =
        .ok code := by
  rw [reported, perform_tryCatch, perform_bind]
  rcases action.perform outside session with
    ⟨result, after⟩
  cases result with
  | ok done =>
      exact ⟨.success, List.mem_cons_self, rfl⟩
  | error failure =>
      exact ⟨.failure, by simp, rfl⟩

/- A dry run always ends with a code. -/
theorem Request.IsForDryRun.code
    {request : Request}
    (outside : Outside ω)
    (session : Session ω)
    (hDry : request.IsForDryRun) :
    ∃ code ∈ [ExitCode.success, .failure],
      (request.perform.perform outside session).1 =
        .ok code := by
  cases request with
  | showVersion runner =>
      exact ⟨.success, List.mem_cons_self, rfl⟩
  | manage globals command =>
      exact reported_code outside session _
  | runScript request => exact hDry.elim

/- What is asked for depends on the environment at most. -/
theorem perform_request?
    (outside : Outside ω)
    (program : Program)
    (words : List OsText) :
    ∃ config, ∀ session,
      (request? program words).perform outside session =
        (.ok (read? program config words), session) :=
  ⟨_, fun _ => rfl⟩

/-
  A dry run ends with a code, and whatever that is, the files
  are as they were, but for what the build tool does when it
  is asked for metadata, which is its only call; and nothing
  is sent to the store of gists but to fetch one. The tree of
  files is one without links.
-/
theorem dry_run_changes_nothing
    (outside : Outside ω)
    (session : Session ω)
    {program : Program}
    {words : List OsText}
    (hAsks : AsksForDryRun program words) :
    ∃ code after,
      (do carryOut (← request? program words) :
            Action ω ExitCode).perform outside session =
          (.ok code, after) ∧
        code ∈ [ExitCode.success, .failure, .usage] ∧
        (after.tree = session.tree ∧
            after.calls = session.calls ∨
          ∃ invocation : Invocation,
            outside.AsksMetadata invocation ∧
              after.calls = session.calls ++ [invocation] ∧
              after.tree =
                (outside.call invocation session.world
                  session.tree).2.2) ∧
        ∃ requests,
          after.requests = session.requests ++ requests ∧
            ∀ request ∈ requests,
              request.method = "GET" := by
  rcases perform_request? outside program words with
    ⟨config, hRequest⟩
  rw [perform_bind, hRequest session]
  cases hRead : read? program config words with
  | none =>
      exact
        ⟨.usage, session, rfl, by simp, .inl ⟨rfl, rfl⟩,
          [], by simp, List.forall_mem_nil _⟩
  | some request =>
      have hDry := hAsks.isForDryRun hRead
      rcases hDry.code outside session with
        ⟨code, hCode, hResult⟩
      have hAfter :
          session.IsDryAfter outside
            (request.perform.perform outside session).2 :=
        hDry.isDry_perform session
      refine
        ⟨code, (request.perform.perform outside session).2,
          Prod.ext hResult rfl, ?_, hAfter.tree_calls,
          hAfter.requests⟩
      exact List.mem_append_left [.usage] hCode

/- A build tool that knows an empty workspace. -/
def surroundings : Outside Unit :=
  { home := Path.ofText "/home"
    directory := Path.ofText "/work"
    «variables» := []
    call := fun _ world tree =>
      (.finished 0
          (Template.lines
            ["\x7b\"packages\": [],",
              "\"workspace_members\": [],",
              "\"workspace_root\": \"/work\",",
              "\"resolve\": null\x7d"])
          "",
        world, tree)
    send := fun _ world => (.failure "ConnectError", world) }

/- A workspace without members. -/
def start : Session Unit :=
  .start
    ⟨[(["work"], .directory),
      (["work", "Cargo.toml"],
        .file (.text "[workspace]\nmembers = []\n"))]⟩
    ()

/- A package that would become a member stays outside. -/
theorem member_not_included_by_dry_run :
    AsksForDryRun .manager ["--dry-run", "include", "a"] ∧
      ∃ after,
        (do carryOut
              (← request? .manager
                ["--dry-run", "include", "a"]) :
              Action Unit ExitCode).perform surroundings
            start =
          (.ok .success, after) ∧
        after.tree = start.tree := by
  have hAsks := asksForDryRun_cons ["include", "a"]
  have hCode :
      ((do carryOut
              (← request? .manager
                ["--dry-run", "include", "a"]) :
              Action Unit ExitCode).perform surroundings
            start).1.toOption =
        some .success := by
    decide +kernel
  rcases dry_run_changes_nothing surroundings start hAsks with
    ⟨code, after, hRun, _, hTree, _⟩
  rw [hRun] at hCode
  cases hCode
  refine ⟨hAsks, after, hRun, ?_⟩
  rcases hTree with ⟨hTree, _⟩ | ⟨_, _, _, hTree⟩
  · exact hTree
  · exact hTree

end CommandLine

end ScriptWorkspace
