import ScriptWorkspace.Session.Basic

/-
  Runs of operations that only ask the store of gists.

  What such an operation does is told by its exchanges: the
  requests that it sends, each with what came of it. The log
  grows, and all else in the session stays as it is.

  Main declarations:
    * `Exchange`
    * `Exchanges`
    * `Session.IsAfter`
    * `Action.perform_bind`
    * `Action.exists_of_perform_bind`
    * `Performs`
    * `Performs.bind_ok`
    * `Performs.bind_error`
-/

namespace ScriptWorkspace

------------------------------------------------------------
-- Exchanges
------------------------------------------------------------

/- A request that was sent, and what came of it. -/
structure Exchange where
  request : Request
  reply : Reply

variable {ω α β : Type}
variable {outside : Outside ω}

/-
  Requests that are sent one after another, with the worlds
  before the first and after the last of them.
-/
inductive Exchanges (outside : Outside ω) :
    ω → List Exchange → ω → Prop
  | none (world : ω) : Exchanges outside world [] world
  | next
      {world between after : ω}
      {request : Request}
      {reply : Reply}
      {exchanges : List Exchange}
      (hSend :
        outside.send request world = (reply, between))
      (hRest : Exchanges outside between exchanges after) :
      Exchanges outside world
        ({ request, reply } :: exchanges) after

theorem Exchanges.append
    {world between after : ω}
    {front back : List Exchange}
    (hFront : Exchanges outside world front between)
    (hBack : Exchanges outside between back after) :
    Exchanges outside world (front ++ back) after := by
  induction hFront with
  | none world => exact hBack
  | next hSend hRest ih => exact .next hSend (ih hBack)

/-
  A session after another one, where between the two only
  requests were sent and records added to the log.
-/
structure Session.IsAfter
    (outside : Outside ω)
    (session : Session ω)
    (exchanges : List Exchange)
    (after : Session ω) : Prop where
  worlds :
    Exchanges outside session.world exchanges after.world
  requests :
    after.requests =
      session.requests ++ exchanges.map Exchange.request
  log : session.log <+: after.log
  others :
    after =
      { session with
        world := after.world
        requests := after.requests
        log := after.log }

namespace Session.IsAfter

variable {session between after : Session ω}

theorem refl (session : Session ω) :
    session.IsAfter outside [] session :=
  { worlds := .none session.world
    requests := by simp
    log := List.prefix_refl session.log
    others := rfl }

theorem trans
    {front back : List Exchange}
    (hFront : session.IsAfter outside front between)
    (hBack : between.IsAfter outside back after) :
    session.IsAfter outside (front ++ back) after where
  worlds := hFront.worlds.append hBack.worlds
  requests := by
    rw [hBack.requests, hFront.requests, List.map_append,
      List.append_assoc]
  log := hFront.log.trans hBack.log
  others := by
    rw [hBack.others, hFront.others]

end Session.IsAfter

------------------------------------------------------------
-- Runs
------------------------------------------------------------

namespace Action

variable (outside : Outside ω) (session : Session ω)

@[simp] theorem perform_pure (result : α) :
    perform (pure result : Action ω α) outside session =
      (.ok result, session) :=
  rfl

@[simp] theorem perform_throw (failure : Failure) :
    perform (throw failure : Action ω α) outside session =
      (.error failure, session) :=
  rfl

theorem perform_ofExcept (computed : Except Failure α) :
    perform (ofExcept computed : Action ω α) outside session =
      (computed, session) := by
  cases computed with
  | ok result => rfl
  | error failure => rfl

/- What follows an operation runs only if it succeeded. -/
theorem perform_bind
    (action : Action ω α)
    (next : α → Action ω β) :
    (action >>= next).perform outside session =
      match action.perform outside session with
      | (.ok result, after) =>
        (next result).perform outside after
      | (.error failure, after) => (.error failure, after) := by
  simp only [perform, ReaderT.run_bind, ExceptT.run_bind,
    StateT.run_bind]
  rcases (action.run outside).run.run session with
    ⟨result, after⟩
  cases result with
  | ok result => rfl
  | error failure => rfl

theorem perform_bind_of_ok
    {outside : Outside ω}
    {session between : Session ω}
    {action : Action ω α}
    {result : α}
    (next : α → Action ω β)
    (hAction :
      action.perform outside session =
        (.ok result, between)) :
    (action >>= next).perform outside session =
      (next result).perform outside between := by
  rw [perform_bind, hAction]

/- An operation that succeeds does so step by step. -/
theorem exists_of_perform_bind
    {outside : Outside ω}
    {session : Session ω}
    {action : Action ω α}
    {next : α → Action ω β}
    {result : β}
    {done : Session ω}
    (hRun :
      (action >>= next).perform outside session =
        (.ok result, done)) :
    ∃ found between,
      action.perform outside session = (.ok found, between) ∧
        (next found).perform outside between =
          (.ok result, done) := by
  rw [perform_bind] at hRun
  cases hFirst : action.perform outside session with
  | mk found between =>
      rw [hFirst] at hRun
      cases found with
      | error failure => cases hRun
      | ok found => exact ⟨found, between, rfl, hRun⟩

/- A computation that ended has come to its result. -/
theorem eq_of_perform_ofExcept
    {outside : Outside ω}
    {session after : Session ω}
    {computed result : Except Failure α}
    (hRun :
      (ofExcept computed).perform outside session =
        (result, after)) :
    computed = result ∧ session = after := by
  rw [perform_ofExcept] at hRun
  exact Prod.mk.inj hRun

end Action

/-
  An operation comes to a result by some exchanges, and ends
  in the session that is after them.
-/
structure Performs
    (action : Action ω α)
    (outside : Outside ω)
    (session : Session ω)
    (exchanges : List Exchange)
    (result : Except Failure α)
    (after : Session ω) : Prop where
  run : action.perform outside session = (result, after)
  isAfter : session.IsAfter outside exchanges after

namespace Performs

variable {session between after : Session ω}
variable {front back : List Exchange}

theorem pure (result : α) :
    Performs (Pure.pure result : Action ω α) outside session
      [] (.ok result) session :=
  { run := Action.perform_pure outside session result
    isAfter := .refl session }

theorem throw (failure : Failure) :
    Performs (MonadExcept.throw failure : Action ω α) outside
      session [] (.error failure) session :=
  { run := Action.perform_throw outside session failure
    isAfter := .refl session }

/- An operation that succeeds, and what follows it. -/
theorem bind_ok
    {action : Action ω α}
    {next : α → Action ω β}
    {found : α}
    {result : Except Failure β}
    (hAction :
      Performs action outside session front (.ok found)
        between)
    (hNext :
      Performs (next found) outside between back result
        after) :
    Performs (action >>= next) outside session (front ++ back)
      result after where
  run := by
    rw [Action.perform_bind, hAction.run]
    exact hNext.run
  isAfter := hAction.isAfter.trans hNext.isAfter

/- An operation that fails ends what it is part of. -/
theorem bind_error
    {action : Action ω α}
    (next : α → Action ω β)
    {failure : Failure}
    (hAction :
      Performs action outside session front (.error failure)
        after) :
    Performs (action >>= next) outside session front
      (.error failure) after where
  run := by
    rw [Action.perform_bind, hAction.run]
  isAfter := hAction.isAfter

/- What follows an operation without exchanges. -/
theorem bind_quiet
    {action : Action ω α}
    {next : α → Action ω β}
    {found : α}
    {result : Except Failure β}
    (hAction :
      Performs action outside session [] (.ok found) between)
    (hNext :
      Performs (next found) outside between back result
        after) :
    Performs (action >>= next) outside session back result
      after :=
  hAction.bind_ok hNext

theorem ofExcept (result : Except Failure α) :
    Performs (Action.ofExcept result : Action ω α) outside
      session [] result session := by
  cases result with
  | ok found => exact .pure found
  | error failure => exact .throw failure

/- What follows the result of a computation. -/
theorem ofExcept_bind
    {computed : Except Failure α}
    {next : α → Action ω β}
    {result : α → Except Failure β}
    (hNext :
      ∀ found,
        Performs (next found) outside session [] (result found)
          session) :
    Performs (Action.ofExcept computed >>= next) outside
      session [] (computed.bind result) session := by
  cases computed with
  | ok found =>
      exact (ofExcept (.ok found)).bind_quiet (hNext found)
  | error failure =>
      exact (ofExcept (.error failure)).bind_error next

/- Adding a record to the log. -/
theorem logInfo
    (outside : Outside ω)
    (session : Session ω)
    (parts : List OsText) :
    ∃ after,
      Performs (Action.logInfo parts) outside session []
        (.ok ()) after := by
  refine ⟨_, rfl, ?_⟩
  exact
    { worlds := .none session.world
      requests := by simp
      log := List.prefix_append _ _
      others := rfl }

/- Sending a request. -/
theorem sendRequest
    (outside : Outside ω)
    (session : Session ω)
    (request : Request) :
    ∃ reply after,
      Performs (Action.sendRequest request) outside session
        [{ request, reply }] (.ok reply) after := by
  refine
    ⟨(outside.send request session.world).1,
      { session with
        world := (outside.send request session.world).2
        requests := session.requests ++ [request] },
      rfl, ?_⟩
  exact
    { worlds := .next rfl (.none _)
      requests := rfl
      log := List.prefix_refl session.log
      others := rfl }

/- Operations without exchanges, one for each entry. -/
theorem forIn_quiet
    (operation : α → Action ω Unit)
    (hQuiet :
      ∀ entry (session : Session ω),
        ∃ after,
          Performs (operation entry) outside session []
            (.ok ()) after)
    (entries : List α)
    (session : Session ω) :
    ∃ after,
      Performs
        (forIn entries () fun entry _ => do
          operation entry
          Pure.pure (ForInStep.yield ()))
        outside session [] (.ok ()) after := by
  induction entries generalizing session with
  | nil => exact ⟨session, .pure ()⟩
  | cons entry entries ih =>
      rcases hQuiet entry session with ⟨between, hEntry⟩
      rcases ih between with ⟨after, hEntries⟩
      refine ⟨after, ?_⟩
      rw [List.forIn_cons]
      refine bind_quiet (hEntry.bind_quiet (.pure _)) ?_
      exact hEntries

end Performs

end ScriptWorkspace
