import ScriptWorkspace.Proofs.Session.Perform

/-
  Operations that only ask the store of gists.

  Such an operation may log, read the input and write to the
  outputs, but it leaves the files as they are, calls nothing
  and sends no request but those that fetch. What follows one
  is another one, so it is enough to know the steps.

  Main declarations:
    * `Session.OnlyAsked`
    * `Session.OnlyAsked.trans`
    * `Session.KeepsStores`
    * `Session.OnlyAsked.keepsStores`
    * `Action.perform_tryCatch`
    * `Action.OnlyAsks`
    * `Action.OnlyAsks.bind`
    * `Action.OnlyAsks.forIn`
-/

namespace ScriptWorkspace

variable {ω α β : Type}
variable {outside : Outside ω}

------------------------------------------------------------
-- Sessions
------------------------------------------------------------

/-
  A session after another one, where between the two the files
  stayed, nothing was called and gists were only fetched.
-/
structure Session.OnlyAsked
    (outside : Outside ω)
    (session after : Session ω) : Prop where
  tree : after.tree = session.tree
  calls : after.calls = session.calls
  asked :
    ∃ exchanges,
      Exchanges outside session.world exchanges after.world ∧
        after.requests =
          session.requests ++ exchanges.map Exchange.request ∧
        ∀ exchange ∈ exchanges,
          exchange.request.method = "GET"

/-
  What the world keeps is the same, if fetching a gist does
  not change it.
-/
def Session.KeepsStores
    (outside : Outside ω)
    (session after : Session ω) : Prop :=
  ∀ (σ : Type) (store : ω → σ),
    (∀ (request : Request) (world : ω),
      request.method = "GET" →
        store (outside.send request world).2 = store world) →
    store after.world = store session.world

/- Exchanges that fetch keep what fetching keeps. -/
theorem Exchanges.store_eq
    {σ : Type}
    {store : ω → σ}
    {world after : ω}
    {exchanges : List Exchange}
    (hExchanges : Exchanges outside world exchanges after)
    (hStore :
      ∀ (request : Request) (world : ω),
        request.method = "GET" →
          store (outside.send request world).2 = store world)
    (hMethod :
      ∀ exchange ∈ exchanges,
        exchange.request.method = "GET") :
    store after = store world := by
  induction hExchanges with
  | none world => rfl
  | @next world between after request reply exchanges hSend
      hRest ih =>
      have hFirst : request.method = "GET" :=
        hMethod _ List.mem_cons_self
      have hKept := hStore request world hFirst
      rw [hSend] at hKept
      have hTail :
          ∀ exchange ∈ exchanges,
            exchange.request.method = "GET" :=
        fun exchange hMem =>
          hMethod exchange (List.mem_cons_of_mem _ hMem)
      rw [ih hTail, hKept]

namespace Session.OnlyAsked

variable {session between after : Session ω}

/- Sessions that differ in nothing that is watched. -/
theorem of_eq
    (hTree : after.tree = session.tree)
    (hCalls : after.calls = session.calls)
    (hWorld : after.world = session.world)
    (hRequests : after.requests = session.requests) :
    session.OnlyAsked outside after where
  tree := hTree
  calls := hCalls
  asked := by
    refine ⟨[], ?_, ?_, List.forall_mem_nil _⟩
    · rw [hWorld]
      exact .none session.world
    · rw [hRequests, List.map_nil, List.append_nil]

theorem refl (session : Session ω) :
    session.OnlyAsked outside session :=
  of_eq rfl rfl rfl rfl

theorem trans
    (hFront : session.OnlyAsked outside between)
    (hBack : between.OnlyAsked outside after) :
    session.OnlyAsked outside after := by
  rcases hFront.asked with
    ⟨front, hWorld, hRequests, hMethod⟩
  rcases hBack.asked with
    ⟨back, hWorldBack, hRequestsBack, hMethodBack⟩
  constructor
  case tree => rw [hBack.tree, hFront.tree]
  case calls => rw [hBack.calls, hFront.calls]
  case asked =>
    refine
      ⟨front ++ back, hWorld.append hWorldBack, ?_, ?_⟩
    · rw [hRequestsBack, hRequests, List.map_append,
        List.append_assoc]
    · intro exchange hMem
      rcases List.mem_append.mp hMem with hMem | hMem
      · exact hMethod exchange hMem
      · exact hMethodBack exchange hMem

/- Exchanges that only fetch. -/
theorem of_isAfter
    {exchanges : List Exchange}
    (hAfter : session.IsAfter outside exchanges after)
    (hMethod :
      ∀ exchange ∈ exchanges,
        exchange.request.method = "GET") :
    session.OnlyAsked outside after where
  tree := by rw [hAfter.others]
  calls := by rw [hAfter.others]
  asked :=
    ⟨exchanges, hAfter.worlds, hAfter.requests, hMethod⟩

theorem keepsStores
    (hAsked : session.OnlyAsked outside after) :
    session.KeepsStores outside after := by
  intro σ store hStore
  rcases hAsked.asked with
    ⟨exchanges, hWorld, hRequests, hMethod⟩
  exact hWorld.store_eq hStore hMethod

end Session.OnlyAsked

------------------------------------------------------------
-- Operations
------------------------------------------------------------

namespace Action

/- A failure is handled in the session that it left. -/
theorem perform_tryCatch
    (outside : Outside ω)
    (session : Session ω)
    (action : Action ω α)
    (handler : Failure → Action ω α) :
    (tryCatch action handler : Action ω α).perform outside
        session =
      match action.perform outside session with
      | (.ok result, after) => (.ok result, after)
      | (.error failure, after) =>
        (handler failure).perform outside after := by
  have hRun :
      ReaderT.run (tryCatch action handler) outside =
        tryCatch (action.run outside) fun failure =>
          (handler failure).run outside :=
    rfl
  simp only [perform, hRun, ExceptT.run_tryCatch,
    StateT.run_bind]
  rcases (action.run outside).run.run session with
    ⟨result, after⟩
  cases result with
  | ok result => rfl
  | error failure => rfl

/- Wherever the operation begins, it only asks. -/
def OnlyAsks
    (outside : Outside ω)
    (action : Action ω α) : Prop :=
  ∀ session : Session ω,
    session.OnlyAsked outside (action.perform outside session).2

namespace OnlyAsks

/- An operation that leaves the session as it is. -/
theorem of_same
    {action : Action ω α}
    (hSame :
      ∀ session, (action.perform outside session).2 = session) :
    action.OnlyAsks outside := by
  intro session
  rw [hSame session]
  exact .refl session

theorem pure (result : α) :
    OnlyAsks outside (Pure.pure result : Action ω α) :=
  of_same fun _ => rfl

theorem throw (failure : Failure) :
    OnlyAsks outside
      (MonadExcept.throw failure : Action ω α) :=
  of_same fun _ => rfl

theorem bind
    {action : Action ω α}
    {next : α → Action ω β}
    (hAction : action.OnlyAsks outside)
    (hNext : ∀ result, (next result).OnlyAsks outside) :
    OnlyAsks outside (action >>= next) := by
  intro session
  have hFirst := hAction session
  rw [perform_bind]
  cases hRun : action.perform outside session with
  | mk result between =>
      rw [hRun] at hFirst
      cases result with
      | error failure => exact hFirst
      | ok result => exact hFirst.trans (hNext result between)

/- A result that is made of the one of an operation. -/
theorem bind_pure
    {action : Action ω α}
    {make : α → β}
    (hAction : action.OnlyAsks outside) :
    OnlyAsks outside
      (action >>= fun result => Pure.pure (make result)) :=
  .bind hAction fun result => .pure (make result)

/- Nothing follows a failure. -/
theorem throw_bind
    (failure : Failure)
    (next : α → Action ω β) :
    OnlyAsks outside (MonadExcept.throw failure >>= next) :=
  of_same fun _ => rfl

/- A step for each entry. -/
theorem forIn
    {entries : List α}
    {state : β}
    {step : α → β → Action ω (ForInStep β)}
    (hStep :
      ∀ entry state, (step entry state).OnlyAsks outside) :
    OnlyAsks outside (ForIn.forIn entries state step) := by
  induction entries generalizing state with
  | nil => exact .pure state
  | cons entry entries ih =>
      rw [List.forIn_cons]
      refine .bind (hStep entry state) fun next => ?_
      cases next with
      | done state => exact .pure state
      | yield state => exact ih

theorem ofExcept (result : Except Failure α) :
    OnlyAsks outside (Action.ofExcept result : Action ω α) := by
  cases result with
  | ok found => exact .pure found
  | error failure => exact .throw failure

/- An operation whose exchanges only fetch. -/
theorem of_performs
    {action : Action ω α}
    (hPerforms :
      ∀ session, ∃ (exchanges : List Exchange),
        ∃ result after,
        (∀ exchange ∈ exchanges,
          exchange.request.method = "GET") ∧
        Performs action outside session exchanges result
          after) :
    action.OnlyAsks outside := by
  intro session
  rcases hPerforms session with
    ⟨exchanges, result, after, hMethod, hRun⟩
  rw [hRun.run]
  exact .of_isAfter hRun.isAfter hMethod

------------------------------------------------------------
-- Single Steps
------------------------------------------------------------

theorem log (level : Level) (parts : List OsText) :
    OnlyAsks outside (Action.log level parts) :=
  fun _ => .of_eq rfl rfl rfl rfl

theorem logInfo (parts : List OsText) :
    OnlyAsks outside (Action.logInfo parts) :=
  log .info parts

theorem logDebug (parts : List OsText) :
    OnlyAsks outside (Action.logDebug parts) :=
  log .debug parts

theorem write (text : Text) :
    OnlyAsks outside (Action.write text) :=
  fun _ => .of_eq rfl rfl rfl rfl

theorem writeError (text : Text) :
    OnlyAsks outside (Action.writeError text) :=
  fun _ => .of_eq rfl rfl rfl rfl

theorem setInput (text : Text) :
    OnlyAsks outside (Action.setInput text) :=
  fun _ => .of_eq rfl rfl rfl rfl

theorem surroundings :
    OnlyAsks outside (read : Action ω (Outside ω)) :=
  of_same fun _ => rfl

theorem environment (name : Text) :
    OnlyAsks outside (Action.environment name) :=
  of_same fun _ => rfl

theorem directory :
    OnlyAsks outside (Action.directory (ω := ω)) :=
  of_same fun _ => rfl

theorem tree : OnlyAsks outside (Action.tree (ω := ω)) :=
  of_same fun _ => rfl

theorem requireUsable (path : Path) :
    OnlyAsks outside (Action.requireUsable path) := by
  unfold Action.requireUsable
  split
  · exact .throw _
  · exact .pure ()

theorem remainingInput :
    OnlyAsks outside (Action.remainingInput (ω := ω)) := by
  apply of_same
  rintro ⟨tree, world, input, log, calls, requests, out, err⟩
  cases input with
  | ok text => rfl
  | error fault => rfl

theorem readInput :
    OnlyAsks outside (Action.readInput (ω := ω)) :=
  .bind .remainingInput fun text =>
    .bind (.setInput []) fun _ => .pure text

end OnlyAsks

end Action

end ScriptWorkspace
