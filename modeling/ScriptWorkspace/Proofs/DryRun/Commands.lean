import ScriptWorkspace.CommandLine.Execution
import ScriptWorkspace.Proofs.DryRun.Steps

/-
  Commands that are run dry.

  Most commands begin by asking the build tool for the
  metadata of the workspace, which is the only call of a dry
  run. The tool may change what it likes; what comes before
  and after only asks.

  Main declarations:
    * `Session.IsDryAfter`
    * `Action.IsDry`
    * `Action.IsDry.bind`
    * `Cargo.isDry_metadata`
    * `CommandLine.Command.isDry_perform`
-/

namespace ScriptWorkspace

open ScriptWorkspace.Action

variable {ω α β : Type}
variable {outside : Outside ω}

------------------------------------------------------------
-- Sessions
------------------------------------------------------------

/- The session after a call of the build tool. -/
def Session.afterCall
    (outside : Outside ω)
    (session : Session ω)
    (invocation : Invocation) : Session ω :=
  let (_, world, tree) :=
    outside.call invocation session.world session.tree
  { session with
    world, tree
    calls := session.calls ++ [invocation] }

/- The build tool is asked for the metadata of a workspace. -/
def Outside.AsksMetadata
    (outside : Outside ω)
    (invocation : Invocation) : Prop :=
  ∃ color manifest,
    invocation.command =
      (outside.«variables».lookup ("CARGO" : Text)).getD
          ("cargo" : OsText) ::
        Cargo.metadataArguments color manifest

/-
  A session after a dry run: at first the build tool may have
  been asked for metadata, and nothing else was changed.
-/
inductive Session.IsDryAfter
    (outside : Outside ω)
    (session after : Session ω) : Prop
  | uncalled (hAsked : session.OnlyAsked outside after)
  | called
      {invocation : Invocation}
      (hMetadata : outside.AsksMetadata invocation)
      (hAsked :
        (session.afterCall outside invocation).OnlyAsked
          outside after)

theorem Session.IsDryAfter.trans
    {session between after : Session ω}
    (hDry : session.IsDryAfter outside between)
    (hAsked : between.OnlyAsked outside after) :
    session.IsDryAfter outside after := by
  cases hDry with
  | uncalled hFirst => exact .uncalled (hFirst.trans hAsked)
  | called hMetadata hFirst =>
      exact .called hMetadata (hFirst.trans hAsked)

/- What is not watched may differ before. -/
theorem Session.IsDryAfter.of_eq
    {session between after : Session ω}
    (hDry : between.IsDryAfter outside after)
    (hTree : between.tree = session.tree)
    (hCalls : between.calls = session.calls)
    (hWorld : between.world = session.world)
    (hRequests : between.requests = session.requests) :
    session.IsDryAfter outside after := by
  cases hDry with
  | uncalled hAsked =>
      have hFirst : session.OnlyAsked outside between :=
        .of_eq hTree hCalls hWorld hRequests
      exact .uncalled (hFirst.trans hAsked)
  | @called invocation hMetadata hAsked =>
      have hFirst :
          (session.afterCall outside invocation).OnlyAsked
            outside
            (between.afterCall outside invocation) := by
        refine .of_eq ?_ ?_ ?_ hRequests
        · simp only [afterCall, hTree, hWorld]
        · simp only [afterCall, hCalls]
        · simp only [afterCall, hTree, hWorld]
      exact .called hMetadata (hFirst.trans hAsked)

/- The files change only if the build tool changes them. -/
theorem Session.IsDryAfter.tree_calls
    {session after : Session ω}
    (hDry : session.IsDryAfter outside after) :
    after.tree = session.tree ∧
        after.calls = session.calls ∨
      ∃ invocation : Invocation,
        outside.AsksMetadata invocation ∧
          after.calls = session.calls ++ [invocation] ∧
          after.tree =
            (outside.call invocation session.world
              session.tree).2.2 := by
  cases hDry with
  | uncalled hAsked =>
      exact .inl ⟨hAsked.tree, hAsked.calls⟩
  | @called invocation hMetadata hAsked =>
      refine .inr ⟨invocation, hMetadata, ?_, ?_⟩
      · exact hAsked.calls
      · exact hAsked.tree

/- All that is sent only fetches. -/
theorem Session.IsDryAfter.requests
    {session after : Session ω}
    (hDry : session.IsDryAfter outside after) :
    ∃ requests,
      after.requests = session.requests ++ requests ∧
        ∀ request ∈ requests, request.method = "GET" := by
  have hAsked :
      ∃ between : Session ω,
        between.requests = session.requests ∧
          between.OnlyAsked outside after := by
    cases hDry with
    | uncalled hAsked => exact ⟨session, rfl, hAsked⟩
    | @called invocation hMetadata hAsked =>
        exact ⟨session.afterCall outside _, rfl, hAsked⟩
  rcases hAsked with ⟨between, hBetween, hAsked⟩
  rcases hAsked.asked with
    ⟨exchanges, hWorld, hRequests, hMethod⟩
  rw [hBetween] at hRequests
  refine ⟨_, hRequests, fun request hMem => ?_⟩
  rcases List.mem_map.mp hMem with ⟨exchange, hSent, rfl⟩
  exact hMethod exchange hSent

------------------------------------------------------------
-- Operations
------------------------------------------------------------

namespace Action

/- Wherever the operation begins, it is a dry run. -/
def IsDry
    (outside : Outside ω)
    (action : Action ω α) : Prop :=
  ∀ session : Session ω,
    session.IsDryAfter outside
      (action.perform outside session).2

namespace IsDry

theorem of_onlyAsks
    {action : Action ω α}
    (hAction : action.OnlyAsks outside) :
    action.IsDry outside :=
  fun session => .uncalled (hAction session)

/- The build tool can only be asked at first. -/
theorem bind
    {action : Action ω α}
    {next : α → Action ω β}
    (hAction : action.IsDry outside)
    (hNext : ∀ result, (next result).OnlyAsks outside) :
    IsDry outside (action >>= next) := by
  intro session
  have hFirst := hAction session
  rw [perform_bind]
  cases hRun : action.perform outside session with
  | mk result between =>
      rw [hRun] at hFirst
      cases result with
      | error failure => exact hFirst
      | ok result => exact hFirst.trans (hNext result between)

/- What is known of the surroundings can be read before. -/
theorem known_bind
    {action : Action ω α}
    {next : α → Action ω β}
    {result : α}
    (hKnown :
      ∀ session,
        action.perform outside session =
          (.ok result, session))
    (hNext : (next result).IsDry outside) :
    IsDry outside (action >>= next) := by
  intro session
  rw [perform_bind, hKnown session]
  exact hNext session

theorem log_bind
    (level : Level)
    (parts : List OsText)
    {next : Unit → Action ω β}
    (hNext : (next ()).IsDry outside) :
    IsDry outside (Action.log level parts >>= next) := by
  intro session
  let between : Session ω :=
    { session with
      log :=
        session.log ++ [{ level, message := parts.flatten }] }
  have hLog :
      (Action.log level parts).perform outside session =
        (.ok (), between) :=
    rfl
  rw [perform_bind, hLog]
  exact .of_eq (hNext between) rfl rfl rfl rfl

/- A call that asks for metadata. -/
theorem call_bind
    {invocation : Invocation}
    {next : CallOutcome → Action ω β}
    (hMetadata : outside.AsksMetadata invocation)
    (hNext : ∀ outcome, (next outcome).OnlyAsks outside) :
    IsDry outside (Action.call invocation >>= next) := by
  intro session
  rw [perform_bind]
  exact
    .called hMetadata
      (hNext _ (session.afterCall outside invocation))

theorem tryCatch
    {action : Action ω α}
    {handler : Failure → Action ω α}
    (hAction : action.IsDry outside)
    (hHandler :
      ∀ failure, (handler failure).OnlyAsks outside) :
    IsDry outside (MonadExcept.tryCatch action handler) := by
  intro session
  have hFirst := hAction session
  rw [perform_tryCatch]
  cases hRun : action.perform outside session with
  | mk result between =>
      rw [hRun] at hFirst
      cases result with
      | ok result => exact hFirst
      | error failure =>
          exact hFirst.trans (hHandler failure between)

end IsDry

end Action

------------------------------------------------------------
-- Surroundings
------------------------------------------------------------

/- Asking for metadata is the only call. -/
theorem Cargo.isDry_metadata
    (manifest : Option Path)
    (color : Text)
    (directory : Path)
    (timeout : Option Int) :
    IsDry outside
      (Cargo.metadata manifest color directory timeout) := by
  refine .known_bind (fun _ => rfl) (.log_bind _ _ ?_)
  refine .call_bind ⟨_, _, rfl⟩ fun outcome => ?_
  cases outcome with
  | notFound => exact .throw _
  | timedOut => exact .throw _
  | finished code output errorOutput =>
      dsimp only
      split
      · exact .throw_bind _ _
      · exact .ofExcept _

namespace CommandLine

/- The same for every command, but dry. -/
def Globals.dry (globals : Globals) : Globals :=
  { globals with dryRun := true }

theorem onlyAsks_settingsPath (given : Option Path) :
    OnlyAsks outside (settingsPath given) := by
  cases given with
  | some path => exact .pure path
  | none =>
      refine .bind (.environment _) fun base => ?_
      cases base with
      | some text => exact .bind_pure (.pure _)
      | none =>
          exact
            .bind .surroundings fun _ => .bind_pure (.pure _)

theorem onlyAsks_homeDirectory :
    OnlyAsks outside (homeDirectory (ω := ω)) :=
  .bind_pure .surroundings

theorem onlyAsks_placed (path : Path) :
    OnlyAsks outside (placed path) :=
  .bind_pure .surroundings

theorem onlyAsks_loadSettings (given : Option Path) :
    OnlyAsks outside (loadSettings given true) :=
  .bind (onlyAsks_settingsPath given) fun _ =>
    .bind onlyAsks_homeDirectory fun _ =>
      Settings.onlyAsks_loadOrCreate _ _

theorem onlyAsks_saveSettings
    (globals : Globals)
    (settings : Settings) :
    OnlyAsks outside (saveSettings globals.dry settings) :=
  .bind (onlyAsks_settingsPath _) fun _ =>
    Settings.onlyAsks_save settings _

theorem onlyAsks_workspaceEntry
    (settings : Settings)
    (root : Path) :
    OnlyAsks outside (workspaceEntry settings root) := by
  refine .bind onlyAsks_homeDirectory fun home => ?_
  split
  · exact .pure _
  · exact .throw _

theorem isDry_metadata
    (color : ColorChoice)
    (manifest : Option Path) :
    IsDry outside (metadata color manifest) :=
  .known_bind (fun _ => rfl) (Cargo.isDry_metadata _ _ _ _)

theorem onlyAsks_readScript (file : Option Path) :
    OnlyAsks outside (readScript file) := by
  cases file with
  | none => exact .readInput
  | some path =>
      exact .bind (onlyAsks_placed path) fun _ =>
        Files.onlyAsks_read _

theorem onlyAsks_awaitAnswer
    (label : Text)
    (lines : List Text) :
    OnlyAsks outside (awaitAnswer label lines) := by
  induction lines with
  | nil => exact .bind (.write _) fun _ => .throw _
  | cons line lines ih =>
      refine .bind (.setInput _) fun _ => ?_
      dsimp only
      split
      · exact .bind (.write _) fun _ => ih
      · exact .pure _

theorem onlyAsks_ask (label : Text) :
    OnlyAsks outside (ask label) :=
  .bind (.write _) fun _ =>
    .bind .remainingInput fun _ =>
      onlyAsks_awaitAnswer label _

theorem onlyAsks_succeed
    (globals : Globals)
    (parts : List OsText) :
    OnlyAsks outside (succeed globals parts) :=
  .writeError _

------------------------------------------------------------
-- Commands
------------------------------------------------------------

theorem onlyAsks_packageDirectory
    (given : Option Path)
    (root : Path) :
    OnlyAsks outside (packageDirectory given root) := by
  cases given with
  | none => exact .pure _
  | some path => exact .bind_pure (onlyAsks_placed path)

theorem onlyAsks_initWorkspace
    (globals : Globals)
    (path : Path) :
    OnlyAsks outside (initWorkspace globals.dry path) :=
  .bind (onlyAsks_placed path) fun _ =>
    .bind (onlyAsks_loadSettings _) fun _ =>
      .bind (Workspace.onlyAsks_initWorkspace _) fun _ =>
        .bind (onlyAsks_workspaceEntry _ _) fun _ =>
          .bind onlyAsks_homeDirectory fun _ =>
            .bind (.ofExcept _) fun _ =>
              .bind (onlyAsks_saveSettings _ _) fun _ =>
                onlyAsks_succeed _ _

theorem onlyAsks_templatePackage
    (settings : Settings)
    (root : Path) :
    OnlyAsks outside (templatePackage settings root) :=
  .bind_pure onlyAsks_homeDirectory

theorem onlyAsks_gistIdOf
    (settings : Settings)
    (root : Path)
    (package : Text) :
    OnlyAsks outside (gistIdOf settings root package) := by
  refine .bind onlyAsks_homeDirectory fun home => ?_
  dsimp only
  split
  · exact .pure _
  · exact .throw _

theorem onlyAsks_authorizedClient
    (globals : Globals)
    (settings : Settings) :
    OnlyAsks outside
      (authorizedClient globals.dry settings) := by
  unfold authorizedClient
  split
  · exact .bind (onlyAsks_settingsPath _) fun _ => .throw _
  · exact
      .bind onlyAsks_homeDirectory fun _ =>
        .bind (TokenFile.onlyAsks_loadOrAsk _ onlyAsks_ask _)
          fun _ => .ofExcept _

theorem isDry_newPackage
    (globals : Globals)
    (path : Path)
    (name : Option OsText)
    (manifest : Option Path) :
    IsDry outside
      (newPackage globals.dry path name manifest) := by
  refine .known_bind (fun _ => rfl) ?_
  refine .bind (isDry_metadata _ _) fun found => ?_
  exact
    .bind (onlyAsks_loadSettings _) fun _ =>
      .bind (onlyAsks_templatePackage _ _) fun _ =>
        .bind (Workspace.onlyAsks_newPackage _ _ _ _ _)
          fun _ => onlyAsks_succeed _ _

theorem isDry_removePackage
    (globals : Globals)
    (package : Text)
    (manifest : Option Path) :
    IsDry outside
      (removePackage globals.dry package manifest) := by
  refine .bind (isDry_metadata _ _) fun found => ?_
  exact
    .bind (.ofExcept _) fun target =>
      .bind (Membership.onlyAsks_modify _ _) fun _ =>
        Files.onlyAsks_removeTree _

theorem isDry_changeMembership
    (globals : Globals)
    (change : Path → Membership.Change)
    (path : Path)
    (manifest : Option Path) :
    IsDry outside
      (changeMembership globals.dry change path
        manifest) := by
  refine .known_bind (fun _ => rfl) ?_
  refine .bind (isDry_metadata _ _) fun found => ?_
  refine
    .bind (Membership.onlyAsks_modify _ _) fun report => ?_
  split
  · exact .pure ()
  · exact .writeError _

theorem isDry_importScript
    (globals : Globals)
    (file path manifest : Option Path) :
    IsDry outside
      (importScript globals.dry file path manifest) := by
  refine .bind (isDry_metadata _ _) fun found => ?_
  exact
    .bind (onlyAsks_readScript _) fun _ =>
      .bind (onlyAsks_packageDirectory _ _) fun _ =>
        .bind (Workspace.onlyAsks_importScript _ _ _)
          fun _ => onlyAsks_succeed _ _

theorem isDry_exportPackage
    (globals : Globals)
    (package : Text)
    (manifest : Option Path) :
    IsDry outside
      (exportPackage globals package manifest) := by
  refine .bind (isDry_metadata _ _) fun found => ?_
  exact
    .bind (.ofExcept _) fun target =>
      .bind (Workspace.onlyAsks_exported target) fun _ =>
        .write _

theorem isDry_cloneGist
    (globals : Globals)
    (gistId : Text)
    (path manifest : Option Path) :
    IsDry outside
      (cloneGist globals.dry gistId path manifest) := by
  refine .bind (isDry_metadata _ _) fun found => ?_
  exact
    .bind (onlyAsks_loadSettings _) fun _ =>
      .bind (onlyAsks_workspaceEntry _ _) fun _ =>
        .bind (onlyAsks_packageDirectory _ _) fun _ =>
          .bind (Sync.onlyAsks_clone _ _ _ _ _) fun _ =>
            .bind (onlyAsks_saveSettings _ _) fun _ =>
              onlyAsks_succeed _ _

theorem isDry_pullGist
    (globals : Globals)
    (package : Text)
    (manifest : Option Path) :
    IsDry outside
      (pullGist globals.dry package manifest) := by
  refine .bind (isDry_metadata _ _) fun found => ?_
  refine .bind (.ofExcept _) fun target => ?_
  refine .bind (onlyAsks_loadSettings _) fun settings => ?_
  refine .bind (onlyAsks_gistIdOf _ _ _) fun gistId => ?_
  refine .bind (Sync.onlyAsks_pull _ _ _) fun written => ?_
  split
  · exact onlyAsks_succeed _ _
  · exact .pure ()

theorem isDry_pushGist
    (globals : Globals)
    (package : Text)
    (options : Sync.PushOptions)
    (manifest : Option Path) :
    IsDry outside
      (pushGist globals.dry package options manifest) := by
  refine .bind (isDry_metadata _ _) fun found => ?_
  exact
    .bind (onlyAsks_loadSettings _) fun _ =>
      .bind (.ofExcept _) fun target =>
        .bind (Workspace.onlyAsks_exported target) fun _ =>
          .bind (onlyAsks_workspaceEntry _ _) fun _ =>
            .bind (onlyAsks_authorizedClient _ _) fun _ =>
              .bind (Sync.onlyAsks_push _ _ _ _ _) fun _ =>
                .bind (onlyAsks_saveSettings _ _) fun _ =>
                  onlyAsks_succeed _ _

theorem Command.isDry_perform
    (globals : Globals)
    (command : Command) :
    IsDry outside (command.perform globals.dry) := by
  cases command with
  | initWorkspace path =>
      exact .of_onlyAsks (onlyAsks_initWorkspace globals path)
  | new path name manifest =>
      exact isDry_newPackage globals path name manifest
  | remove package manifest =>
      exact isDry_removePackage globals package manifest
  | «include» path manifest =>
      exact isDry_changeMembership globals _ path manifest
  | exclude path manifest =>
      exact isDry_changeMembership globals _ path manifest
  | «import» file path manifest =>
      exact isDry_importScript globals file path manifest
  | «export» package manifest =>
      exact isDry_exportPackage globals.dry package manifest
  | gistClone gistId path manifest =>
      exact isDry_cloneGist globals gistId path manifest
  | gistPull package manifest =>
      exact isDry_pullGist globals package manifest
  | gistPush package options manifest =>
      exact isDry_pushGist globals package options manifest

end CommandLine

end ScriptWorkspace
