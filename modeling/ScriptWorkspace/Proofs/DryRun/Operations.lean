import ScriptWorkspace.Proofs.DryRun.Steps
import ScriptWorkspace.Proofs.Gist.Registry

/-
  Operations that are run dry.

  Three things could be changed by them: the files, the gists
  in their store, and the registry of the gists that belong to
  packages, which an operation takes and gives back. A dry run
  keeps the first two. It keeps the registry as well, but for
  a clone, which registers its gist all the same.

  Main declarations:
    * `Action.Yields`
    * `Operation`
    * `Operation.onlyAsks_run`
    * `Operation.Registers`
    * `Operation.dry_run_keeps`
-/

namespace ScriptWorkspace

variable {ω α β : Type}
variable {outside : Outside ω}

------------------------------------------------------------
-- Results
------------------------------------------------------------

namespace Action

/- A result that the operation comes to has the property. -/
def Yields
    (outside : Outside ω)
    (property : α → Prop)
    (action : Action ω α) : Prop :=
  ∀ (session : Session ω) (result : α),
    (action.perform outside session).1 = .ok result →
      property result

namespace Yields

theorem pure
    {property : α → Prop}
    {result : α}
    (hResult : property result) :
    Yields outside property (Pure.pure result) := by
  intro session found hFound
  cases hFound
  exact hResult

theorem throw_bind
    {property : β → Prop}
    (failure : Failure)
    (next : α → Action ω β) :
    Yields outside property
      (MonadExcept.throw failure >>= next) := by
  intro session found hFound
  cases hFound

/- What comes last decides about the result. -/
theorem bind_of
    {known : α → Prop}
    {property : β → Prop}
    {action : Action ω α}
    {next : α → Action ω β}
    (hAction : Yields outside known action)
    (hNext :
      ∀ result,
        known result →
          Yields outside property (next result)) :
    Yields outside property (action >>= next) := by
  intro session found hFound
  rw [perform_bind] at hFound
  cases hRun : action.perform outside session with
  | mk result between =>
      rw [hRun] at hFound
      cases result with
      | error failure => cases hFound
      | ok result =>
          have hKnown : known result :=
            hAction session result (by rw [hRun])
          exact hNext result hKnown between found hFound

theorem bind
    {property : β → Prop}
    {action : Action ω α}
    {next : α → Action ω β}
    (hNext :
      ∀ result, Yields outside property (next result)) :
    Yields outside property (action >>= next) := by
  have hAny :
      Yields outside (fun _ : α => True) action :=
    fun _ _ _ => trivial
  exact bind_of hAny fun result _ => hNext result

end Yields

end Action

------------------------------------------------------------
-- Operations
------------------------------------------------------------

/- An operation that can be run dry. -/
inductive Operation
  | createWorkspace (directory : Path)
  | registerScript
      (metadata : Cargo.Metadata)
      (manifest script : Text)
      (binary : Option OsText)
  | importScript
      (root : Path)
      (script : Text)
      (directoryFor : Text → Path)
  | newPackage
      (root directory : Path)
      (template : Toml.Table)
      (name : Option OsText)
      (templatePackage : Option Path)
  | initWorkspace (directory : Path)
  | modifyMembers (root : Path) (change : Membership.Change)
  | pull
      (client : GistClient)
      (gistId : Text)
      (package : Cargo.Package)
  | push
      (client : GistClient)
      (package script : Text)
      (options : Sync.PushOptions)
  | clone
      (client : GistClient)
      (gistId : Text)
      (root : Path)
      (directoryFor : Text → Path)
  | writeFiles (files : List (Path × Text))
  | saveSettings (settings : Settings) (path : Path)
  | loadOrCreateSettings (path home : Path)

namespace Operation

/- Run an operation; its result is the registry after it. -/
def run
    (dryRun : Bool)
    (gistIds : GistIds) :
    Operation → Action ω GistIds
  | createWorkspace directory => do
    Workspace.create directory dryRun
    return gistIds
  | registerScript metadata manifest script binary => do
    let _ ←
      Workspace.registerScript metadata manifest script binary
        dryRun
    return gistIds
  | importScript root script directoryFor => do
    let _ ←
      Workspace.importScript root script directoryFor dryRun
    return gistIds
  | newPackage root directory template name package => do
    let _ ←
      Workspace.newPackage root directory template name
        package dryRun
    return gistIds
  | initWorkspace directory => do
    let _ ← Workspace.initWorkspace directory dryRun
    return gistIds
  | modifyMembers root change => do
    let _ ← Membership.modify root change dryRun
    return gistIds
  | pull client gistId package => do
    let _ ← Sync.pull client gistId package dryRun
    return gistIds
  | push client package script options => do
    let (_, gistIds) ←
      Sync.push client gistIds package script options dryRun
    return gistIds
  | clone client gistId root directoryFor => do
    let (_, gistIds) ←
      Sync.clone client gistId root gistIds directoryFor
        dryRun
    return gistIds
  | writeFiles files => do
    Files.writeAll files dryRun
    return gistIds
  | saveSettings settings path => do
    settings.save path dryRun
    return gistIds
  | loadOrCreateSettings path home => do
    let _ ← Settings.loadOrCreate path home dryRun
    return gistIds

theorem onlyAsks_run
    (gistIds : GistIds)
    (operation : Operation) :
    Action.OnlyAsks outside (operation.run true gistIds) := by
  cases operation with
  | createWorkspace directory =>
      exact .bind_pure (Workspace.onlyAsks_create _)
  | registerScript metadata manifest script binary =>
      exact
        .bind_pure
          (Workspace.onlyAsks_registerScript _ _ _ _)
  | importScript root script directoryFor =>
      exact .bind_pure (Workspace.onlyAsks_importScript _ _ _)
  | newPackage root directory template name package =>
      exact
        .bind_pure (Workspace.onlyAsks_newPackage _ _ _ _ _)
  | initWorkspace directory =>
      exact .bind_pure (Workspace.onlyAsks_initWorkspace _)
  | modifyMembers root change =>
      exact .bind_pure (Membership.onlyAsks_modify _ _)
  | pull client gistId package =>
      exact .bind_pure (Sync.onlyAsks_pull _ _ _)
  | push client package script options =>
      exact .bind_pure (Sync.onlyAsks_push _ _ _ _ _)
  | clone client gistId root directoryFor =>
      exact .bind_pure (Sync.onlyAsks_clone _ _ _ _ _)
  | writeFiles files =>
      exact .bind_pure (Files.onlyAsks_writeAll _)
  | saveSettings settings path =>
      exact .bind_pure (Settings.onlyAsks_save _ _)
  | loadOrCreateSettings path home =>
      exact .bind_pure (Settings.onlyAsks_loadOrCreate _ _)

/-
  The registry after an operation: the one of its result, or
  the one that was given if there is no result.
-/
def registryAfter
    (gistIds : GistIds) :
    Except Failure GistIds → GistIds
  | .ok registry => registry
  | .error _ => gistIds

/-
  The operation is a clone that came to a package for which
  the gist was not registered.
-/
def Registers
    (gistIds : GistIds)
    (result : Except Failure GistIds) : Operation → Prop
  | clone _ gistId _ _ =>
    ∃ package,
      GistIds.find? package gistIds ≠ some gistId ∧
        result = .ok (GistIds.put package gistId gistIds)
  | _ => False

theorem yields_createGist
    (client : GistClient)
    (gistIds : GistIds)
    (package script : Text)
    (options : Sync.PushOptions) :
    Action.Yields outside (· = gistIds)
      (Sync.createGist client gistIds package script options
        true) := by
  unfold Sync.createGist
  cases options.setUpstream with
  | false => exact .throw_bind _ _
  | true => exact .bind fun _ => .pure rfl

theorem yields_push
    (client : GistClient)
    (gistIds : GistIds)
    (package script : Text)
    (options : Sync.PushOptions) :
    Action.Yields outside (fun pushed => pushed.2 = gistIds)
      (Sync.push client gistIds package script options
        true) := by
  refine .bind fun state => ?_
  cases state with
  | upToDate => exact .bind fun _ => .pure rfl
  | forward gistId remote =>
      exact .bind fun _ => .bind fun _ => .pure rfl
  | absent =>
      exact
        .bind_of (yields_createGist _ gistIds _ _ _)
          fun created hCreated => .pure hCreated

theorem yields_clone
    (client : GistClient)
    (gistId : Text)
    (root : Path)
    (gistIds : GistIds)
    (directoryFor : Text → Path) :
    Action.Yields outside
      (fun cloned =>
        ∃ package, cloned.2 = gistIds.put package gistId)
      (Sync.clone client gistId root gistIds directoryFor
        true) :=
  .bind fun _ =>
    .bind fun package =>
      .bind fun _ => .pure ⟨package, rfl⟩

/- A registry that a dry run of the operation can lead to. -/
def CanLeave
    (gistIds registry : GistIds) : Operation → Prop
  | clone _ gistId _ _ =>
    ∃ package, registry = gistIds.put package gistId
  | _ => registry = gistIds

theorem yields_run
    (gistIds : GistIds)
    (operation : Operation) :
    Action.Yields outside
      (fun registry => operation.CanLeave gistIds registry)
      (operation.run true gistIds) := by
  cases operation with
  | push client package script options =>
      exact
        .bind_of (yields_push _ gistIds _ _ _)
          fun pushed hPushed => .pure hPushed
  | clone client gistId root directoryFor =>
      exact
        .bind_of (yields_clone _ gistId _ gistIds _)
          fun cloned hCloned => .pure hCloned
  | _ => exact .bind fun _ => .pure rfl

/- Only registering another gist changes a registry. -/
theorem registry_kept_iff
    {gistIds : GistIds}
    {operation : Operation}
    {result : Except Failure GistIds}
    (hLeft :
      ∀ registry,
        result = .ok registry →
          operation.CanLeave gistIds registry) :
    registryAfter gistIds result = gistIds ↔
      ¬ operation.Registers gistIds result := by
  constructor
  · intro hKept hRegisters
    cases operation with
    | clone client gistId root directoryFor =>
        rcases hRegisters with ⟨package, hOther, rfl⟩
        have hFound :=
          GistIds.find?_put_self package gistId gistIds
        change gistIds.put package gistId = gistIds at hKept
        rw [hKept] at hFound
        exact hOther hFound
    | _ => exact hRegisters
  · intro hNot
    cases result with
    | error failure => rfl
    | ok registry =>
        have hCan := hLeft registry rfl
        cases operation with
        | clone client gistId root directoryFor =>
            rcases hCan with ⟨package, rfl⟩
            -- To register what is registered changes nothing.
            by_cases hKnown :
                gistIds.find? package = some gistId
            · exact GistIds.put_of_find?_eq_some hKnown
            · exact absurd ⟨package, hKnown, rfl⟩ hNot
        | _ => exact hCan

/-
  A dry operation leaves the files and the gists as they are,
  whether it succeeds or not, and whatever the store answers.
  The registry stays as well, but for a clone that succeeds
  with a package for which the gist was not registered.
-/
theorem dry_run_keeps
    (outside : Outside ω)
    (session : Session ω)
    (gistIds : GistIds)
    (operation : Operation) :
    ∃ result after,
      (operation.run true gistIds).perform outside session =
          (result, after) ∧
        session.OnlyAsked outside after ∧
        session.KeepsStores outside after ∧
        (registryAfter gistIds result = gistIds ↔
          ¬ operation.Registers gistIds result) := by
  have hAsked :
      session.OnlyAsked outside
        ((operation.run true gistIds).perform outside
          session).2 :=
    operation.onlyAsks_run gistIds session
  have hYields :
      Action.Yields outside
        (fun registry => operation.CanLeave gistIds registry)
        (operation.run true gistIds) :=
    operation.yields_run gistIds
  exact
    ⟨_, _, rfl, hAsked, hAsked.keepsStores,
      registry_kept_iff (hYields session)⟩

/- The only gist: a script with the manifest of a package. -/
def onlyGist : Text :=
  "\x7b\"id\": \"1\", \"files\": \x7b\"a.rs\": \x7b".toList ++
    "\"filename\": \"a.rs\", \"content\": ".toList ++
    "\"//! ```cargo\\n//! [package]\\n".toList ++
    "//! name = \\\"a\\\"\\n//! ```\\n\"\x7d\x7d\x7d".toList

/- A store that holds one gist, and no build tool. -/
def surroundings : Outside Unit :=
  { home := Path.ofText "/home"
    directory := Path.ofText "/work"
    «variables» := []
    call := fun _ world tree => (.notFound, world, tree)
    send := fun _ world => (.answer 200 onlyGist, world) }

/- A workspace without members. -/
def start : Session Unit :=
  .start
    ⟨[(["work"], .directory),
      (["work", "Cargo.toml"],
        .file (.text "[workspace]\n"))]⟩
    ()

/- A dry clone registers the gist that it would clone. -/
theorem registry_changed_by_dry_clone :
    registryAfter []
        ((run true []
            (.clone .anonymous "1" (Path.ofText "/work")
              fun name =>
                (Path.ofText "/work").join name)).perform
          surroundings start).1 ≠
      [] := by
  decide +kernel

end Operation

end ScriptWorkspace
