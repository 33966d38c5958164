import Mathlib.Order.Defs.Unbundled
import ScriptWorkspace.CommandLine.Management
import ScriptWorkspace.Proofs.Workspace.Plan
import ScriptWorkspace.Proofs.Workspace.Staying

/-
  What can be done to a workspace.

  Paths are included, excluded and removed with their
  directories, and packages are made: from a script that is
  run, imported or cloned, or from a template. Each of these
  tasks changes the members once at most. Before and after
  that only the files of a package are written.

  Main declarations:
    * `Workspace.Task`
    * `Workspace.Task.run`
    * `Workspace.Task.effect`
    * `Workspace.Course`
    * `Workspace.Follows`
    * `Workspace.Task.follows_run`
    * `Workspace.Task.keeping_run`
-/

namespace ScriptWorkspace

open ScriptWorkspace.Action Storage Storage.Calls
open ScriptWorkspace.Membership (Change ModifyRun)

namespace Workspace

variable {ω α β : Type}
variable {outside : Outside ω}

------------------------------------------------------------
-- Tasks
------------------------------------------------------------

/- Something that can be done to a workspace. -/
inductive Task
  | including (path : Path)
  | excluding (path : Path)
  | removing (directory : Path)
  | registering
      (metadata : Cargo.Metadata)
      (manifest script : Text)
      (binary : Option OsText)
  | importing
      (script : Text)
      (directoryFor : Text → Path)
  | creating
      (directory : Path)
      (template : Toml.Table)
      (name : Option OsText)
      (templatePackage : Option Path)
  | cloning
      (client : GistClient)
      (gistId : Text)
      (gistIds : GistIds)
      (directoryFor : Text → Path)

namespace Task

/- Do it to the workspace at a root. -/
def run
    (root : Path)
    (dryRun : Bool) : Task → Action ω Unit
  | .including path => do
    let _ ← Membership.modify root (.include path) dryRun
  | .excluding path => do
    let _ ← Membership.modify root (.exclusion path) dryRun
  | .removing directory => do
    let _ ← Membership.modify root (.removal directory) dryRun
    Files.removeTree directory dryRun
  | .registering metadata manifest script binary => do
    let _ ←
      registerScript { metadata with root } manifest script
        binary dryRun
  | .importing script directoryFor => do
    let _ ← importScript root script directoryFor dryRun
  | .creating directory template name templatePackage => do
    let _ ←
      newPackage root directory template name templatePackage
        dryRun
  | .cloning client gistId gistIds directoryFor => do
    let _ ←
      Sync.clone client gistId root gistIds directoryFor
        dryRun

end Task

------------------------------------------------------------
-- Effects
------------------------------------------------------------

/- The files that may be written, and the change of members. -/
structure Effect where
  files : List Path
  change? : Option Change

/- Nothing is written and nothing is changed. -/
def Effect.none : Effect := ⟨[], Option.none⟩

/- A package is made of a script. -/
def scriptEffect
    (directoryFor : Text → Path)
    (script : Text) : Effect :=
  match packageIn script with
  | .error _ => .none
  | .ok (_, name) =>
    { files := packagePaths (directoryFor name)
      change? := some (.addMember (directoryFor name)) }

/- A script is kept as a member, an old or a new one. -/
def registerEffect
    (metadata : Cargo.Metadata)
    (manifest : Text)
    (binary : Option OsText) : Effect :=
  match Manifest.packageName manifest with
  | .error _ => .none
  | .ok name =>
    match metadata.findMember? name with
    | some member =>
      { files :=
          [member.manifest,
            sourceBeside member.manifest binary]
        change? := Option.none }
    | Option.none =>
      let directory := metadata.root.join name
      { files :=
          [manifestIn directory,
            sourceBeside (manifestIn directory) binary]
        change? := some (.include directory) }

/- The script of a gist, if it can be fetched. -/
def remoteScript?
    (outside : Outside ω)
    (session : Session ω)
    (client : GistClient)
    (gistId : Text) : Option Text :=
  match ((client.retrieve gistId).perform outside session).1
    with
  | .ok remote => some remote.content
  | .error _ => none

/- What a task may do, from a session. -/
def Task.effect
    (outside : Outside ω)
    (session : Session ω)
    (root : Path) : Task → Effect
  | .including path => ⟨[], some (.include path)⟩
  | .excluding path => ⟨[], some (.exclusion path)⟩
  | .removing directory => ⟨[], some (.removal directory)⟩
  | .registering metadata manifest _ binary =>
    registerEffect { metadata with root } manifest binary
  | .importing script directoryFor =>
    scriptEffect directoryFor script
  | .creating directory template _ templatePackage =>
    { files :=
        manifestIn directory ::
          templateTargets outside.directory.names session.tree
            template templatePackage directory
      change? := some (.addMember directory) }
  | .cloning client gistId _ directoryFor =>
    match remoteScript? outside session client gistId with
    | some script => scriptEffect directoryFor script
    | Option.none => .none

------------------------------------------------------------
-- Courses
------------------------------------------------------------

/-
  How a session can come to another one: all that changes is
  kept in a relation, but for one change of the members that
  may be made in between.
-/
inductive Course
    (outside : Outside ω)
    (root : Path)
    (keeps : Tree → Tree → Prop)
    (change? : Option Change)
    (before after : Session ω) : Prop
  | kept (hKept : keeps before.tree after.tree)
  | changed
      {change : Change}
      {result : Except Failure Membership.Report}
      {between later : Session ω}
      (hChange : change? = some change)
      (hFront : keeps before.tree between.tree)
      (hRun :
        ModifyRun outside root change false between result
          later)
      (hBack : keeps later.tree after.tree)

/- The operation takes such a course from the session. -/
def Follows
    (outside : Outside ω)
    (root : Path)
    (keeps : Tree → Tree → Prop)
    (change? : Option Change)
    (session : Session ω)
    (action : Action ω α) : Prop :=
  Course outside root keeps change? session
    (action.perform outside session).2

section Rules

variable {root : Path}
variable {keeps : Tree → Tree → Prop}
variable {change? : Option Change}
variable {session before between after : Session ω}

theorem Course.imp
    {others : Tree → Tree → Prop}
    (hCourse :
      Course outside root keeps change? before after)
    (hKeeps :
      ∀ tree other, keeps tree other → others tree other) :
    Course outside root others change? before after := by
  cases hCourse with
  | kept hKept => exact .kept (hKeeps _ _ hKept)
  | changed hChange hFront hRun hBack =>
      exact
        .changed hChange (hKeeps _ _ hFront) hRun
          (hKeeps _ _ hBack)

/- The members are not changed at all. -/
theorem Follows.of_keeps
    {action : Action ω α}
    (hKeeps :
      keeps session.tree
        (action.perform outside session).2.tree) :
    Follows outside root keeps change? session action :=
  .kept hKeeps

variable [IsPreorder Tree keeps]

theorem Course.of_front
    (hFront : keeps before.tree between.tree)
    (hCourse :
      Course outside root keeps change? between after) :
    Course outside root keeps change? before after := by
  cases hCourse with
  | kept hKept => exact .kept (trans_of keeps hFront hKept)
  | changed hChange hNext hRun hBack =>
      exact
        .changed hChange (trans_of keeps hFront hNext) hRun
          hBack

theorem Course.of_back
    (hCourse :
      Course outside root keeps change? before between)
    (hBack : keeps between.tree after.tree) :
    Course outside root keeps change? before after := by
  cases hCourse with
  | kept hKept => exact .kept (trans_of keeps hKept hBack)
  | changed hChange hFront hRun hNext =>
      exact
        .changed hChange hFront hRun
          (trans_of keeps hNext hBack)

namespace Follows

theorem of_onlyAsks
    {action : Action ω α}
    (hAsks : action.OnlyAsks outside) :
    Follows outside root keeps change? session action := by
  refine .kept ?_
  rw [(hAsks session).tree]
  exact refl_of keeps session.tree

theorem ofExcept_bind
    {computed : Except Failure α}
    {next : α → Action ω β}
    (hNext :
      ∀ found,
        computed = .ok found →
          Follows outside root keeps change? session
            (next found)) :
    Follows outside root keeps change? session
      (Action.ofExcept computed >>= next) := by
  cases computed with
  | error failure => exact .kept (refl_of keeps session.tree)
  | ok found => exact hNext found rfl

/- The members are changed after an operation. -/
theorem bind_front
    {action : Action ω α}
    {next : α → Action ω β}
    (hFront :
      keeps session.tree
        (action.perform outside session).2.tree)
    (hNext :
      ∀ result between,
        action.perform outside session =
            (.ok result, between) →
          Follows outside root keeps change? between
            (next result)) :
    Follows outside root keeps change? session
      (action >>= next) := by
  unfold Follows
  rw [perform_bind]
  cases hRun : action.perform outside session with
  | mk result between =>
      rw [hRun] at hFront
      cases result with
      | error failure => exact .kept hFront
      | ok result =>
          exact .of_front hFront (hNext result between hRun)

/- The members are changed before an operation. -/
theorem bind_back
    {action : Action ω α}
    {next : α → Action ω β}
    (hFirst :
      Follows outside root keeps change? session action)
    (hNext :
      ∀ result between,
        action.perform outside session =
            (.ok result, between) →
          keeps between.tree
            ((next result).perform outside between).2.tree) :
    Follows outside root keeps change? session
      (action >>= next) := by
  unfold Follows at hFirst ⊢
  rw [perform_bind]
  cases hRun : action.perform outside session with
  | mk result between =>
      rw [hRun] at hFirst
      cases result with
      | error failure => exact hFirst
      | ok result =>
          exact hFirst.of_back (hNext result between hRun)

/- A result that is made of the one of an operation. -/
theorem bind_pure
    {action : Action ω α}
    {make : α → β}
    (hAction :
      Follows outside root keeps change? session action) :
    Follows outside root keeps change? session
      (action >>= fun found => Pure.pure (make found)) :=
  hAction.bind_back fun _ between _ =>
    refl_of keeps between.tree

/- The change of the members itself. -/
theorem modify
    (session : Session ω)
    (root : Path)
    (change : Change) :
    Follows outside root keeps (some change) session
      (Membership.modify root change false) := by
  rcases Membership.modify_runs outside session root change
      false with
    ⟨result, after, hPerform, hRun⟩
  unfold Follows
  rw [hPerform]
  exact
    .changed rfl (refl_of keeps _) hRun (refl_of keeps _)

/- A change of the members that comes last. -/
theorem modify_bind_pure
    (session : Session ω)
    (root : Path)
    (change : Change)
    {make : Membership.Report → β} :
    Follows outside root keeps (some change) session
      (Membership.modify root change false >>= fun report =>
        Pure.pure (make report)) :=
  (modify session root change).bind_pure

end Follows

end Rules

instance (region : Region) :
    IsPreorder Tree (Tree.ChangesWithin region) where
  refl := .refl region
  trans _ _ _ := .trans

instance (location : Location) :
    IsPreorder Tree (Tree.KeepsFile location) where
  refl _ _ hFound := hFound
  trans _ _ _ := .trans

------------------------------------------------------------
-- Courses Of Tasks
------------------------------------------------------------

section Tasks

variable {root : Path}
variable {region : Region}
variable {session : Session ω}

/- A new package becomes a member, and has a manifest. -/
theorem follows_addPackage (name : Text) :
    Follows outside root (Tree.ChangesWithin region)
      (some (.include (root.join name))) session
      (addPackage root name false) := by
  have hAsked :
      StaysFrom outside region session
        (Files.pathExists (root.join name)) :=
    .of_onlyAsks (Files.onlyAsks_pathExists _)
  refine .bind_front hAsked fun found between _ => ?_
  split
  · exact .of_onlyAsks (.throw _)
  · exact .modify_bind_pure between root _

theorem manifest_of_addPackage
    {name : Text}
    {path : Path}
    {after : Session ω}
    (hRun :
      (addPackage root name false).perform outside session =
        (.ok path, after)) :
    path = manifestIn (root.join name) := by
  rcases exists_of_perform_bind hRun with
    ⟨found, between, _, hRest⟩
  split at hRest
  · cases hRest
  · rcases exists_of_perform_bind hRest with
      ⟨report, later, _, hDone⟩
    cases hDone
    rfl

theorem follows_registerScript
    {metadata : Cargo.Metadata}
    {manifest : Text}
    {binary : Option OsText}
    (script : Text)
    (hFiles :
      ∀ path ∈
          (registerEffect metadata manifest binary).files,
        region.Admits outside.directory.names path) :
    Follows outside metadata.root (Tree.ChangesWithin region)
      (registerEffect metadata manifest binary).change?
      session
      (registerScript metadata manifest script binary
        false) := by
  refine .ofExcept_bind fun name hName => ?_
  dsimp only
  unfold registerEffect at hFiles ⊢
  rw [hName] at hFiles ⊢
  dsimp only at hFiles ⊢
  cases hMember : metadata.findMember? name with
  | some member =>
      rw [hMember] at hFiles
      dsimp only at hFiles ⊢
      have hManifest := hFiles _ List.mem_cons_self
      have hSource :=
        hFiles _ (List.mem_cons_of_mem _ List.mem_cons_self)
      refine
        .of_keeps
          (StaysWithin.bind (.of_onlyAsks (.logInfo _))
            (fun _ => ?_) session)
      exact
        staysWithin_writeSources manifest script name
          hManifest hSource
  | none =>
      rw [hMember] at hFiles
      dsimp only at hFiles ⊢
      have hManifest := hFiles _ List.mem_cons_self
      have hSource :=
        hFiles _ (List.mem_cons_of_mem _ List.mem_cons_self)
      refine
        .bind_back (follows_addPackage name)
          fun path between hRun => ?_
      cases manifest_of_addPackage hRun
      exact
        staysWithin_writeSources manifest script name
          hManifest hSource between

/- The files of a script are put before it is a member. -/
theorem follows_importScript
    {script : Text}
    {directoryFor : Text → Path}
    (hPlace : Tree.parentName ∉ outside.directory.names)
    (hFiles :
      ∀ path ∈ (scriptEffect directoryFor script).files,
        region.Admits outside.directory.names path) :
    Follows outside root (Tree.ChangesWithin region)
      (scriptEffect directoryFor script).change? session
      (importScript root script directoryFor false) := by
  unfold Follows
  rw [perform_importScript]
  unfold scriptEffect at hFiles ⊢
  cases hPackage : packageIn script with
  | error failure =>
      exact .kept (.refl region session.tree)
  | ok found =>
      rcases found with ⟨files, name⟩
      rw [hPackage] at hFiles
      dsimp only at hFiles ⊢
      have hPut :
          (putPackage root (directoryFor name) files name
              false :
              Action ω Text) =
            (do
              Files.makeDirectories
                ((directoryFor name).join "src") false
              Files.writeAll
                (packageFiles (directoryFor name)
                  files.manifest files.source)
                false) >>=
              fun _ =>
                Membership.modify root
                    (.addMember (directoryFor name)) false >>=
                  fun _ => pure name := by
        simp only [bind_assoc]
        rfl
      rw [hPut]
      exact
        Follows.bind_front (staysFrom_putFiles hPlace hFiles)
          fun _ between _ => .modify_bind_pure between root _

theorem follows_clone
    {client : GistClient}
    {gistId : Text}
    {gistIds : GistIds}
    {directoryFor : Text → Path}
    (hPlace : Tree.parentName ∉ outside.directory.names)
    (hFiles :
      ∀ path ∈
          ((Task.cloning client gistId gistIds
            directoryFor).effect outside session root).files,
        region.Admits outside.directory.names path) :
    Follows outside root (Tree.ChangesWithin region)
      ((Task.cloning client gistId gistIds
        directoryFor).effect outside session root).change?
      session
      (Sync.clone client gistId root gistIds directoryFor
        false) := by
  have hFetched :
      StaysFrom outside region session
        (client.retrieve gistId) :=
    .of_onlyAsks (client.onlyAsks_retrieve gistId)
  refine .bind_front hFetched fun remote between hRun => ?_
  have hRemote :
      remoteScript? outside session client gistId =
        some remote.content := by
    rw [remoteScript?, hRun]
  unfold Task.effect at hFiles ⊢
  dsimp only at hFiles ⊢
  rw [hRemote] at hFiles ⊢
  exact
    (follows_importScript hPlace hFiles).bind_back
      fun _ later _ =>
        StaysFrom.of_onlyAsks (.bind_pure (.logInfo _))

theorem follows_newPackage
    {directory : Path}
    {template : Toml.Table}
    {templatePackage : Option Path}
    (name : Option OsText)
    (hFiles :
      ∀ path ∈
          ((Task.creating directory template name
              templatePackage).effect outside session
            root).files,
        region.Admits outside.directory.names path) :
    Follows outside root (Tree.ChangesWithin region)
      (some (.addMember directory)) session
      (newPackage root directory template name
        templatePackage false) := by
  rcases List.forall_mem_cons.mp hFiles with
    ⟨hManifest, hTargets⟩
  have hAbove := hManifest.directories
  rw [parent_manifestIn] at hAbove
  refine .ofExcept_bind fun name _ => ?_
  refine
    .bind_front (staysFrom_layOut hTargets)
      fun document between _ => ?_
  have hRenamed :
      StaysFrom outside region between
        (Manifest.renamePackage document name) :=
    .of_onlyAsks (Manifest.onlyAsks_renamePackage _ _)
  refine .bind_front hRenamed fun renamed later _ => ?_
  refine
    .bind_front
      (Files.staysWithin_makeDirectories hAbove later)
      fun _ made _ => ?_
  refine
    .bind_front
      (Files.staysWithin_writeIfText _ hManifest.file made)
      fun _ written _ => ?_
  exact .modify_bind_pure written root _

/- Removing a package keeps a file that is left. -/
theorem follows_removing
    (location : Location)
    (directory : Path) :
    Follows outside root (Tree.KeepsFile location)
      (some (.removal directory)) session
      ((Task.removing directory).run root false) := by
  exact
    .bind_back (.modify session root _) fun _ between _ =>
      Files.keepsFile_removeTree location between directory

namespace Task

/- A task that is run dry changes no file at all. -/
theorem onlyAsks_run (root : Path) (task : Task) :
    (task.run root true).OnlyAsks outside := by
  cases task with
  | including path =>
      exact .bind_pure (Membership.onlyAsks_modify _ _)
  | excluding path =>
      exact .bind_pure (Membership.onlyAsks_modify _ _)
  | removing directory =>
      exact
        .bind (Membership.onlyAsks_modify _ _) fun _ =>
          Files.onlyAsks_removeTree directory
  | registering metadata manifest script binary =>
      exact .bind_pure (onlyAsks_registerScript _ _ _ _)
  | importing script directoryFor =>
      exact .bind_pure (onlyAsks_importScript _ _ _)
  | creating directory template name templatePackage =>
      exact .bind_pure (onlyAsks_newPackage _ _ _ _ _)
  | cloning client gistId gistIds directoryFor =>
      exact .bind_pure (Sync.onlyAsks_clone _ _ _ _ _)

/- A task that removes nothing keeps to its effect. -/
theorem follows_run
    {task : Task}
    (hPlace : Tree.parentName ∉ outside.directory.names)
    (hStays : ∀ directory, task ≠ .removing directory)
    (hFiles :
      ∀ path ∈ (task.effect outside session root).files,
        region.Admits outside.directory.names path) :
    Follows outside root (Tree.ChangesWithin region)
      (task.effect outside session root).change? session
      (task.run root false) := by
  cases task with
  | including path => exact .modify_bind_pure session root _
  | excluding path => exact .modify_bind_pure session root _
  | removing directory => exact absurd rfl (hStays directory)
  | registering metadata manifest script binary =>
      exact
        .bind_pure (follows_registerScript script hFiles)
  | importing script directoryFor =>
      exact .bind_pure (follows_importScript hPlace hFiles)
  | creating directory template name templatePackage =>
      exact .bind_pure (follows_newPackage name hFiles)
  | cloning client gistId gistIds directoryFor =>
      exact .bind_pure (follows_clone hPlace hFiles)

/- Every task keeps a file that is none of its own. -/
theorem keeping_run
    {task : Task}
    {location : Location}
    (hPlace : Tree.parentName ∉ outside.directory.names)
    (hFiles :
      ∀ path ∈ (task.effect outside session root).files,
        spelledLocation outside.directory.names path ≠
          location) :
    Follows outside root (Tree.KeepsFile location)
      (task.effect outside session root).change? session
      (task.run root false) := by
  by_cases hRemoves : ∃ directory, task = .removing directory
  · rcases hRemoves with ⟨directory, rfl⟩
    exact follows_removing location directory
  · let elsewhere : Region :=
      { files := (· ≠ location), directories := fun _ => True }
    have hCourse :
        Follows outside root (Tree.ChangesWithin elsewhere)
          (task.effect outside session root).change? session
          (task.run root false) := by
      refine follows_run hPlace ?_ fun path hMem => ?_
      · exact fun directory hTask => hRemoves ⟨directory, hTask⟩
      · exact ⟨hFiles path hMem, fun _ => trivial⟩
    exact
      hCourse.imp fun tree other hChanges =>
        hChanges.keepsFile (not_not_intro rfl)

end Task

end Tasks

end Workspace

end ScriptWorkspace
