import ScriptWorkspace.Proofs.Session.Reading
import ScriptWorkspace.Workspace.Membership

/-
  What a change of the members of a workspace comes to.

  The change is worked out from the text of the manifest
  alone: it fails, or it comes to a document and what was
  changed in it. Only then the manifest is written, if it is
  another text and the change is not run dry.

  Main declarations:
    * `Action.Computes`
    * `Membership.plannedList`
    * `Membership.planned`
    * `Membership.ModifyRun`
    * `Membership.modify_runs`
-/

namespace ScriptWorkspace

variable {ω α β : Type}
variable {outside : Outside ω}

------------------------------------------------------------
-- Computations
------------------------------------------------------------

namespace Action

/-
  Wherever the operation begins, it comes to the result, and
  nothing but the log changes.
-/
def Computes
    (outside : Outside ω)
    (action : Action ω α)
    (result : Except Failure α) : Prop :=
  ∀ session : Session ω,
    ∃ after, Performs action outside session [] result after

namespace Computes

theorem pure (result : α) :
    Computes outside (Pure.pure result) (.ok result) :=
  fun session => ⟨session, .pure result⟩

theorem ofExcept (result : Except Failure α) :
    Computes outside (Action.ofExcept result) result :=
  fun session => ⟨session, .ofExcept result⟩

theorem log (level : Level) (parts : List OsText) :
    Computes outside (Action.log level parts) (.ok ()) := by
  intro session
  refine ⟨_, rfl, ?_⟩
  exact
    { worlds := .none session.world
      requests := by simp
      log := List.prefix_append _ _
      others := rfl }

/- What follows a computation starts from its result. -/
theorem bind
    {action : Action ω α}
    {next : α → Action ω β}
    {first : Except Failure α}
    {result : α → Except Failure β}
    (hAction : Computes outside action first)
    (hNext :
      ∀ value, Computes outside (next value) (result value)) :
    Computes outside (action >>= next)
      (first >>= result) := by
  intro session
  rcases hAction session with ⟨between, hFirst⟩
  cases first with
  | error failure =>
      exact ⟨between, hFirst.bind_error next⟩
  | ok value =>
      rcases hNext value between with ⟨after, hSecond⟩
      exact ⟨after, hFirst.bind_quiet hSecond⟩

/- A computation that comes to a result for sure. -/
theorem bind_ok
    {action : Action ω α}
    {next : α → Action ω β}
    {value : α}
    {result : Except Failure β}
    (hAction : Computes outside action (.ok value))
    (hNext : Computes outside (next value) result) :
    Computes outside (action >>= next) result := by
  intro session
  rcases hAction session with ⟨between, hFirst⟩
  rcases hNext between with ⟨after, hSecond⟩
  exact ⟨after, hFirst.bind_quiet hSecond⟩

end Computes

end Action

namespace Membership

open ScriptWorkspace.Action
open Toml.Layout (Group Document)

------------------------------------------------------------
-- Lists
------------------------------------------------------------

/- A list and the progress after a path is added. -/
def plannedAdd
    (root : Path)
    (listing : Listing)
    (path : Path)
    (groups : List Group)
    (progress : Progress) :
    Except Failure (List Group × Progress) := do
  let target ← relativeToRoot root path
  match indexOf? root target groups with
  | some _ => return (groups, progress)
  | none =>
    pure
      (Toml.Layout.appendItem
          (Toml.Layout.quotedItem target) groups,
        { progress with
          added := progress.added.add listing target })

/- A list and the progress after a path is removed. -/
def plannedRemove
    (root : Path)
    (listing : Listing)
    (path : Path)
    (groups : List Group)
    (progress : Progress) :
    Except Failure (List Group × Progress) := do
  let target ← relativeToRoot root path
  match indexOf? root target groups with
  | none => return (groups, progress)
  | some index =>
    pure
      (Toml.Layout.removeItem index groups,
        { progress with
          removed := progress.removed.add listing target })

/- What is done for a path, if there is one to be changed. -/
def forPath
    (step :
      Path →
      List Group →
      Progress →
      Except Failure (List Group × Progress))
    (path : Option Path)
    (groups : List Group)
    (progress : Progress) :
    Except Failure (List Group × Progress) :=
  match path with
  | none => .ok (groups, progress)
  | some path => step path groups progress

/- The progress after one list is changed. -/
def plannedList
    (root : Path)
    (listing : Listing)
    (change : ListChange)
    (progress : Progress) : Except Failure Progress :=
  if change = .none then
    .ok progress
  else do
    let opened ←
      openList listing change.add.isSome progress.document
    match opened with
    | none => return progress
    | some (groups, document) => do
      let (groups, progress) ←
        forPath (plannedAdd root listing) change.add groups
          { progress with document }
      let (groups, progress) ←
        forPath (plannedRemove root listing) change.remove
          groups progress
      pure
        { progress with
          document :=
            putList listing groups progress.document }

theorem computes_addTo
    (root : Path)
    (listing : Listing)
    (dryRun : Bool)
    (path : Path)
    (groups : List Group)
    (progress : Progress) :
    Computes outside
      (addTo root listing dryRun path groups progress)
      (plannedAdd root listing path groups progress) := by
  refine .bind (.ofExcept _) fun target => ?_
  cases indexOf? root target groups with
  | some index => exact .bind_ok (.log _ _) (.pure _)
  | none => exact .bind_ok (.log _ _) (.pure _)

theorem computes_removeFrom
    (root : Path)
    (listing : Listing)
    (dryRun : Bool)
    (path : Path)
    (groups : List Group)
    (progress : Progress) :
    Computes outside
      (removeFrom root listing dryRun path groups progress)
      (plannedRemove root listing path groups progress) := by
  refine .bind (.ofExcept _) fun target => ?_
  cases indexOf? root target groups with
  | some index => exact .bind_ok (.log _ _) (.pure _)
  | none => exact .bind_ok (.log _ _) (.pure _)

/- Changing a list comes to the same when it is run dry. -/
theorem computes_changeList
    (root : Path)
    (listing : Listing)
    (dryRun : Bool)
    (change : ListChange)
    (progress : Progress) :
    Computes outside
      (changeList root listing dryRun change progress)
      (plannedList root listing change progress) := by
  unfold changeList plannedList
  split
  · exact .pure progress
  · refine .bind (.ofExcept _) fun opened => ?_
    rcases opened with _ | ⟨groups, document⟩
    · exact .pure progress
    · rcases change with ⟨add, remove⟩
      have hRemove
          (groups : List Group)
          (progress : Progress) :
          Computes outside
            (do
              let (groups, progress) ←
                match remove with
                | none => pure (groups, progress)
                | some path =>
                  removeFrom root listing dryRun path groups
                    progress
              pure
                { progress with
                  document :=
                    putList listing groups
                      progress.document } :
              Action ω Progress)
            (do
              let (groups, progress) ←
                forPath (plannedRemove root listing) remove
                  groups progress
              pure
                { progress with
                  document :=
                    putList listing groups
                      progress.document }) := by
        cases remove with
        | none => exact .bind_ok (.pure _) (.pure _)
        | some path =>
            exact
              .bind (computes_removeFrom _ _ _ _ _ _)
                fun _ => .pure _
      cases add with
      | none => exact .bind_ok (.pure _) (hRemove _ _)
      | some path =>
          exact
            .bind (computes_addTo _ _ _ _ _ _)
              fun next => hRemove next.1 next.2

------------------------------------------------------------
-- Changes
------------------------------------------------------------

/- The progress after both lists of a document are changed. -/
def planned
    (root : Path)
    (change : Change)
    (document : Document) : Except Failure Progress := do
  let progress ←
    plannedList root .members change.members
      { document, added := .none, removed := .none }
  plannedList root .exclude change.exclude progress

/- The document of the manifest of a workspace. -/
def documentOf
    (root : Path)
    (original : Text) : Except Failure Document :=
  Manifest.editable
    (fun reasons =>
      .manifest
        (.notEditable (root.join Manifest.fileName) reasons))
    original

/- The progress that a change comes to from a text. -/
def plannedIn
    (root : Path)
    (change : Change)
    (original : Text) : Except Failure Progress := do
  planned root change (← documentOf root original)

/- The text of a manifest, and the progress from it. -/
def plannedFrom
    (place : Storage.Location)
    (tree : Storage.Tree)
    (root : Path)
    (change : Change) : Except Failure (Text × Progress) := do
  let original ←
    Files.textAt place tree (root.join Manifest.fileName)
  let progress ← plannedIn root change original
  return (original, progress)

/- What is reported of the progress. -/
def Progress.report
    (root : Path)
    (progress : Progress) : Report :=
  { manifest := root.join Manifest.fileName
    added := progress.added
    removed := progress.removed }

/- The text of the manifest that the progress leads to. -/
def Progress.text (progress : Progress) : Text :=
  Toml.Layout.render progress.document

/- The record of a manifest that is left as it is. -/
def currentRecord (root : Path) : LogRecord :=
  { level := .info
    message :=
      ([(root.join Manifest.fileName).text,
        " is up to date"] : List OsText).flatten }

/- A session with one more record in its log. -/
def logged
    (record : LogRecord)
    (session : Session ω) : Session ω :=
  { session with log := session.log ++ [record] }

/-
  A run of a change of the members of a workspace, from a
  session that comes before it only in its log.
-/
inductive ModifyRun
    (outside : Outside ω)
    (root : Path)
    (change : Change)
    (dryRun : Bool)
    (session : Session ω) :
    Except Failure Report → Session ω → Prop
  | failed
      {failure : Failure}
      {after : Session ω}
      (hPlan :
        plannedFrom outside.directory.names session.tree root
            change =
          .error failure)
      (hAfter : session.IsAfter outside [] after) :
      ModifyRun outside root change dryRun session
        (.error failure) after
  | current
      {original : Text}
      {progress : Progress}
      {between : Session ω}
      (hPlan :
        plannedFrom outside.directory.names session.tree root
            change =
          .ok (original, progress))
      (hSame : progress.text = original)
      (hBetween : session.IsAfter outside [] between) :
      ModifyRun outside root change dryRun session
        (.ok (progress.report root))
        (logged (currentRecord root) between)
  | dry
      {original : Text}
      {progress : Progress}
      {between : Session ω}
      (hPlan :
        plannedFrom outside.directory.names session.tree root
            change =
          .ok (original, progress))
      (hOther : progress.text ≠ original)
      (hDryRun : dryRun = true)
      (hBetween : session.IsAfter outside [] between) :
      ModifyRun outside root change dryRun session
        (.ok (progress.report root))
        (logged
          (Files.writtenRecord true
            (root.join Manifest.fileName))
          between)
  | written
      {original : Text}
      {progress : Progress}
      {between : Session ω}
      {location : Storage.Location}
      (hPlan :
        plannedFrom outside.directory.names session.tree root
            change =
          .ok (original, progress))
      (hOther : progress.text ≠ original)
      (hDryRun : dryRun = false)
      (hBetween : session.IsAfter outside [] between)
      (hLocation :
        session.tree.resolve outside.directory.names
            (root.join Manifest.fileName) =
          .ok location) :
      ModifyRun outside root change dryRun session
        (.ok (progress.report root))
        (logged
          (Files.writtenRecord false
            (root.join Manifest.fileName))
          { between with
            tree :=
              session.tree.set location
                (.file (.text progress.text)) })

/- What is left to do when a change has been worked out. -/
def finish
    (root : Path)
    (dryRun : Bool)
    (original : Text)
    (progress : Progress) : Action ω Report := do
  let manifest := root.join Manifest.fileName
  if progress.text = original then
    Action.logInfo [manifest.text, " is up to date"]
  else
    Files.write manifest progress.text dryRun
  return progress.report root

/- Working out a change from the text of the manifest. -/
def workOut
    (root : Path)
    (change : Change)
    (dryRun : Bool)
    (original : Text) : Action ω Progress := do
  let document ← Action.ofExcept (documentOf root original)
  let progress ←
    changeList root .members dryRun change.members
      { document, added := .none, removed := .none }
  changeList root .exclude dryRun change.exclude progress

theorem modify_eq
    (root : Path)
    (change : Change)
    (dryRun : Bool) :
    (modify root change dryRun : Action ω Report) =
      Files.read (root.join Manifest.fileName) >>=
        fun original =>
          workOut root change dryRun original >>=
            finish root dryRun original := by
  simp only [workOut, bind_assoc]
  rfl

theorem computes_workOut
    (root : Path)
    (change : Change)
    (dryRun : Bool)
    (original : Text) :
    Computes outside (workOut root change dryRun original)
      (plannedIn root change original) :=
  .bind (.ofExcept _) fun _ =>
    .bind (computes_changeList root .members dryRun _ _)
      fun progress =>
        computes_changeList root .exclude dryRun _ progress

/- A change is finished once it has been worked out. -/
theorem perform_modify
    (outside : Outside ω)
    (session : Session ω)
    (root : Path)
    (change : Change)
    (dryRun : Bool) :
    ∃ between,
      session.IsAfter outside [] between ∧
        (modify root change dryRun).perform outside session =
          match
            plannedFrom outside.directory.names session.tree
              root change
            with
          | .error failure => (.error failure, between)
          | .ok (original, progress) =>
            (finish root dryRun original progress).perform
              outside between := by
  unfold plannedFrom
  rw [modify_eq, Action.perform_bind, Files.perform_read]
  cases
    Files.textAt outside.directory.names session.tree
      (root.join Manifest.fileName) with
  | error failure => exact ⟨session, .refl session, rfl⟩
  | ok original =>
      rcases computes_workOut root change dryRun original
          session with
        ⟨between, hWork⟩
      refine ⟨between, hWork.isAfter, ?_⟩
      dsimp only
      rw [Action.perform_bind, hWork.run]
      cases hPlan : plannedIn root change original with
      | error failure => simp [bind, Except.bind, hPlan]
      | ok progress =>
          simp [bind, Except.bind, pure, Except.pure, hPlan]

/- A change is worked out only from a text that is read. -/
theorem textAt_of_plannedFrom
    {place : Storage.Location}
    {tree : Storage.Tree}
    {root : Path}
    {change : Change}
    {original : Text}
    {progress : Progress}
    (hPlan :
      plannedFrom place tree root change =
        .ok (original, progress)) :
    Files.textAt place tree (root.join Manifest.fileName) =
        .ok original ∧
      plannedIn root change original = .ok progress := by
  unfold plannedFrom at hPlan
  cases hText :
      Files.textAt place tree (root.join Manifest.fileName)
    with
  | error failure =>
      rw [hText] at hPlan
      cases hPlan
  | ok text =>
      rw [hText] at hPlan
      cases hProgress : plannedIn root change text with
      | error failure =>
          simp only [bind, Except.bind, hProgress] at hPlan
          cases hPlan
      | ok found =>
          simp only [bind, Except.bind, hProgress] at hPlan
          cases hPlan
          exact ⟨rfl, hProgress⟩

/- A change ends in one of the ways above. -/
theorem modify_runs
    (outside : Outside ω)
    (session : Session ω)
    (root : Path)
    (change : Change)
    (dryRun : Bool) :
    ∃ result after,
      (modify root change dryRun).perform outside session =
          (result, after) ∧
        ModifyRun outside root change dryRun session result
          after := by
  rcases perform_modify outside session root change dryRun
    with ⟨between, hBetween, hRun⟩
  rw [hRun]
  have hTree : between.tree = session.tree := by
    rw [hBetween.others]
  cases hPlan :
      plannedFrom outside.directory.names session.tree root
        change with
  | error failure =>
      exact ⟨_, _, rfl, .failed hPlan hBetween⟩
  | ok found =>
      rcases found with ⟨original, progress⟩
      dsimp only [finish]
      by_cases hSame : progress.text = original
      · rw [if_pos hSame]
        exact ⟨_, _, rfl, .current hPlan hSame hBetween⟩
      · rw [if_neg hSame]
        cases hDryRun : dryRun with
        | true =>
            exact ⟨_, _, rfl, .dry hPlan hSame rfl hBetween⟩
        | false =>
            have hText := (textAt_of_plannedFrom hPlan).1
            rcases Files.textAt_eq_ok_iff.mp hText with
              ⟨hUsable, location, hLocation, hFound⟩
            have hFree :
                between.tree.find? location ≠
                  some .directory := by
              rw [hTree, hFound]
              exact nofun
            have hResolved :
                between.tree.resolve outside.directory.names
                    (root.join Manifest.fileName) =
                  .ok location := by
              rw [hTree, hLocation]
            have hWrite :=
              Files.perform_write progress.text hUsable
                hResolved hFree
            rw [hTree] at hWrite
            rw [Action.perform_bind, hWrite]
            exact
              ⟨_, _, rfl,
                .written hPlan hSame rfl hBetween hLocation⟩

end Membership

end ScriptWorkspace
