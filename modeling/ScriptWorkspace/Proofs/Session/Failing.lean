import ScriptWorkspace.Proofs.Session.OnlyAsks
import ScriptWorkspace.Workspace.Scripts

/-
  How operations fail.

  An operation that fails does so with one of its steps. What
  reads and writes files fails with a fault of the files, or
  unexpectedly; it is the operations that decide something
  about a workspace that fail with a fault of a workspace.

  Main declarations:
    * `Failure.IsAboutWorkspace`
    * `Action.FailsOn`
    * `Action.failed_of_perform_bind`
    * `Files.failsOn_makeDirectories`
    * `Workspace.failsOn_writeUnlessCurrent`
-/

namespace ScriptWorkspace

variable {ω α β : Type}
variable {outside : Outside ω}

/- The failure is about a manifest, a path or a workspace. -/
def Failure.IsAboutWorkspace : Failure → Prop
  | .manifest _ => True
  | .pathNotText _ => True
  | .workspace _ => True
  | _ => False

namespace Action

variable {session after : Session ω}

/- An operation that fails does so at one of its steps. -/
theorem failed_of_perform_bind
    {action : Action ω α}
    {next : α → Action ω β}
    {failure : Failure}
    (hRun :
      (action >>= next).perform outside session =
        (.error failure, after)) :
    action.perform outside session = (.error failure, after) ∨
      ∃ found between,
        action.perform outside session =
            (.ok found, between) ∧
          (next found).perform outside between =
            (.error failure, after) := by
  rw [perform_bind] at hRun
  cases hFirst : action.perform outside session with
  | mk result between =>
      rw [hFirst] at hRun
      cases result with
      | error fault =>
          cases hRun
          exact .inl rfl
      | ok found => exact .inr ⟨found, between, rfl, hRun⟩

------------------------------------------------------------
-- Failures Of Steps
------------------------------------------------------------

/- The operation fails with some failures only. -/
def FailsOn
    (outside : Outside ω)
    (fails : Failure → Prop)
    (action : Action ω α) : Prop :=
  ∀ session failure after,
    action.perform outside session =
        (.error failure, after) →
      fails failure

namespace FailsOn

variable {fails : Failure → Prop}

theorem pure (result : α) :
    FailsOn outside fails (Pure.pure result : Action ω α) := by
  intro session failure after hRun
  cases hRun

theorem throw
    {failure : Failure}
    (hFails : fails failure) :
    FailsOn outside fails
      (MonadExcept.throw failure : Action ω α) := by
  intro session found after hRun
  cases hRun
  exact hFails

theorem bind
    {action : Action ω α}
    {next : α → Action ω β}
    (hAction : FailsOn outside fails action)
    (hNext : ∀ found, FailsOn outside fails (next found)) :
    FailsOn outside fails (action >>= next) := by
  intro session failure after hRun
  rcases failed_of_perform_bind hRun with
    hFirst | ⟨found, between, _, hRest⟩
  · exact hAction session failure after hFirst
  · exact hNext found between failure after hRest

/- A result that is made of the one of an operation. -/
theorem bind_pure
    {action : Action ω α}
    {make : α → β}
    (hAction : FailsOn outside fails action) :
    FailsOn outside fails
      (action >>= fun found => Pure.pure (make found)) :=
  hAction.bind fun found => .pure (make found)

/- Looking at the files fails in no way. -/
theorem tree : FailsOn outside fails (Action.tree (ω := ω)) := by
  intro session failure after hRun
  cases hRun

theorem directory :
    FailsOn outside fails (Action.directory (ω := ω)) := by
  intro session failure after hRun
  cases hRun

theorem setTree (tree : Storage.Tree) :
    FailsOn outside fails
      (Action.setTree tree : Action ω Unit) := by
  intro session failure after hRun
  cases hRun

theorem logInfo (parts : List OsText) :
    FailsOn outside fails
      (Action.logInfo parts : Action ω Unit) := by
  intro session failure after hRun
  cases hRun

theorem requireUsable
    (hNull : fails (.unexpected .pathWithNull))
    (path : Path) :
    FailsOn outside fails
      (Action.requireUsable path : Action ω Unit) := by
  unfold Action.requireUsable
  split
  · exact .throw hNull
  · exact .pure ()

end FailsOn

end Action

open ScriptWorkspace.Action

/- A failure that is about something else. -/
abbrev Failure.IsElse (failure : Failure) : Prop :=
  ¬ failure.IsAboutWorkspace

------------------------------------------------------------
-- Files
------------------------------------------------------------

namespace Files

variable {path : Path}

theorem failsOn_pathExists (path : Path) :
    FailsOn outside Failure.IsElse (pathExists path) := by
  unfold pathExists
  split
  · exact .pure false
  · refine .bind .tree fun tree => ?_
    refine .bind .directory fun place => ?_
    split
    · exact .pure _
    · exact .throw id

theorem failsOn_read (path : Path) :
    FailsOn outside Failure.IsElse (read path) := by
  refine .bind (.requireUsable id path) fun _ => ?_
  refine .bind .tree fun tree => ?_
  refine .bind .directory fun place => ?_
  split
  case h_1 => exact .throw id
  case h_2 content _ =>
    cases content.toText with
    | ok text => exact .pure text
    | error fault => exact .throw id

theorem failsOn_write
    (path : Path)
    (content : Text) :
    FailsOn outside Failure.IsElse
      (write path content false) := by
  refine .bind (.requireUsable id path) fun _ => ?_
  refine .bind .tree fun tree => ?_
  refine .bind .directory fun place => ?_
  split
  · exact .bind (.setTree _) fun _ => .logInfo _
  · exact .throw id

theorem failsOn_makeDirectories (path : Path) :
    FailsOn outside Failure.IsElse
      (makeDirectories path false) := by
  refine .bind (.requireUsable id path) fun _ => ?_
  refine .bind .tree fun tree => ?_
  refine .bind .directory fun place => ?_
  dsimp only
  refine .bind (.setTree _) fun _ => ?_
  split
  · exact .pure ()
  · exact .throw id

end Files

theorem Workspace.failsOn_writeUnlessCurrent
    (path : Path)
    (content : Text) :
    FailsOn outside Failure.IsElse
      (writeUnlessCurrent path content false) := by
  have hWrite (current : Bool) :
      FailsOn outside Failure.IsElse
        (if current then do
          logInfo [path.text, " is up to date"]
          return false
        else do
          Files.write path content false
          return true) := by
    cases current with
    | true => exact .bind_pure (.logInfo _)
    | false => exact .bind_pure (Files.failsOn_write path content)
  refine .bind (Files.failsOn_pathExists path) fun found => ?_
  cases found with
  | true =>
      exact
        .bind (Files.failsOn_read path) fun text => hWrite _
  | false => exact .bind (.pure false) hWrite

end ScriptWorkspace
