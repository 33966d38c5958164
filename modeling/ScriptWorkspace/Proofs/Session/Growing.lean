import ScriptWorkspace.Proofs.Session.Staying
import ScriptWorkspace.Workspace.Scripts

/-
  Reading from trees that grow.

  What can be told of a path in a tree that has grown could be
  told before: the question has an answer there, although it
  may be another one. Writing a text that is not there yet and
  making directories let a tree grow.

  Main declarations:
    * `Files.exists_existsAt`
    * `Files.exists_textAt`
    * `Workspace.currentAt`
    * `Workspace.exists_currentAt`
    * `Workspace.growsInto_of_writeUnlessCurrent`
-/

namespace ScriptWorkspace

open Storage Storage.Calls

variable {ω : Type}
variable {outside : Outside ω}

namespace Files

variable {place location : Location}
variable {tree other : Tree}
variable {path : Path}

------------------------------------------------------------
-- Asking
------------------------------------------------------------

/- There is a node where the path leads to. -/
theorem existsAt_eq_true_iff :
    existsAt place tree path = .ok true ↔
      isUsable path = true ∧
        ∃ location node,
          tree.resolve place path = .ok location ∧
            tree.find? location = some node := by
  unfold existsAt Calls.pathExists Storage.Tree.node
  cases isUsable path with
  | false => simp
  | true =>
      cases tree.resolve place path with
      | error kind =>
          simp only [bind, Except.bind]
          cases kind <;> simp
      | ok location =>
          simp only [bind, Except.bind]
          cases hFound : tree.find? location with
          | none =>
              simp [throw, throwThe, MonadExceptOf.throw,
                hFound]
          | some node => simp [pure, Except.pure, hFound]

/- Whether there is a node is told by where the path leads. -/
theorem existsAt_of_resolve
    {found : Bool}
    (hUsable : isUsable path = true)
    (hResolved : tree.resolve place path = .ok location)
    (hFound : existsAt place tree path = .ok found) :
    found = (tree.find? location).isSome := by
  unfold existsAt Calls.pathExists Storage.Tree.node at hFound
  rw [hUsable, if_pos rfl, hResolved] at hFound
  simp only [bind, Except.bind] at hFound
  cases hNode : tree.find? location with
  | none =>
      simp [throw, throwThe, MonadExceptOf.throw, hNode]
        at hFound
      simp [hFound]
  | some node =>
      simp [pure, Except.pure, hNode] at hFound
      simp [hFound]

/- The question fails if the path can lead nowhere. -/
theorem resolve_of_existsAt_eq_error
    {failure : Failure}
    (hFault : existsAt place tree path = .error failure) :
    ∃ kind,
      tree.resolve place path = .error kind ∧
        kind ≠ .notFound ∧ kind ≠ .notDirectory := by
  unfold existsAt Calls.pathExists Storage.Tree.node at hFault
  cases hUsable : isUsable path with
  | false => simp [hUsable] at hFault
  | true =>
      rw [hUsable, if_pos rfl] at hFault
      cases hResolved : tree.resolve place path with
      | ok location =>
          rw [hResolved] at hFault
          simp only [bind, Except.bind] at hFault
          cases hNode : tree.find? location with
          | none =>
              simp [throw, throwThe, MonadExceptOf.throw,
                hNode] at hFault
          | some node =>
              simp [pure, Except.pure, hNode] at hFault
      | error kind =>
          rw [hResolved] at hFault
          refine ⟨kind, rfl, ?_, ?_⟩
          · rintro rfl
            simp [bind, Except.bind] at hFault
          · rintro rfl
            simp [bind, Except.bind] at hFault

theorem existsAt_of_resolve_eq_error
    {kind : FaultKind}
    (hUsable : isUsable path = true)
    (hMissing : kind ≠ .notFound)
    (hNotDirectory : kind ≠ .notDirectory)
    (hFault : tree.resolve place path = .error kind) :
    existsAt place tree path =
      .error (.unexpected (.system (about path kind))) := by
  unfold existsAt Calls.pathExists Storage.Tree.node
  rw [hUsable, hFault]
  cases kind <;>
    first
    | exact absurd rfl hMissing
    | exact absurd rfl hNotDirectory
    | rfl

/- What is told of a tree that grew could be told before. -/
theorem exists_existsAt
    {found : Bool}
    (hGrows : tree.GrowsInto other)
    (hFound : existsAt place other path = .ok found) :
    ∃ earlier, existsAt place tree path = .ok earlier := by
  cases hEarlier : existsAt place tree path with
  | ok earlier => exact ⟨earlier, rfl⟩
  | error failure =>
      rcases resolve_of_existsAt_eq_error hEarlier with
        ⟨kind, hFault, hMissing, hNotDirectory⟩
      cases hUsable : isUsable path with
      | false =>
          unfold existsAt at hEarlier
          rw [hUsable] at hEarlier
          cases hEarlier
      | true =>
          rw [existsAt_of_resolve_eq_error hUsable hMissing
            hNotDirectory
            (hGrows.resolve_eq_error hMissing hNotDirectory
              hFault)] at hFound
          cases hFound

/- What is a text in a tree that grew was one before. -/
theorem exists_textAt
    {text : Text}
    (hGrows : tree.GrowsInto other)
    (hFound : existsAt place tree path = .ok true)
    (hText : textAt place other path = .ok text) :
    ∃ earlier, textAt place tree path = .ok earlier := by
  rcases existsAt_eq_true_iff.mp hFound with
    ⟨hUsable, location, node, hResolved, hNode⟩
  rcases textAt_eq_ok_iff.mp hText with
    ⟨_, goal, hGoal, hLater⟩
  have hSame : goal = location := by
    have hBoth := hGrows.resolve_eq_ok hResolved
    rw [hGoal] at hBoth
    cases hBoth
    rfl
  subst hSame
  rcases hGrows goal node hNode with ⟨left, hLeft, hBecomes⟩
  rw [hLater] at hLeft
  cases hLeft
  cases hBecomes with
  | same =>
      exact
        ⟨text,
          textAt_eq_ok_iff.mpr
            ⟨hUsable, goal, hResolved, hNode⟩⟩
  | rewritten old =>
      exact
        ⟨old,
          textAt_eq_ok_iff.mpr
            ⟨hUsable, goal, hResolved, hNode⟩⟩

------------------------------------------------------------
-- Changing
------------------------------------------------------------

/- Only directories are made, and nothing else happens. -/
theorem gainsDirectories_of_makeDirectories
    {session done : Session ω}
    {result : Except Failure Unit}
    (hRun :
      (makeDirectories path false).perform outside session =
        (result, done)) :
    session.tree.GainsDirectories done.tree := by
  let directories : Region :=
    { files := fun _ => False, directories := fun _ => True }
  have hStays :
      Action.StaysFrom outside directories session
        (makeDirectories path false) :=
    staysWithin_makeDirectories (fun _ => trivial) session
  unfold Action.StaysFrom at hStays
  rw [hRun] at hStays
  exact hStays.gainsDirectories fun _ => id

end Files

------------------------------------------------------------
-- Files That Are Kept Current
------------------------------------------------------------

namespace Workspace

variable {place : Location}
variable {tree other : Tree}
variable {path : Path}
variable {content : Text}

/- Whether there is a file with the content in a tree. -/
def currentAt
    (place : Location)
    (tree : Tree)
    (path : Path)
    (content : Text) : Except Failure Bool :=
  match Files.existsAt place tree path with
  | .error failure => .error failure
  | .ok false => .ok false
  | .ok true =>
    (Files.textAt place tree path).map (· == content)

/- A file is written if it does not have the content. -/
theorem perform_writeUnlessCurrent
    (outside : Outside ω)
    (session : Session ω)
    (path : Path)
    (content : Text)
    (dryRun : Bool) :
    (writeUnlessCurrent path content dryRun).perform outside
        session =
      match
        currentAt outside.directory.names session.tree path
          content
      with
      | .error failure => (.error failure, session)
      | .ok true =>
        (do
          Action.logInfo [path.text, " is up to date"]
          return false : Action ω Bool).perform outside
            session
      | .ok false =>
        (do
          Files.write path content dryRun
          return true : Action ω Bool).perform outside
            session := by
  unfold writeUnlessCurrent currentAt
  rw [Action.perform_bind, Files.perform_pathExists]
  cases
    Files.existsAt outside.directory.names session.tree path
    with
  | error failure => rfl
  | ok found =>
      cases found with
      | false => rfl
      | true =>
          dsimp only
          rw [if_pos rfl, Action.perform_bind,
            Files.perform_read]
          cases
            Files.textAt outside.directory.names session.tree
              path with
          | error failure => rfl
          | ok text =>
              simp only [Except.map, pure_bind]
              cases text == content with
              | true => rfl
              | false => rfl

/- It can be told of a tree before it grew. -/
theorem exists_currentAt
    {current : Bool}
    (hGrows : tree.GrowsInto other)
    (hCurrent :
      currentAt place other path content = .ok current) :
    ∃ earlier,
      currentAt place tree path content = .ok earlier := by
  unfold currentAt at hCurrent ⊢
  cases hLater : Files.existsAt place other path with
  | error failure =>
      rw [hLater] at hCurrent
      cases hCurrent
  | ok found =>
      rcases Files.exists_existsAt hGrows hLater with
        ⟨earlier, hEarlier⟩
      rw [hEarlier]
      cases earlier with
      | false => exact ⟨false, rfl⟩
      | true =>
          have hFound : found = true := by
            rcases Files.existsAt_eq_true_iff.mp hEarlier with
              ⟨hUsable, location, node, hResolved, hNode⟩
            rcases hGrows location node hNode with
              ⟨left, hLeft, _⟩
            rw [Files.existsAt_of_resolve hUsable
              (hGrows.resolve_eq_ok hResolved) hLater, hLeft]
            rfl
          subst hFound
          rw [hLater] at hCurrent
          cases hText : Files.textAt place other path with
          | error failure =>
              simp [hText, Except.map] at hCurrent
          | ok text =>
              rcases Files.exists_textAt hGrows hEarlier hText
                with ⟨old, hOld⟩
              refine ⟨old == content, ?_⟩
              simp [hOld, Except.map]

/- What is written over is a text, if it is anything. -/
theorem growsInto_of_writeUnlessCurrent
    {session done : Session ω}
    {written : Bool}
    (hRun :
      (writeUnlessCurrent path content false).perform outside
          session =
        (.ok written, done)) :
    session.tree.GrowsInto done.tree := by
  rw [perform_writeUnlessCurrent] at hRun
  cases hCurrent :
      currentAt outside.directory.names session.tree path
        content with
  | error failure =>
      rw [hCurrent] at hRun
      cases hRun
  | ok current =>
      rw [hCurrent] at hRun
      cases current with
      | true =>
          cases hRun
          exact .refl _
      | false =>
          rcases Action.exists_of_perform_bind hRun with
            ⟨_, between, hWrite, hRest⟩
          cases hRest
          rcases Files.exists_set_of_write hWrite with
            ⟨hUsable, location, hResolved, hFree, hTree⟩
          rw [← hTree]
          refine Tree.growsInto_set fun old hOld => ?_
          unfold currentAt at hCurrent
          cases hFound :
              Files.existsAt outside.directory.names
                session.tree path with
          | error failure =>
              rw [hFound] at hCurrent
              cases hCurrent
          | ok found =>
              have hSome :=
                Files.existsAt_of_resolve hUsable hResolved
                  hFound
              rw [hOld] at hSome
              subst hSome
              rw [hFound] at hCurrent
              cases hText :
                  Files.textAt outside.directory.names
                    session.tree path with
              | error failure =>
                  simp [hText, Except.map] at hCurrent
              | ok text =>
                  rcases Files.textAt_eq_ok_iff.mp hText with
                    ⟨_, goal, hGoal, hRead⟩
                  rw [hResolved] at hGoal
                  cases hGoal
                  rw [hOld] at hRead
                  cases hRead
                  exact .rewritten text content

end Workspace

end ScriptWorkspace
