import ScriptWorkspace.Proofs.Session.OnlyAsks
import ScriptWorkspace.Proofs.Session.Reading
import ScriptWorkspace.Proofs.Storage.Regions

/-
  Operations that change files in a region only.

  What such an operation does to the tree stays within the
  region, whether it succeeds or fails. What follows one is
  another one, so it is enough to know the steps: a file is
  written where its path says, and directories are made on
  the way to a path.

  Main declarations:
    * `Action.StaysFrom`
    * `Action.StaysWithin`
    * `Action.StaysFrom.bind`
    * `Action.StaysWithin.forIn`
    * `Files.staysWithin_makeDirectories`
    * `Files.staysWithin_write`
    * `Files.staysFrom_writeAll`
-/

namespace ScriptWorkspace

open Storage Storage.Calls

variable {ω α β : Type}
variable {outside : Outside ω}
variable {region : Region}
variable {session : Session ω}

------------------------------------------------------------
-- Operations
------------------------------------------------------------

namespace Action

/- From the session on, files change in the region only. -/
def StaysFrom
    (outside : Outside ω)
    (region : Region)
    (session : Session ω)
    (action : Action ω α) : Prop :=
  session.tree.ChangesWithin region
    (action.perform outside session).2.tree

/- So it is wherever the operation begins. -/
def StaysWithin
    (outside : Outside ω)
    (region : Region)
    (action : Action ω α) : Prop :=
  ∀ session : Session ω, StaysFrom outside region session action

/- A tree that is set stays, if then things are only asked. -/
theorem keeps_setTree_bind
    (keeps : Tree → Tree → Prop)
    {tree : Tree}
    {next : Unit → Action ω β}
    (hTree : keeps session.tree tree)
    (hNext : (next ()).OnlyAsks outside) :
    keeps session.tree
      ((Action.setTree tree >>= next).perform outside
        session).2.tree := by
  rw [perform_bind]
  have hSame := (hNext { session with tree }).tree
  exact hSame.symm ▸ hTree

namespace StaysFrom

theorem of_onlyAsks
    {action : Action ω α}
    (hAsks : action.OnlyAsks outside) :
    StaysFrom outside region session action :=
  .of_eq (hAsks session).tree

/- What follows an operation runs in the session it left. -/
theorem bind
    {action : Action ω α}
    {next : α → Action ω β}
    (hAction : StaysFrom outside region session action)
    (hNext :
      ∀ result between,
        action.perform outside session =
            (.ok result, between) →
          StaysFrom outside region between (next result)) :
    StaysFrom outside region session (action >>= next) := by
  unfold StaysFrom at hAction ⊢
  rw [perform_bind]
  cases hRun : action.perform outside session with
  | mk result between =>
      rw [hRun] at hAction
      cases result with
      | error failure => exact hAction
      | ok result =>
          exact hAction.trans (hNext result between hRun)

/- What follows a computation runs in the same session. -/
theorem ofExcept_bind
    {computed : Except Failure α}
    {next : α → Action ω β}
    (hNext :
      ∀ found,
        computed = .ok found →
          StaysFrom outside region session (next found)) :
    StaysFrom outside region session
      (Action.ofExcept computed >>= next) := by
  cases computed with
  | error failure => exact .refl region session.tree
  | ok found => exact hNext found rfl

/- The files are looked at. -/
theorem tree_bind
    {next : Tree → Action ω β}
    (hNext :
      StaysFrom outside region session (next session.tree)) :
    StaysFrom outside region session (Action.tree >>= next) :=
  hNext

theorem directory_bind
    {next : Location → Action ω β}
    (hNext :
      StaysFrom outside region session
        (next outside.directory.names)) :
    StaysFrom outside region session
      (Action.directory >>= next) :=
  hNext

/- Nothing follows a path that cannot be used. -/
theorem requireUsable_bind
    {path : Path}
    {next : Unit → Action ω β}
    (hNext :
      Files.isUsable path = true →
        StaysFrom outside region session (next ())) :
    StaysFrom outside region session
      (Action.requireUsable path >>= next) := by
  unfold StaysFrom
  rw [perform_bind, Files.perform_requireUsable]
  cases hUsable : Files.isUsable path with
  | false => exact .refl region session.tree
  | true => exact hNext hUsable

/- The tree is replaced by one that differs in the region. -/
theorem setTree_bind
    {tree : Tree}
    {next : Unit → Action ω β}
    (hTree : session.tree.ChangesWithin region tree)
    (hNext : (next ()).OnlyAsks outside) :
    StaysFrom outside region session
      (Action.setTree tree >>= next) :=
  keeps_setTree_bind (Tree.ChangesWithin region) hTree hNext

end StaysFrom

namespace StaysWithin

theorem of_onlyAsks
    {action : Action ω α}
    (hAsks : action.OnlyAsks outside) :
    StaysWithin outside region action :=
  fun _ => .of_onlyAsks hAsks

theorem bind
    {action : Action ω α}
    {next : α → Action ω β}
    (hAction : StaysWithin outside region action)
    (hNext :
      ∀ found, StaysWithin outside region (next found)) :
    StaysWithin outside region (action >>= next) :=
  fun session =>
    (hAction session).bind fun found between _ =>
      hNext found between

/- A result that is made of the one of an operation. -/
theorem bind_pure
    {action : Action ω α}
    {make : α → β}
    (hAction : StaysWithin outside region action) :
    StaysWithin outside region
      (action >>= fun found => Pure.pure (make found)) :=
  .bind hAction fun _ => .of_onlyAsks (.pure _)

/- A step for each entry. -/
theorem forIn
    {entries : List α}
    {state : β}
    {step : α → β → Action ω (ForInStep β)}
    (hStep :
      ∀ entry ∈ entries,
        ∀ state, StaysWithin outside region (step entry state)) :
    StaysWithin outside region
      (ForIn.forIn entries state step) := by
  induction entries generalizing state with
  | nil => exact .of_onlyAsks (.pure state)
  | cons entry entries ih =>
      rcases List.forall_mem_cons.mp hStep with
        ⟨hFirst, hRest⟩
      rw [List.forIn_cons]
      refine .bind (hFirst state) fun next => ?_
      cases next with
      | done state => exact .of_onlyAsks (.pure state)
      | yield state => exact ih hRest

end StaysWithin

end Action

open ScriptWorkspace.Action

------------------------------------------------------------
-- Files And Directories
------------------------------------------------------------

namespace Files

variable {path : Path}

/- A file is written where its path says. -/
theorem changesWithin_writeFile
    {tree written : Tree}
    {place : Location}
    {content : Content}
    (hInside : region.files (spelledLocation place path))
    (hWrite :
      writeFile tree place path content = .ok written) :
    tree.ChangesWithin region written := by
  rcases writeFile_eq_ok_iff.mp hWrite with
    ⟨location, hResolved, _, rfl⟩
  rw [← spelledLocation_of_resolve hResolved] at hInside
  exact Tree.changesWithin_set _ hInside

theorem staysWithin_write
    (content : Text)
    (hInside :
      region.files
        (spelledLocation outside.directory.names path)) :
    StaysWithin outside region (write path content false) := by
  intro session
  refine .requireUsable_bind fun _ => ?_
  refine .tree_bind (.directory_bind ?_)
  split
  case h_1 written hWrite =>
    exact
      .setTree_bind (changesWithin_writeFile hInside hWrite)
        (.logInfo _)
  case h_2 => exact .refl region session.tree

theorem staysWithin_writeIfText
    (content : Option Text)
    (hInside :
      region.files
        (spelledLocation outside.directory.names path)) :
    StaysWithin outside region
      (writeIfText path content false) := by
  cases content with
  | some text => exact staysWithin_write text hInside
  | none =>
      intro session
      refine .requireUsable_bind fun _ => ?_
      refine .tree_bind (.directory_bind ?_)
      split
      case h_1 written hWrite =>
        exact
          .setTree_bind
            (changesWithin_writeFile hInside hWrite)
            (.throw _)
      case h_2 => exact .refl region session.tree

theorem staysWithin_copy
    (source : Path)
    (hInside :
      region.files
        (spelledLocation outside.directory.names path)) :
    StaysWithin outside region (copy source path false) := by
  intro session
  refine .requireUsable_bind fun _ => ?_
  refine .requireUsable_bind fun _ => ?_
  refine .tree_bind (.directory_bind ?_)
  split
  case h_1 copied hCopy =>
    refine .setTree_bind ?_ (.logInfo _)
    unfold copyFile at hCopy
    split at hCopy
    case isTrue => cases hCopy
    case isFalse =>
      cases hRead :
          readFile session.tree outside.directory.names source
        with
      | error fault =>
          rw [hRead] at hCopy
          cases hCopy
      | ok content =>
          rw [hRead] at hCopy
          exact changesWithin_writeFile hInside hCopy
  case h_2 => exact .refl region session.tree

/- Directories are made on the way to a path. -/
theorem staysWithin_makeDirectories
    (hPath :
      ∀ n,
        region.directories
          (spelledLocation outside.directory.names
            (path.upTo n))) :
    StaysWithin outside region
      (makeDirectories path false) := by
  intro session
  refine .requireUsable_bind fun _ => ?_
  refine .tree_bind (.directory_bind ?_)
  split
  case h_1 made faults hMade =>
    have hChanges :=
      changesWithin_makeDirectories session.tree hPath
    rw [hMade] at hChanges
    refine .setTree_bind hChanges ?_
    split
    · exact .pure ()
    · exact .throw _

/- A path that directories were made for can be used. -/
theorem isUsable_of_makeDirectories
    {result : Unit}
    {between : Session ω}
    (hRun :
      (makeDirectories path false).perform outside session =
        (.ok result, between)) :
    isUsable path = true := by
  rw [makeDirectories, if_neg Bool.false_ne_true,
    perform_bind, perform_requireUsable] at hRun
  cases hUsable : isUsable path with
  | true => rfl
  | false =>
      rw [hUsable] at hRun
      cases hRun

/-
  Files with paths that can be used are replaced, and nothing
  of those that were staged is left.
-/
theorem staysFrom_writeAll
    {files : List (Path × Text)}
    (hPlace : Tree.parentName ∉ outside.directory.names)
    (hNames : AreNotTemporary (files.map Prod.fst))
    (hUsable : ∀ file ∈ files, isUsable file.1 = true)
    (hInside :
      ∀ file ∈ files,
        region.files
          (spelledLocation outside.directory.names file.1)) :
    StaysFrom outside region session
      (writeAll files false) := by
  have hContents :
      ∀ file ∈ contents files,
        region.files
          (spelledLocation outside.directory.names file.1) := by
    intro file hMem
    rcases List.mem_map.mp hMem with ⟨source, hSource, rfl⟩
    exact hInside source hSource
  rcases writeAll_ends outside session files hPlace
      fun _ _ => areApart_of_names hNames with
    ⟨result, after, log, hRun, hReplacement⟩
  unfold StaysFrom
  rw [hRun]
  change session.tree.ChangesWithin region after
  cases hReplacement with
  | notStaged fault => exact .refl region session.tree
  | @unusable front back path text entries _ hFiles hPath
      hStaging hFront =>
      have hMem : (path, text) ∈ files := by
        rw [hFiles]
        simp
      rw [hUsable _ hMem] at hPath
      cases hPath
  | moving hEnd =>
      cases hEnd with
      | moved hTaken =>
          exact changesWithin_putFiles hTaken hContents
      | @stopped front back path content fault hFiles hTaken
          hNot =>
          refine changesWithin_putFiles hTaken ?_
          intro file hMem
          refine hContents file ?_
          rw [hFiles]
          exact List.mem_append_left _ hMem

/- Removing a directory brings no file, whatever comes of it. -/
theorem keepsFile_removeTree
    (location : Location)
    (session : Session ω)
    (path : Path) :
    session.tree.KeepsFile location
      ((removeTree path false).perform outside
        session).2.tree := by
  have hRemoved :
      session.tree.KeepsFile location
        (Calls.removeTree session.tree
          outside.directory.names path).1 :=
    Calls.keepsFile_removeTree session.tree
      outside.directory.names path
  have hTree :
      (Action.tree (ω := ω)).perform outside session =
        (.ok session.tree, session) :=
    rfl
  have hDirectory :
      (Action.directory (ω := ω)).perform outside session =
        (.ok outside.directory.names, session) :=
    rfl
  rw [removeTree, if_neg Bool.false_ne_true, perform_bind,
    perform_requireUsable]
  cases isUsable path with
  | false => exact fun _ hFound => hFound
  | true =>
      rw [if_pos rfl]
      simp only [perform_bind _ _ Action.tree, hTree,
        perform_bind _ _ Action.directory, hDirectory]
      refine
        keeps_setTree_bind (Tree.KeepsFile location) hRemoved ?_
      split
      · exact .throw _
      · exact .logInfo _

end Files

end ScriptWorkspace
