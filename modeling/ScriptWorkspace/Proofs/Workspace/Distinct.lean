import ScriptWorkspace.Proofs.Session.Runs
import ScriptWorkspace.Proofs.Workspace.Rereading

/-
  Lists that name no path twice.

  A path is added only if no entry leads to it, and what is
  added leads to it, however the other entries are spelled. So
  a workspace whose lists name no path twice never comes to
  one whose lists do, whatever changes are made one after
  another.

  Main declarations:
    * `Membership.IsDistinct`
    * `Membership.Call`
    * `Membership.Call.isDistinct_run`
    * `Membership.modifications_keep_distinct`
-/

namespace ScriptWorkspace

namespace Membership

open Storage

variable {ω : Type}
variable {outside : Outside ω}
variable {place : Location}
variable {tree : Tree}
variable {root : Path}

------------------------------------------------------------
-- Distinct Entries
------------------------------------------------------------

/- In no list of the workspace two entries lead to one path. -/
def IsDistinct
    (place : Location)
    (tree : Tree)
    (root : Path) : Prop :=
  ∀ manifest,
    manifestAt place tree root = some manifest →
      ∀ listing : Listing,
        (itemsOf (inWorkspace listing.key manifest)).Pairwise
          fun value other =>
            ∀ entry,
              value.text? = some entry →
                ¬ LeadsAs root entry other

/- That is to say, the roster holds no path twice. -/
theorem isDistinct_iff :
    IsDistinct place tree root ↔
      ∀ roster,
        rosterAt place tree root = some roster →
          ∀ listing, (roster listing).Nodup := by
  unfold IsDistinct rosterAt
  cases manifestAt place tree root with
  | none => simp
  | some manifest =>
      simp only [Option.some.injEq, forall_eq',
        Option.map_some, rosterOf, nodup_pathsOf_iff]

instance
    (place : Location)
    (tree : Tree)
    (root : Path) :
    Decidable (IsDistinct place tree root) :=
  match hRoster : rosterAt place tree root with
  | some roster =>
    decidable_of_iff (∀ listing, (roster listing).Nodup)
      (by simp [isDistinct_iff, hRoster])
  | none => isTrue (by simp [isDistinct_iff, hRoster])

------------------------------------------------------------
-- Calls
------------------------------------------------------------

/- A change that is asked for, to be made or run dry. -/
structure Call where
  change : Change
  dryRun : Bool

/- Make a change, and leave its report. -/
def Call.run (root : Path) (call : Call) : Action ω Unit := do
  let _ ← modify root call.change call.dryRun

/- The session after a change that is asked for. -/
theorem Call.exists_modifyRun
    (outside : Outside ω)
    (session : Session ω)
    (root : Path)
    (call : Call) :
    ∃ result,
      ModifyRun outside root call.change call.dryRun session
        result
        ((call.run root).perform outside session).2 := by
  rcases modify_runs outside session root call.change
      call.dryRun with
    ⟨result, after, hPerform, hRun⟩
  refine ⟨result, ?_⟩
  rw [Call.run, Action.perform_bind, hPerform]
  cases result with
  | error failure => exact hRun
  | ok report => exact hRun

/- One change keeps the entries of each list distinct. -/
theorem Call.isDistinct_run
    {session : Session ω}
    {call : Call}
    (hChange : call.change.IsProper)
    (hReread :
      call.dryRun = false →
        IsReread outside.directory.names session.tree root
          call.change)
    (hBefore :
      IsDistinct outside.directory.names session.tree root) :
    IsDistinct outside.directory.names
      ((call.run root).perform outside session).2.tree root := by
  rcases call.exists_modifyRun outside session root with
    ⟨result, hRun⟩
  rcases rosterAt_of_modify hChange hReread hRun with
    hTree | ⟨roster, hRoster, hAfter⟩
  · rw [hTree]
    exact hBefore
  · refine isDistinct_iff.mpr fun found hFound listing => ?_
    rw [hAfter] at hFound
    cases hFound
    exact
      nodup_applyTo (call.change.of listing)
        (isDistinct_iff.mp hBefore roster hRoster listing)

/-
  Whatever changes are asked for one after another, dry or
  not, and whether they fail or not: a workspace without two
  entries for one path in a list never has two.
-/
theorem modifications_keep_distinct
    (outside : Outside ω)
    (session : Session ω)
    (root : Path)
    (calls : List Call)
    (hCalls : ∀ call ∈ calls, call.change.IsProper)
    (hReread :
      ∀ front call,
        front ++ [call] <+: calls →
          call.dryRun = false →
            IsReread outside.directory.names
              (session.afterSteps outside (Call.run root)
                front).tree
              root call.change)
    (hStart :
      IsDistinct outside.directory.names session.tree root) :
    ∀ front,
      front <+: calls →
        IsDistinct outside.directory.names
          (session.afterSteps outside (Call.run root)
            front).tree
          root := by
  refine
    Session.forall_prefix_of_step
      (fun session =>
        IsDistinct outside.directory.names session.tree root)
      hStart ?_
  intro front call hPrefix hBefore
  have hMem : call ∈ calls :=
    hPrefix.subset (List.mem_append_right _ List.mem_cons_self)
  exact
    Call.isDistinct_run (hCalls call hMem)
      (hReread front call hPrefix) hBefore

/- Members that are added and removed in several ways. -/
def severalCalls : List Call :=
  [{ change := secondMember, dryRun := false },
    { change := .addMember (Path.ofText ("/ws/a" : String))
      dryRun := false },
    { change := .exclusion (Path.ofText ("/ws/a" : String))
      dryRun := true },
    { change := .include (Path.ofText ("/ws/b" : String))
      dryRun := false }]

theorem modifications_keep_distinct_several :
    (∀ call ∈ severalCalls, call.change.IsProper) ∧
      (∀ front call,
        front ++ [call] <+: severalCalls →
          call.dryRun = false →
            IsReread Files.surroundings.directory.names
              (start.afterSteps Files.surroundings
                (Call.run (Path.ofText ("/ws" : String)))
                front).tree
              (Path.ofText ("/ws" : String)) call.change) ∧
        IsDistinct Files.surroundings.directory.names
            start.tree (Path.ofText ("/ws" : String)) ∧
          IsDistinct Files.surroundings.directory.names
            (start.afterSteps Files.surroundings
              (Call.run (Path.ofText ("/ws" : String)))
              severalCalls).tree
            (Path.ofText ("/ws" : String)) := by
  have hCalls :
      ∀ call ∈ severalCalls, call.change.IsProper := by
    decide +kernel
  have hReread :
      ∀ front call,
        front ++ [call] <+: severalCalls →
          call.dryRun = false →
            IsReread Files.surroundings.directory.names
              (start.afterSteps Files.surroundings
                (Call.run (Path.ofText ("/ws" : String)))
                front).tree
              (Path.ofText ("/ws" : String)) call.change := by
    rw [Session.forall_step_iff]
    decide +kernel
  have hStart :
      IsDistinct Files.surroundings.directory.names start.tree
        (Path.ofText ("/ws" : String)) := by
    decide +kernel
  exact
    ⟨hCalls, hReread, hStart,
      modifications_keep_distinct Files.surroundings start
        (Path.ofText ("/ws" : String)) severalCalls hCalls
        hReread hStart severalCalls (List.prefix_refl _)⟩

end Membership

end ScriptWorkspace
