import ScriptWorkspace.Proofs.Workspace.Rereading

/-
  Paths that are removed from a workspace.

  Only the first entry that leads to a path is taken out. So
  the path is gone if and only if one entry at most led to it,
  however it was spelled. In that case the same change made
  again changes nothing, and otherwise it removes another one.

  Main declarations:
    * `Membership.ListChange.IsSettled`
    * `Membership.Edits.changed_eq_false_iff`
    * `Membership.Change.TakesAll`
    * `Membership.WritesBack`
    * `Membership.removed_iff_named_once`
-/

namespace ScriptWorkspace

namespace Membership

open Storage
open Toml.Layout (bodyTable)

variable {ω : Type}
variable {root : Path}

------------------------------------------------------------
-- Settled Lists
------------------------------------------------------------

/- What is to be added is named, and what is removed is not. -/
structure ListChange.IsSettled
    (root : Path)
    (change : ListChange)
    (paths : List Path) : Prop where
  added :
    ∀ path,
      change.add = some path → reached root path ∈ paths
  removed :
    ∀ path,
      change.remove = some path → reached root path ∉ paths

/- The change adds to a list or removes from it, not both. -/
def ListChange.IsSimple (change : ListChange) : Prop :=
  change.add = Option.none ∨ change.remove = Option.none

def Change.IsSimple (change : Change) : Prop :=
  ∀ listing, (change.of listing).IsSimple

section Lists

variable {change : ListChange}
variable {paths : List Path}

/-
  A list on which a simple change was made is settled if each
  path that was removed had been named once at most.
-/
theorem isSettled_applyTo_iff
    (hSimple : change.IsSimple) :
    change.IsSettled root (change.applyTo root paths) ↔
      ∀ path,
        change.remove = some path →
          paths.count (reached root path) ≤ 1 := by
  constructor
  · intro hSettled path hRemove
    exact
      (not_mem_applyTo_iff hRemove).mp
        (hSettled.removed path hRemove)
  · intro hOnce
    constructor
    · intro path hAdd
      have hNone : change.remove = none := by
        rcases hSimple with hNone | hNone
        · rw [hAdd] at hNone
          cases hNone
        · exact hNone
      exact mem_applyTo_of_add hAdd hNone
    · intro path hRemove
      exact
        (not_mem_applyTo_iff hRemove).mpr (hOnce path hRemove)

variable {old new : Option (List Toml)}
variable {texts : List Text}

theorem Adds.eq_nil_iff
    {added : Option Path}
    (hAdds : Adds root added old new texts) :
    texts = [] ↔
      ∀ path,
        added = some path →
          reached root path ∈ pathsOf root (old.getD []) := by
  cases hAdds with
  | nothing => simp
  | @listed path target values hTarget hListed =>
      simpa using (reached_mem_pathsOf_iff hTarget).mpr hListed
  | @appended path target _ hTarget hNew hJoined =>
      simpa using reached_not_mem_pathsOf hTarget hNew

theorem Removes.eq_nil_iff
    {removed : Option Path}
    (hRemoves : Removes root removed old new texts) :
    texts = [] ↔
      ∀ path,
        removed = some path →
          reached root path ∉ pathsOf root (old.getD []) := by
  cases hRemoves with
  | nothing => simp
  | missing path => simp [pathsOf]
  | @unlisted path target values hTarget hNone =>
      simpa using reached_not_mem_pathsOf hTarget hNone
  | @erased path target before after value hTarget hBefore
      hValue =>
      have hMem :
          reached root path ∈
            pathsOf root (before ++ value :: after) :=
        (reached_mem_pathsOf_iff hTarget).mpr
          ⟨value, by simp, hValue⟩
      simpa using hMem

/- Nothing is done to a list exactly if it is settled. -/
theorem EditsList.eq_nil_iff
    {before after : Option Toml}
    {added removed : List Text}
    (hSimple : change.IsSimple)
    (hEdits :
      EditsList root change before after added removed) :
    added = [] ∧ removed = [] ↔
      change.IsSettled root (pathsOf root (itemsOf before)) := by
  cases hEdits with
  | untouched hChange hSame =>
      rw [hChange]
      exact ⟨fun _ => ⟨nofun, nofun⟩, fun _ => ⟨rfl, rfl⟩⟩
  | @edited old middle new _ _ hBefore hAdds hRemoves
      hAfter =>
      rw [hAdds.eq_nil_iff, hRemoves.eq_nil_iff,
        hAdds.pathsOf_eq, hBefore, itemsOf_array]
      -- What is removed is looked for where nothing was added.
      have hSame :
          ∀ path,
            change.remove = some path →
              withAdded root change.add
                  (pathsOf root (old.getD [])) =
                pathsOf root (old.getD []) := by
        intro path hRemove
        rcases hSimple with hNone | hNone
        · rw [hNone]
          rfl
        · rw [hRemove] at hNone
          cases hNone
      constructor
      · rintro ⟨hAdded, hRemoved⟩
        refine ⟨hAdded, fun path hRemove => ?_⟩
        rw [← hSame path hRemove]
        exact hRemoved path hRemove
      · rintro ⟨hAdded, hRemoved⟩
        refine ⟨hAdded, fun path hRemove => ?_⟩
        rw [hSame path hRemove]
        exact hRemoved path hRemove

end Lists

------------------------------------------------------------
-- Settled Workspaces
------------------------------------------------------------

theorem Entries.isEmpty_iff
    {entries : Entries} :
    entries.isEmpty = true ↔
      entries.members = [] ∧ entries.exclude = [] := by
  simp [isEmpty]

/- Nothing is reported exactly if both lists are settled. -/
theorem Edits.changed_eq_false_iff
    {change : Change}
    {before after : Toml.Table}
    {report : Report}
    (hSimple : change.IsSimple)
    (hEdits : Edits root change before after report) :
    report.changed = false ↔
      ∀ listing,
        (change.of listing).IsSettled root
          (rosterOf root before listing) := by
  have hMembers :=
    hEdits.members.eq_nil_iff (hSimple .members)
  have hExclude :=
    hEdits.exclude.eq_nil_iff (hSimple .exclude)
  have hQuiet :
      report.changed = false ↔
        (report.added.members = [] ∧
            report.removed.members = []) ∧
          (report.added.exclude = [] ∧
            report.removed.exclude = []) := by
    rw [Report.changed, Bool.or_eq_false_iff,
      Bool.not_eq_false', Bool.not_eq_false',
      Entries.isEmpty_iff, Entries.isEmpty_iff]
    tauto
  rw [hQuiet, hMembers, hExclude, Listing.forall_iff]
  rfl

/-
  For each path that is removed from a list there is one entry
  at most, so the change takes out all that there are.
-/
def Change.TakesAll
    (root : Path)
    (change : Change)
    (roster : Roster) : Prop :=
  ∀ listing path,
    (change.of listing).remove = some path →
      (roster listing).count (reached root path) ≤ 1

/- A simple change settles what it takes out altogether. -/
theorem isSettled_applyTo_iff_takesAll
    {change : Change}
    {roster : Roster}
    (hSimple : change.IsSimple) :
    (∀ listing,
        (change.of listing).IsSettled root
          (change.applyTo root roster listing)) ↔
      change.TakesAll root roster :=
  forall_congr' fun listing =>
    isSettled_applyTo_iff (hSimple listing)

------------------------------------------------------------
-- The Same Change Again
------------------------------------------------------------

/- A change that does nothing comes to the text it began with. -/
def WritesBack
    (place : Location)
    (tree : Tree)
    (root : Path)
    (change : Change) : Prop :=
  ∀ original progress,
    plannedFrom place tree root change =
        .ok (original, progress) →
      (progress.report root).changed = false →
        progress.text = original

instance
    (place : Location)
    (tree : Tree)
    (root : Path)
    (change : Change) :
    Decidable (WritesBack place tree root change) :=
  match hPlan : plannedFrom place tree root change with
  | .ok (original, progress) =>
    decidable_of_iff
      ((progress.report root).changed = false →
        progress.text = original)
      (by simp [WritesBack, hPlan])
  | .error failure => isTrue (by simp [WritesBack, hPlan])

section Again

variable {outside : Outside ω}
variable {session after : Session ω}
variable {change : Change}
variable {roster : Roster}

/- What is reported tells if the workspace was settled. -/
theorem changed_eq_false_iff_of_plannedFrom
    {place : Location}
    {tree : Tree}
    {original : Text}
    {progress : Progress}
    (hChange : change.IsProper)
    (hSimple : change.IsSimple)
    (hRoster : rosterAt place tree root = some roster)
    (hPlan :
      plannedFrom place tree root change =
        .ok (original, progress)) :
    (progress.report root).changed = false ↔
      ∀ listing,
        (change.of listing).IsSettled root
          (roster listing) := by
  rcases textAt_of_plannedFrom hPlan with
    ⟨hText, hProgress⟩
  rcases Toml.bind_eq_ok_iff.mp hProgress with
    ⟨document, hDocument, hPlanned⟩
  have hParse := parse_of_documentOf hDocument
  have hFound := (manifest_of_textAt hText).2
  rw [rosterAt_of_find? hFound hParse] at hRoster
  cases hRoster
  exact
    (edits_of_planned (hChange .members) (hChange .exclude)
        (Toml.Layout.isOrderly_parse hParse)
        hPlanned).changed_eq_false_iff hSimple

/- A change of a settled workspace leaves all files alone. -/
theorem tree_of_settled
    {result : Except Failure Report}
    (hChange : change.IsProper)
    (hSimple : change.IsSimple)
    (hWrites :
      WritesBack outside.directory.names session.tree root
        change)
    (hRoster :
      rosterAt outside.directory.names session.tree root =
        some roster)
    (hSettled :
      ∀ listing,
        (change.of listing).IsSettled root (roster listing))
    (hRun :
      ModifyRun outside root change false session result
        after) :
    after.tree = session.tree := by
  cases result with
  | error failure =>
      cases hRun with
      | failed hPlan hAfter => rw [hAfter.others]
  | ok report =>
      rcases isLeft_of_run hRun with
        ⟨original, progress, hPlan, _, hLeft⟩
      have hQuiet :=
        (changed_eq_false_iff_of_plannedFrom hChange hSimple
          hRoster hPlan).mpr hSettled
      exact
        hLeft.kept (.inl (hWrites original progress hPlan hQuiet))

end Again

------------------------------------------------------------
-- Removal
------------------------------------------------------------

/-
  A path that is removed is gone if and only if one entry at
  most led to it. If that holds of all that is removed, then
  the same change made again changes nothing; and the report
  of that second run tells if it does.
-/
theorem removed_iff_named_once
    (outside : Outside ω)
    (session after : Session ω)
    (root : Path)
    (change : Change)
    (report : Report)
    (hChange : change.IsProper)
    (hReread :
      IsReread outside.directory.names session.tree root
        change)
    (hRun :
      (modify root change false).perform outside session =
        (.ok report, after)) :
    ∃ before now,
      rosterAt outside.directory.names session.tree root =
          some before ∧
        rosterAt outside.directory.names after.tree root =
          some now ∧
        (∀ listing path,
          (change.of listing).remove = some path →
            (reached root path ∉ now listing ↔
              (before listing).count (reached root path) ≤
                1)) ∧
        (change.IsSimple →
          WritesBack outside.directory.names after.tree root
              change →
            ∃ result later,
              (modify root change false).perform outside
                    after =
                  (result, later) ∧
                (change.TakesAll root before →
                  later.tree = after.tree) ∧
                ∀ again,
                  result = .ok again →
                    (again.changed = false ↔
                      change.TakesAll root before)) := by
  have hWritten := modifyRun_of_perform hRun
  rcases rosterAt_of_written hChange hReread hWritten with
    ⟨roster, hBefore, hNow⟩
  refine
    ⟨roster, change.applyTo root roster, hBefore, hNow,
      fun listing path => not_mem_applyTo_iff, ?_⟩
  intro hSimple hWrites
  rcases modify_runs outside after root change false with
    ⟨result, later, hPerform, hAgain⟩
  refine ⟨result, later, hPerform, ?_, ?_⟩
  · intro hAll
    exact
      tree_of_settled hChange hSimple hWrites hNow
        ((isSettled_applyTo_iff_takesAll hSimple).mpr hAll)
        hAgain
  · rintro again rfl
    rcases isLeft_of_run hAgain with
      ⟨original, progress, hPlan, rfl, _⟩
    rw [changed_eq_false_iff_of_plannedFrom hChange hSimple
        hNow hPlan,
      isSettled_applyTo_iff_takesAll hSimple]

/- A workspace that names a member in two ways. -/
def namedTwice : Session Unit :=
  .start
    ⟨[(["ws"], .directory),
      (["ws", "Cargo.toml"],
        .file
          (.text
            ("[workspace]\nmembers = [\"a\", \"./a\"]\n" :
              String).toList))]⟩
    ()

/- The other entry is left when one was removed. -/
theorem named_after_removal :
    ((modify (Path.ofText ("/ws" : String))
              (.removal (Path.ofText ("/ws/a" : String)))
              false).perform
            Files.surroundings namedTwice).1.toOption.isSome =
        true ∧
      (rosterAt Files.surroundings.directory.names
            ((modify (Path.ofText ("/ws" : String))
                (.removal (Path.ofText ("/ws/a" : String)))
                false).perform
              Files.surroundings namedTwice).2.tree
            (Path.ofText ("/ws" : String))).map
          (· .members) =
        some [Path.ofText ("/ws/a" : String)] := by
  decide +kernel

/- The only member of a workspace is excluded. -/
def memberExcluded : Change :=
  .exclusion (Path.ofText ("/ws/a" : String))

theorem removed_iff_named_once_excluded :
    memberExcluded.IsProper ∧
      IsReread Files.surroundings.directory.names start.tree
          (Path.ofText ("/ws" : String)) memberExcluded ∧
        ∃ report after now result later,
          (modify (Path.ofText ("/ws" : String))
                memberExcluded false).perform
              Files.surroundings start =
            (.ok report, after) ∧
          rosterAt Files.surroundings.directory.names
              after.tree (Path.ofText ("/ws" : String)) =
            some now ∧
          reached (Path.ofText ("/ws" : String))
              (Path.ofText ("/ws/a" : String)) ∉
            now .members ∧
          (modify (Path.ofText ("/ws" : String))
                memberExcluded false).perform
              Files.surroundings after =
            (result, later) ∧
          later.tree = after.tree := by
  have hChange : memberExcluded.IsProper := by
    refine Listing.forall_iff.mpr ⟨nofun, ?_⟩
    intro path hPath
    cases hPath
    exact ⟨Path.isProper_ofText _, by decide⟩
  have hReread :
      IsReread Files.surroundings.directory.names start.tree
        (Path.ofText ("/ws" : String)) memberExcluded := by
    decide +kernel
  have hNamed :
      (rosterAt Files.surroundings.directory.names start.tree
            (Path.ofText ("/ws" : String))).map
          (fun roster =>
            (roster .members).count
              (reached (Path.ofText ("/ws" : String))
                (Path.ofText ("/ws/a" : String)))) =
        some 1 := by
    decide +kernel
  have hWorks :
      ((modify (Path.ofText ("/ws" : String)) memberExcluded
              false).perform
            Files.surroundings start).1.toOption.isSome =
          true ∧
        WritesBack Files.surroundings.directory.names
          ((modify (Path.ofText ("/ws" : String))
              memberExcluded false).perform
            Files.surroundings start).2.tree
          (Path.ofText ("/ws" : String)) memberExcluded := by
    decide +kernel
  rcases hRun :
      (modify (Path.ofText ("/ws" : String)) memberExcluded
          false).perform
        Files.surroundings start with
    ⟨first, after⟩
  rw [hRun] at hWorks
  cases first with
  | error failure => cases hWorks.1
  | ok report =>
      rcases removed_iff_named_once Files.surroundings start
          after (Path.ofText ("/ws" : String)) memberExcluded
          report hChange hReread hRun with
        ⟨before, now, hBefore, hNow, hGone, hAgain⟩
      have hSimple : memberExcluded.IsSimple :=
        Listing.forall_iff.mpr ⟨.inl rfl, .inr rfl⟩
      rw [hBefore] at hNamed
      have hOnce := (Option.some.inj hNamed).le
      have hAll :
          memberExcluded.TakesAll
            (Path.ofText ("/ws" : String)) before := by
        refine Listing.forall_iff.mpr ⟨?_, nofun⟩
        intro path hPath
        cases hPath
        exact hOnce
      rcases hAgain hSimple hWorks.2 with
        ⟨result, later, hSecond, hSettled, _⟩
      exact
        ⟨hChange, hReread, report, after, now, result, later,
          rfl, hNow, (hGone .members _ rfl).mpr hOnce,
          hSecond, hSettled hAll⟩

end Membership

end ScriptWorkspace
