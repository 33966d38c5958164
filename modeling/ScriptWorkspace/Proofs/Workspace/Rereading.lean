import ScriptWorkspace.Proofs.Toml.Equality
import ScriptWorkspace.Proofs.Workspace.Import
import ScriptWorkspace.Proofs.Workspace.Roster

/-
  The roster of a workspace after a change.

  What a workspace names is read from its manifest, which is
  at one location whatever directories there are. If the lists
  survive being written and read, then the roster after a
  change that is written is what the change makes of the one
  before it, and any other change leaves all files alone.

  Main declarations:
    * `Membership.manifestAt`
    * `Membership.rosterAt`
    * `Membership.ReadsBack`
    * `Membership.IsReread`
    * `Membership.rosterAt_of_written`
    * `Membership.rosterAt_of_modify`
-/

namespace ScriptWorkspace

namespace Membership

open Storage Storage.Calls
open Toml.Layout (parse render bodyTable Document)

variable {ω : Type}
variable {outside : Outside ω}
variable {place : Location}
variable {tree : Tree}
variable {root : Path}

------------------------------------------------------------
-- Manifests In Trees
------------------------------------------------------------

/- Where the manifest of a workspace is. -/
def manifestLocation (place : Location) (root : Path) :
    Location :=
  spelledLocation place root ++ [Workspace.fileName]

theorem manifestLocation_ne_nil
    (place : Location)
    (root : Path) :
    manifestLocation place root ≠ [] :=
  List.append_ne_nil_of_right_ne_nil _ (List.cons_ne_nil _ _)

/- The text of the manifest of a workspace in a tree. -/
def manifestTextAt
    (place : Location)
    (tree : Tree)
    (root : Path) : Option Text :=
  match tree.find? (manifestLocation place root) with
  | some (.file (.text text)) => some text
  | _ => none

theorem manifestTextAt_eq_some_iff
    {text : Text} :
    manifestTextAt place tree root = some text ↔
      tree.find? (manifestLocation place root) =
        some (.file (.text text)) := by
  unfold manifestTextAt
  split
  case h_1 found hFound => simp [hFound]
  case h_2 hOther =>
    refine ⟨nofun, fun hFound => ?_⟩
    exact absurd hFound (hOther text)

/- The values of the manifest of a workspace in a tree. -/
def manifestAt
    (place : Location)
    (tree : Tree)
    (root : Path) : Option Toml.Table :=
  (manifestTextAt place tree root).bind fun text =>
    (parse text).toOption.map bodyTable

/- The roster of a workspace, if its manifest can be read. -/
def rosterAt
    (place : Location)
    (tree : Tree)
    (root : Path) : Option Roster :=
  (manifestAt place tree root).map (rosterOf root)

/- A manifest that is kept was there before. -/
theorem manifestTextAt_of_keepsFile
    {other : Tree}
    {text : Text}
    (hKeeps :
      tree.KeepsFile (manifestLocation place root) other)
    (hText : manifestTextAt place other root = some text) :
    manifestTextAt place tree root = some text :=
  manifestTextAt_eq_some_iff.mpr
    (hKeeps _ (manifestTextAt_eq_some_iff.mp hText))

/- And it had the roster that it has. -/
theorem rosterAt_of_keepsFile
    {other : Tree}
    {roster : Roster}
    (hKeeps :
      tree.KeepsFile (manifestLocation place root) other)
    (hRoster : rosterAt place other root = some roster) :
    rosterAt place tree root = some roster := by
  unfold rosterAt manifestAt at hRoster ⊢
  cases hText : manifestTextAt place other root with
  | none =>
      rw [hText] at hRoster
      cases hRoster
  | some text =>
      rw [hText] at hRoster
      rw [manifestTextAt_of_keepsFile hKeeps hText]
      exact hRoster

theorem rosterAt_of_find?
    {text : Text}
    {document : Document}
    (hFound :
      tree.find? (manifestLocation place root) =
        some (.file (.text text)))
    (hParse : parse text = .ok document) :
    rosterAt place tree root =
      some (rosterOf root (bodyTable document)) := by
  rw [rosterAt, manifestAt,
    manifestTextAt_eq_some_iff.mpr hFound, Option.bind_some,
    hParse]
  rfl

/- The manifest is found where it is read. -/
theorem manifest_of_textAt
    {text : Text}
    (hText :
      Files.textAt place tree (root.join Manifest.fileName) =
        .ok text) :
    tree.resolve place (root.join Manifest.fileName) =
        .ok (manifestLocation place root) ∧
      tree.find? (manifestLocation place root) =
        some (.file (.text text)) := by
  rcases Files.textAt_eq_ok_iff.mp hText with
    ⟨_, location, hResolved, hFound⟩
  have hLocation :
      location = manifestLocation place root := by
    rw [manifestLocation, ← spelledLocation_child (by decide)]
    exact spelledLocation_of_resolve hResolved
  subst hLocation
  exact ⟨hResolved, hFound⟩

------------------------------------------------------------
-- Reading Back
------------------------------------------------------------

/- The lists of a document survive being written and read. -/
def ReadsBack (document : Document) : Prop :=
  ∃ read,
    parse (render document) = .ok read ∧
      ∀ listing : Listing,
        inWorkspace listing.key (bodyTable read) =
          inWorkspace listing.key (bodyTable document)

/- What a change comes to from the manifest survives that. -/
def IsReread
    (place : Location)
    (tree : Tree)
    (root : Path)
    (change : Change) : Prop :=
  ∀ original progress,
    manifestTextAt place tree root = some original →
      plannedIn root change original = .ok progress →
        ReadsBack progress.document

theorem isReread_iff
    {change : Change}
    {original : Text}
    {progress : Progress}
    (hText : manifestTextAt place tree root = some original)
    (hPlan : plannedIn root change original = .ok progress) :
    IsReread place tree root change ↔
      ReadsBack progress.document := by
  constructor
  · intro hReread
    exact hReread original progress hText hPlan
  · intro hReads text found hFound hPlanned
    cases hText.symm.trans hFound
    cases hPlan.symm.trans hPlanned
    exact hReads

/- A property of both lists holds if it does of each. -/
theorem Listing.forall_iff
    {p : Listing → Prop} :
    (∀ listing, p listing) ↔ p .members ∧ p .exclude := by
  constructor
  · intro hAll
    exact ⟨hAll .members, hAll .exclude⟩
  · rintro ⟨hMembers, hExclude⟩ listing
    cases listing with
    | members => exact hMembers
    | exclude => exact hExclude

instance
    {p : Listing → Prop}
    [DecidablePred p] :
    Decidable (∀ listing, p listing) :=
  decidable_of_iff _ Listing.forall_iff.symm

instance (document : Document) : Decidable (ReadsBack document) :=
  match hParse : parse (render document) with
  | .ok read =>
    decidable_of_iff
      (∀ listing : Listing,
        inWorkspace listing.key (bodyTable read) =
          inWorkspace listing.key (bodyTable document))
      (by simp [ReadsBack, hParse])
  | .error fault => isFalse (by simp [ReadsBack, hParse])

instance
    (place : Location)
    (tree : Tree)
    (root : Path)
    (change : Change) :
    Decidable (IsReread place tree root change) :=
  match hText : manifestTextAt place tree root with
  | none => isTrue (by simp [IsReread, hText])
  | some original =>
    match hPlan : plannedIn root change original with
    | .ok progress =>
      decidable_of_iff (ReadsBack progress.document)
        (isReread_iff hText hPlan).symm
    | .error failure =>
      isTrue fun text progress hFound hPlanned => by
        cases hText.symm.trans hFound
        cases hPlan.symm.trans hPlanned

/- A document that is read back names what it named. -/
theorem rosterAt_of_readsBack
    {document : Document}
    (hReads : ReadsBack document)
    (hFound :
      tree.find? (manifestLocation place root) =
        some (.file (.text (render document)))) :
    rosterAt place tree root =
      some (rosterOf root (bodyTable document)) := by
  rcases hReads with ⟨read, hParse, hLists⟩
  rw [rosterAt_of_find? hFound hParse]
  refine congrArg some (funext fun listing => ?_)
  rw [rosterOf, rosterOf, hLists]

------------------------------------------------------------
-- Changes
------------------------------------------------------------

/- What is added to a list is absolute and can be spelled. -/
def Change.IsProper (change : Change) : Prop :=
  ∀ listing, (change.of listing).IsProper

/- The entry for a path that is added leads back to it. -/
def Change.LeadsBack (root : Path) (change : Change) : Prop :=
  ∀ listing, (change.of listing).LeadsBack root

theorem Change.IsProper.leadsBack
    {change : Change}
    (hChange : change.IsProper)
    (root : Path) :
    change.LeadsBack root :=
  fun listing => (hChange listing).leadsBack root

instance (path : Path) : Decidable path.IsProper :=
  inferInstanceAs
    (Decidable
      (∀ name ∈ path.names,
        Path.isName name = true ∧
          ∀ unit ∈ name, Path.isSeparator unit = false))

instance (change : Change) : Decidable change.IsProper :=
  inferInstanceAs
    (Decidable
      (∀ listing,
        ∀ path ∈ (change.of listing).add,
          path.IsProper ∧ path.isAbsolute = true))

/- A change that is worked out is one of the roster. -/
theorem roster_of_plannedFrom
    {change : Change}
    {original : Text}
    {progress : Progress}
    (hChange : change.IsProper)
    (hPlan :
      plannedFrom place tree root change =
        .ok (original, progress)) :
    ∃ roster,
      rosterAt place tree root = some roster ∧
        rosterOf root (bodyTable progress.document) =
          change.applyTo root roster := by
  rcases textAt_of_plannedFrom hPlan with
    ⟨hText, hProgress⟩
  rcases Toml.bind_eq_ok_iff.mp hProgress with
    ⟨document, hDocument, hPlanned⟩
  have hParse := parse_of_documentOf hDocument
  have hEdits :=
    edits_of_planned (hChange .members) (hChange .exclude)
      (Toml.Layout.isOrderly_parse hParse) hPlanned
  exact
    ⟨_, rosterAt_of_find? (manifest_of_textAt hText).2 hParse,
      hEdits.rosterOf_eq⟩

section Runs

variable {change : Change}
variable {session after : Session ω}

/- What comes of a change is one of the ways it can run. -/
theorem modifyRun_of_perform
    {dryRun : Bool}
    {result : Except Failure Report}
    (hRun :
      (modify root change dryRun).perform outside session =
        (result, after)) :
    ModifyRun outside root change dryRun session result
      after := by
  rcases modify_runs outside session root change dryRun with
    ⟨found, between, hPerform, hEnds⟩
  rw [hRun] at hPerform
  cases hPerform
  exact hEnds

/- A change that is written is made to the roster. -/
theorem rosterAt_of_written
    {report : Report}
    (hChange : change.IsProper)
    (hReread :
      IsReread outside.directory.names session.tree root
        change)
    (hRun :
      ModifyRun outside root change false session
        (.ok report) after) :
    ∃ roster,
      rosterAt outside.directory.names session.tree root =
          some roster ∧
        rosterAt outside.directory.names after.tree root =
          some (change.applyTo root roster) := by
  rcases isLeft_of_run hRun with
    ⟨original, progress, hPlan, _, hLeft⟩
  rcases roster_of_plannedFrom hChange hPlan with
    ⟨roster, hBefore, hAfter⟩
  rcases textAt_of_plannedFrom hPlan with
    ⟨hText, hProgress⟩
  rcases manifest_of_textAt hText with ⟨hResolved, hFound⟩
  refine ⟨roster, hBefore, ?_⟩
  rw [← hAfter]
  refine
    rosterAt_of_readsBack
      (hReread original progress
        (manifestTextAt_eq_some_iff.mpr hFound) hProgress)
      ?_
  by_cases hSame : progress.text = original
  · rw [hLeft.kept (.inl hSame), hFound, ← hSame]
    rfl
  · rcases hLeft.written hSame rfl with
      ⟨location, hLocation, hTree⟩
    rw [hResolved] at hLocation
    cases hLocation
    rw [hTree,
      Tree.find?_set_self _ _ (manifestLocation_ne_nil _ _)]
    rfl

/-
  A change is made to the roster, or it leaves all files as
  they are.
-/
theorem rosterAt_of_modify
    {dryRun : Bool}
    {result : Except Failure Report}
    (hChange : change.IsProper)
    (hReread :
      dryRun = false →
        IsReread outside.directory.names session.tree root
          change)
    (hRun :
      ModifyRun outside root change dryRun session result
        after) :
    after.tree = session.tree ∨
      ∃ roster,
        rosterAt outside.directory.names session.tree root =
            some roster ∧
          rosterAt outside.directory.names after.tree root =
            some (change.applyTo root roster) := by
  cases result with
  | error failure =>
      cases hRun with
      | failed hPlan hAfter =>
          left
          rw [hAfter.others]
  | ok report =>
      cases dryRun with
      | true =>
          rcases isLeft_of_run hRun with
            ⟨original, progress, _, _, hLeft⟩
          exact .inl (hLeft.kept (.inr rfl))
      | false =>
          exact
            .inr
              (rosterAt_of_written hChange (hReread rfl) hRun)

end Runs

end Membership

end ScriptWorkspace
