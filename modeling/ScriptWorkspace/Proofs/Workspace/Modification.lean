import ScriptWorkspace.Proofs.Workspace.Lists

/-
  Changing the members of a workspace.

  Whatever the manifest is and whatever is added and removed:
  if the change succeeds, both lists are edited as asked, the
  report tells what was done, and every other value is as it
  was. A change that fails leaves all files alone, and so does
  one that comes to the text that is there already.

  Main declarations:
    * `Membership.Edits`
    * `Membership.edits_of_planned`
    * `Membership.IsLeft`
    * `Membership.modify_edits_lists`
-/

namespace ScriptWorkspace

namespace Membership

open Toml.Layout

variable {ω : Type}

------------------------------------------------------------
-- Both Lists
------------------------------------------------------------

/-
  How a manifest is edited by a change that was reported. The
  tables are the values of the manifest before and after it.
-/
structure Edits
    (root : Path)
    (change : Change)
    (before after : Toml.Table)
    (report : Report) : Prop where
  manifest : report.manifest = root.join Manifest.fileName
  members :
    EditsList root change.members
      (inWorkspace "members" before)
      (inWorkspace "members" after)
      report.added.members report.removed.members
  exclude :
    EditsList root change.exclude
      (inWorkspace "exclude" before)
      (inWorkspace "exclude" after)
      report.added.exclude report.removed.exclude
  keys :
    ∀ key : Text, key ≠ "members" → key ≠ "exclude" →
      inWorkspace key after = inWorkspace key before
  names :
    ∀ name : Text, name ≠ "workspace" →
      Toml.find? name after = Toml.find? name before
  made :
    Toml.find? "workspace" before = none →
      change.members.add = none →
        change.exclude.add = none →
          Toml.find? "workspace" after = none
  kept :
    Toml.find? "workspace" before ≠ none →
      Toml.find? "workspace" after ≠ none

/- The members come first, and the excluded paths then. -/
theorem edits_of_leadsBack
    {root : Path}
    {change : Change}
    {document : Document}
    {progress : Progress}
    (hMembers : change.members.LeadsBack root)
    (hExclude : change.exclude.LeadsBack root)
    (hDocument : IsOrderly document)
    (hPlan : planned root change document = .ok progress) :
    Edits root change (bodyTable document)
      (bodyTable progress.document) (progress.report root) := by
  rcases Toml.bind_eq_ok_iff.mp hPlan with
    ⟨between, hFirst, hSecond⟩
  rcases plannedList_edits hMembers hDocument hFirst with
    ⟨added, removed, hOne⟩
  rcases plannedList_edits hExclude hOne.orderly hSecond with
    ⟨excluded, readmitted, hTwo⟩
  have hOther : Listing.members.key ≠ Listing.exclude.key := by
    decide
  have hAdded :
      progress.added =
        { members := added, exclude := excluded } := by
    rw [hTwo.reportsAdded, hOne.reportsAdded]
    rfl
  have hRemoved :
      progress.removed =
        { members := removed, exclude := readmitted } := by
    rw [hTwo.reportsRemoved, hOne.reportsRemoved]
    rfl
  constructor
  case manifest => rfl
  case members =>
    have hEdits := hOne.edits
    rw [← hTwo.keys _ hOther] at hEdits
    simp only [Progress.report, hAdded, hRemoved]
    exact hEdits
  case exclude =>
    have hEdits := hTwo.edits
    rw [hOne.keys _ hOther.symm] at hEdits
    simp only [Progress.report, hAdded, hRemoved]
    exact hEdits
  case keys =>
    intro key hNotMembers hNotExclude
    exact
      (hTwo.keys key hNotExclude).trans
        (hOne.keys key hNotMembers)
  case names =>
    intro name hName
    exact
      (hTwo.names name hName).trans (hOne.names name hName)
  case made =>
    intro hMissing hNoMember hNoExclude
    exact hTwo.made (hOne.made hMissing hNoMember) hNoExclude
  case kept => exact fun hFound => hTwo.kept (hOne.kept hFound)

/- Paths that are absolute are led back to. -/
theorem edits_of_planned
    {root : Path}
    {change : Change}
    {document : Document}
    {progress : Progress}
    (hMembers : change.members.IsProper)
    (hExclude : change.exclude.IsProper)
    (hDocument : IsOrderly document)
    (hPlan : planned root change document = .ok progress) :
    Edits root change (bodyTable document)
      (bodyTable progress.document) (progress.report root) :=
  edits_of_leadsBack (hMembers.leadsBack root)
    (hExclude.leadsBack root) hDocument hPlan

------------------------------------------------------------
-- The File
------------------------------------------------------------

/-
  What is left of the files when a change comes to a text for
  the manifest: it is written only if it is another text and
  the change is not run dry.
-/
structure IsLeft
    (outside : Outside ω)
    (root : Path)
    (dryRun : Bool)
    (original text : Text)
    (session after : Session ω) : Prop where
  kept :
    text = original ∨ dryRun = true →
      after.tree = session.tree
  silent :
    text = original →
      after.log.getLast? = some (currentRecord root)
  written :
    text ≠ original →
      dryRun = false →
        ∃ location,
          session.tree.resolve outside.directory.names
                (root.join Manifest.fileName) =
              .ok location ∧
            after.tree =
              session.tree.set location (.file (.text text))

theorem isLeft_of_run
    {outside : Outside ω}
    {root : Path}
    {change : Change}
    {dryRun : Bool}
    {session after : Session ω}
    {report : Report}
    (hRun :
      ModifyRun outside root change dryRun session
        (.ok report) after) :
    ∃ original progress,
      plannedFrom outside.directory.names session.tree root
            change =
          .ok (original, progress) ∧
        report = progress.report root ∧
          IsLeft outside root dryRun original progress.text
            session after := by
  cases hRun with
  | @current original progress between hPlan hSame
      hBetween =>
      refine ⟨original, progress, hPlan, rfl, ?_, ?_, ?_⟩
      · intro _
        rw [logged, hBetween.others]
      · intro _
        exact List.getLast?_concat
      · intro hOther
        exact absurd hSame hOther
  | @dry original progress between hPlan hOther hDryRun
      hBetween =>
      refine ⟨original, progress, hPlan, rfl, ?_, ?_, ?_⟩
      · intro _
        rw [logged, hBetween.others]
      · intro hSame
        exact absurd hSame hOther
      · intro _ hNotDry
        rw [hDryRun] at hNotDry
        cases hNotDry
  | @written original progress between location hPlan hOther
      hDryRun hBetween hLocation =>
      refine ⟨original, progress, hPlan, rfl, ?_, ?_, ?_⟩
      · rintro (hSame | hDry)
        · exact absurd hSame hOther
        · rw [hDryRun] at hDry
          cases hDry
      · intro hSame
        exact absurd hSame hOther
      · intro _ _
        exact ⟨location, hLocation, rfl⟩

/- A document that can be edited is the one that is parsed. -/
theorem parse_of_editable
    {failure : List Reason → Failure}
    {original : Text}
    {document : Document}
    (hDocument :
      Manifest.editable failure original = .ok document) :
    parse original = .ok document := by
  unfold Manifest.editable at hDocument
  split at hDocument
  case h_1 hParse =>
    cases hDocument
    exact hParse
  case h_2 => cases hDocument
  case h_3 => cases hDocument
  case h_4 clash _ => cases clash <;> cases hDocument

theorem parse_of_documentOf
    {root : Path}
    {original : Text}
    {document : Document}
    (hDocument : documentOf root original = .ok document) :
    parse original = .ok document :=
  parse_of_editable hDocument

/-
  A change that succeeds edits both lists of the manifest and
  nothing else, and its report says so. One that fails has
  changed nothing, as long as it is no fault of the device
  that cuts off the manifest while it is written.
-/
theorem modify_edits_lists
    (outside : Outside ω)
    (session : Session ω)
    (root : Path)
    (change : Change)
    (dryRun : Bool)
    (hMembers : change.members.IsProper)
    (hExclude : change.exclude.IsProper) :
    ∃ result after,
      (modify root change dryRun).perform outside session =
          (result, after) ∧
        match result with
        | .error _ => after.tree = session.tree
        | .ok report =>
          ∃ original document updated,
            Files.textAt outside.directory.names session.tree
                  (root.join Manifest.fileName) =
                .ok original ∧
              parse original = .ok document ∧
                Edits root change (bodyTable document)
                    (bodyTable updated) report ∧
                  IsLeft outside root dryRun original
                    (render updated) session after := by
  rcases modify_runs outside session root change dryRun with
    ⟨result, after, hPerform, hRun⟩
  refine ⟨result, after, hPerform, ?_⟩
  cases result with
  | error failure =>
      cases hRun with
      | failed hPlan hAfter =>
          change after.tree = session.tree
          rw [hAfter.others]
  | ok report =>
      rcases isLeft_of_run hRun with
        ⟨original, progress, hPlan, rfl, hLeft⟩
      rcases textAt_of_plannedFrom hPlan with
        ⟨hText, hProgress⟩
      rcases Toml.bind_eq_ok_iff.mp hProgress with
        ⟨document, hDocument, hPlanned⟩
      have hParse := parse_of_documentOf hDocument
      exact
        ⟨original, document, progress.document, hText,
          hParse,
          edits_of_planned hMembers hExclude
            (isOrderly_parse hParse) hPlanned,
          hLeft⟩

/- A workspace with one member. -/
def start : Session Unit :=
  .start
    ⟨[(["ws"], .directory),
      (["ws", "Cargo.toml"],
        .file
          (.text
            ("[workspace]\nmembers = [\"a\"]\n" : String).toList))]⟩
    ()

/- A second member of the workspace. -/
def secondMember : Change :=
  .addMember (Path.ofText ("/ws/b" : String))

theorem modify_edits_lists_second :
    secondMember.members.IsProper ∧
      secondMember.exclude.IsProper ∧
      ∃ report after,
        (modify (Path.ofText ("/ws" : String)) secondMember
              false).perform
            Files.surroundings start =
          (.ok report, after) ∧
        report.added.members = [("b" : String).toList] ∧
        ∃ original document updated,
          parse original = .ok document ∧
            Edits (Path.ofText ("/ws" : String)) secondMember
                (bodyTable document) (bodyTable updated)
                report ∧
              IsLeft Files.surroundings
                (Path.ofText ("/ws" : String)) false original
                (render updated) start after := by
  have hMembers : secondMember.members.IsProper := by
    intro path hPath
    cases hPath
    exact ⟨Path.isProper_ofText _, by decide⟩
  have hExclude : secondMember.exclude.IsProper := nofun
  have hAdded :
      ((modify (Path.ofText ("/ws" : String)) secondMember
              false).perform
            Files.surroundings start).1.toOption.map
          (·.added.members) =
        some [("b" : String).toList] := by
    decide +kernel
  rcases modify_edits_lists Files.surroundings start
      (Path.ofText ("/ws" : String)) secondMember false
      hMembers hExclude with
    ⟨result, after, hRun, hEnds⟩
  rw [hRun] at hAdded
  cases result with
  | error failure => cases hAdded
  | ok report =>
      rcases hEnds with
        ⟨original, document, updated, _, hParse, hEdits,
          hLeft⟩
      exact
        ⟨hMembers, hExclude, report, after, hRun,
          Option.some.inj hAdded, original, document, updated,
          hParse, hEdits, hLeft⟩

end Membership

end ScriptWorkspace
