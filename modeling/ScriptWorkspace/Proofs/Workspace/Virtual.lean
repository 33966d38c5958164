import ScriptWorkspace.Proofs.Session.Writing
import ScriptWorkspace.Proofs.Workspace.Rereading

/-
  Workspaces without a package at their root.

  A change of the members leaves every name at the top of the
  manifest but one as it was. So a manifest without a package
  has none afterwards, provided that a text is read as the
  document that it is edited as, and a document as it is
  written.

  Main declarations:
    * `Membership.planned_keeps_names`
    * `Membership.IsFaithful`
    * `Workspace.IsVirtual`
    * `Workspace.isVirtual_of_requireVirtual`
    * `Workspace.isVirtual_of_modify`
-/

namespace ScriptWorkspace

open Storage Storage.Calls
open Toml.Layout (Document Group IsOrderly bodyTable parse)
open Toml.Layout (render isOrderly_parse isOrderly_setIn)

variable {ω : Type}
variable {outside : Outside ω}
variable {place : Location}
variable {tree : Tree}
variable {root : Path}

namespace Membership

variable {listing : Listing}
variable {document : Document}
variable {groups others : List Group}
variable {progress after : Progress}

------------------------------------------------------------
-- Names That Stay
------------------------------------------------------------

/- All names but that of the workspace mean what they did. -/
structure KeepsNames (document after : Document) : Prop where
  orderly : IsOrderly after
  names :
    ∀ name : Text, name ≠ "workspace" →
      Toml.find? name (bodyTable after) =
        Toml.find? name (bodyTable document)

theorem KeepsNames.trans
    {between last : Document}
    (hFront : KeepsNames document between)
    (hBack : KeepsNames between last) :
    KeepsNames document last where
  orderly := hBack.orderly
  names name hName :=
    (hBack.names name hName).trans (hFront.names name hName)

/- A path that is added changes a list, not the document. -/
theorem document_of_plannedAdd
    {path : Option Path}
    (hAdd :
      forPath (plannedAdd root listing) path groups progress =
        .ok (others, after)) :
    after.document = progress.document := by
  cases path with
  | none =>
      cases hAdd
      rfl
  | some path =>
      rcases Toml.bind_eq_ok_iff.mp hAdd with
        ⟨target, _, hRest⟩
      split at hRest <;> (cases hRest; rfl)

/- A change of a list is put into the document at last. -/
theorem plannedList_keeps_names
    {change : ListChange}
    (hDocument : IsOrderly progress.document)
    (hPlan :
      plannedList root listing change progress = .ok after) :
    KeepsNames progress.document after.document := by
  have hSame :
      KeepsNames progress.document progress.document :=
    ⟨hDocument, fun _ _ => rfl⟩
  unfold plannedList at hPlan
  split at hPlan
  case isTrue =>
    cases hPlan
    exact hSame
  case isFalse =>
    rcases Toml.bind_eq_ok_iff.mp hPlan with
      ⟨opened, hOpen, hRest⟩
    rcases opened with _ | ⟨groups, next⟩
    · cases hRest
      exact hSame
    · rcases isOpened_openList hDocument hOpen with
        ⟨old, hOpened⟩
      rcases Toml.bind_eq_ok_iff.mp hRest with
        ⟨⟨others, between⟩, hAdd, hRest⟩
      rcases Toml.bind_eq_ok_iff.mp hRest with
        ⟨⟨final, last⟩, hRemove, hPut⟩
      cases hPut
      rcases forPath_plannedRemove hRemove with
        ⟨_, _, hErased⟩
      have hLast : last.document = next := by
        rw [hErased.document, document_of_plannedAdd hAdd]
      have hSets := setsList_putList final hOpened.can
      dsimp only
      rw [hLast]
      exact
        { orderly :=
            isOrderly_setIn _ hOpened.orderly hOpened.can
          names := fun name hName =>
            (hSets.names name hName).trans
              (hOpened.names name hName) }

/- Whatever is planned, only the workspace can be another. -/
theorem planned_keeps_names
    {change : Change}
    (hDocument : IsOrderly document)
    (hPlan : planned root change document = .ok progress) :
    KeepsNames document progress.document := by
  rcases Toml.bind_eq_ok_iff.mp hPlan with
    ⟨between, hFirst, hSecond⟩
  have hMembers :=
    plannedList_keeps_names hDocument hFirst
  exact
    hMembers.trans
      (plannedList_keeps_names hMembers.orderly hSecond)

------------------------------------------------------------
-- Texts And Documents
------------------------------------------------------------

/- Two tables have the same names. -/
def SameNames (table other : Toml.Table) : Prop :=
  ∀ name,
    Toml.find? name table = none ↔
      Toml.find? name other = none

/- A text is read as a table with the names of a document. -/
def TellsNames (text : Text) (document : Document) : Prop :=
  ∃ table,
    Toml.parse text = .ok table ∧
      SameNames table (bodyTable document)

/-
  The manifest of a workspace tells the names of the document
  that it is edited as, before a change of the members and
  when that is written.
-/
def IsFaithful
    (place : Location)
    (tree : Tree)
    (root : Path)
    (change : Change) : Prop :=
  ∀ original document progress,
    manifestTextAt place tree root = some original →
      documentOf root original = .ok document →
        planned root change document = .ok progress →
          TellsNames original document ∧
            TellsNames progress.text progress.document

/- Names can be compared one by one. -/
theorem sameNames_iff
    {table other : Toml.Table} :
    SameNames table other ↔
      (∀ entry ∈ table,
          (Toml.find? entry.1 other).isSome = true) ∧
        ∀ entry ∈ other,
          (Toml.find? entry.1 table).isSome = true := by
  have hNamed (table : Toml.Table) (name : Text) :
      (Toml.find? name table).isSome = true ↔
        ∃ entry ∈ table, entry.1 = name := by
    rw [Toml.find?, List.lookup_isSome_iff]
    simp only [beq_iff_eq]
    exact
      exists_congr fun entry =>
        and_congr_right fun _ => eq_comm
  have hSome :
      SameNames table other ↔
        ∀ name,
          (Toml.find? name table).isSome = true ↔
            (Toml.find? name other).isSome = true := by
    refine forall_congr' fun name => ?_
    rw [Option.isSome_iff_ne_none, Option.isSome_iff_ne_none,
      not_iff_not]
  rw [hSome]
  constructor
  · intro hSame
    exact
      ⟨fun entry hMem =>
          (hSame _).mp ((hNamed _ _).mpr ⟨entry, hMem, rfl⟩),
        fun entry hMem =>
          (hSame _).mpr ((hNamed _ _).mpr ⟨entry, hMem, rfl⟩)⟩
  · rintro ⟨hFront, hBack⟩ name
    constructor
    · intro hFound
      rcases (hNamed _ _).mp hFound with ⟨entry, hMem, rfl⟩
      exact hFront entry hMem
    · intro hFound
      rcases (hNamed _ _).mp hFound with ⟨entry, hMem, rfl⟩
      exact hBack entry hMem

instance (table other : Toml.Table) :
    Decidable (SameNames table other) :=
  decidable_of_iff _ sameNames_iff.symm

instance (text : Text) (document : Document) :
    Decidable (TellsNames text document) :=
  match hParse : Toml.parse text with
  | .ok table =>
    decidable_of_iff (SameNames table (bodyTable document))
      (by simp [TellsNames, hParse])
  | .error fault => isFalse (by simp [TellsNames, hParse])

end Membership

------------------------------------------------------------
-- Virtual Workspaces
------------------------------------------------------------

namespace Workspace

open ScriptWorkspace.Membership (IsFaithful TellsNames)

/- The manifest at the root of a workspace has no package. -/
def IsVirtual
    (place : Location)
    (tree : Tree)
    (root : Path) : Prop :=
  ∃ text table,
    Files.textAt place tree (manifestIn root) = .ok text ∧
      Toml.parse text = .ok table ∧
        Toml.find? "package" table = none

variable {session after : Session ω}

/- A table is read from the text of a file. -/
theorem exists_of_readToml
    {path : Path}
    {table : Toml.Table}
    (hRun :
      (Files.readToml path).perform outside session =
        (.ok table, after)) :
    after = session ∧
      ∃ text,
        Files.textAt outside.directory.names session.tree
              path =
            .ok text ∧
          Toml.parse text = .ok table := by
  rcases Action.exists_of_perform_bind hRun with
    ⟨text, between, hRead, hParse⟩
  rw [Files.perform_read] at hRead
  cases hText :
      Files.textAt outside.directory.names session.tree path
    with
  | error failure =>
      rw [hText] at hRead
      cases hRead
  | ok found =>
      rw [hText] at hRead
      cases hRead
      split at hParse
      case h_1 members hMembers =>
        cases hParse
        exact ⟨rfl, text, rfl, hMembers⟩
      case h_2 => cases hParse
      case h_3 => cases hParse

/- A workspace passes the check only if it is one of these. -/
theorem isVirtual_of_requireVirtual
    (hRun :
      (requireVirtual root).perform outside session =
        (.ok (), after)) :
    after = session ∧
      IsVirtual outside.directory.names session.tree root := by
  rcases Action.exists_of_perform_bind hRun with
    ⟨table, between, hRead, hCheck⟩
  rcases exists_of_readToml hRead with
    ⟨rfl, text, hText, hParse⟩
  split at hCheck
  case isTrue => cases hCheck
  case isFalse hNone =>
    cases hCheck
    refine ⟨rfl, text, table, hText, hParse, ?_⟩
    exact Option.not_isSome_iff_eq_none.mp hNone

/- A text without a package tells of none when it is edited. -/
theorem find?_of_tellsNames
    {text : Text}
    {table : Toml.Table}
    {document : Document}
    (hTells : TellsNames text document)
    (hParse : Toml.parse text = .ok table)
    (hNone : Toml.find? "package" table = none) :
    Toml.find? "package" (bodyTable document) = none := by
  rcases hTells with ⟨read, hRead, hNames⟩
  cases hRead.symm.trans hParse
  exact (hNames _).mp hNone

/- It stays one when its members are changed. -/
theorem isVirtual_of_modify
    {change : Membership.Change}
    {report : Membership.Report}
    (hVirtual :
      IsVirtual outside.directory.names session.tree root)
    (hFaithful :
      IsFaithful outside.directory.names session.tree root
        change)
    (hRun :
      (Membership.modify root change false).perform outside
          session =
        (.ok report, after)) :
    IsVirtual outside.directory.names after.tree root := by
  rcases Membership.isLeft_of_run
      (Membership.modifyRun_of_perform hRun) with
    ⟨original, progress, hPlan, _, hLeft⟩
  by_cases hSame : progress.text = original
  · rw [hLeft.kept (.inl hSame)]
    exact hVirtual
  · rcases Membership.textAt_of_plannedFrom hPlan with
      ⟨hText, hProgress⟩
    rcases Toml.bind_eq_ok_iff.mp hProgress with
      ⟨document, hDocument, hPlanned⟩
    have hParse := Membership.parse_of_documentOf hDocument
    rcases Membership.manifest_of_textAt hText with
      ⟨hResolved, hFound⟩
    rcases hFaithful original document progress
        (Membership.manifestTextAt_eq_some_iff.mpr hFound)
        hDocument hPlanned with
      ⟨hBefore, table, hTable, hAfter⟩
    rcases hVirtual with ⟨text, read, hRead, hTold, hNone⟩
    cases hRead.symm.trans hText
    have hKept :=
      Membership.planned_keeps_names (isOrderly_parse hParse)
        hPlanned
    -- What was written is found where the text was read.
    rcases hLeft.written hSame rfl with
      ⟨location, hLocation, hTree⟩
    cases hResolved.symm.trans hLocation
    have hUsable := (Files.textAt_eq_ok_iff.mp hText).1
    refine ⟨progress.text, table, ?_, hTable, ?_⟩
    · rw [hTree]
      refine Files.textAt_set hUsable hLocation ?_
      rw [hFound]
      exact nofun
    · rw [hAfter, hKept.names _ (by decide)]
      exact find?_of_tellsNames hBefore hTold hNone

end Workspace

end ScriptWorkspace
