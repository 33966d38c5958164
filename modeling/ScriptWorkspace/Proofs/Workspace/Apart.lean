import ScriptWorkspace.Proofs.Session.Runs
import ScriptWorkspace.Proofs.Workspace.Rereading
import ScriptWorkspace.Proofs.Workspace.Tasks

/-
  Lists that have no path in common.

  A path that is put into one of the lists has to be cleared
  from the other one. Making a path a member and excluding it
  take out an entry for it, which is enough if there is one at
  most. A package that is made of a script or a template takes
  nothing out. So the lists of a workspace stay apart, step by
  step, if and only if every change that is made clears what
  it adds.

  Main declarations:
    * `Membership.Roster.IsApart`
    * `Membership.Change.Clears`
    * `Membership.isApart_applyTo_iff`
    * `Workspace.IsApart`
    * `Workspace.Task.change_of_effect`
    * `Workspace.Step.rosterAt_run`
    * `Workspace.steps_keep_apart_iff`
-/

namespace ScriptWorkspace

open Storage Storage.Calls

namespace Membership

variable {root path : Path}

------------------------------------------------------------
-- Rosters
------------------------------------------------------------

/- The other one of the two lists. -/
def Listing.other : Listing → Listing
  | .members => .exclude
  | .exclude => .members

@[simp] theorem Listing.other_other (listing : Listing) :
    listing.other.other = listing := by
  cases listing <;> rfl

/- No path is in both lists. -/
def Roster.IsApart (roster : Roster) : Prop :=
  ∀ listing,
    ∀ path ∈ roster listing, path ∉ roster listing.other

instance (roster : Roster) : Decidable roster.IsApart :=
  inferInstanceAs
    (Decidable
      (∀ listing : Listing,
        ∀ path ∈ roster listing, path ∉ roster listing.other))

theorem Roster.isApart_iff
    {roster : Roster} :
    roster.IsApart ↔
      ∀ path ∈ roster .members, path ∉ roster .exclude := by
  constructor
  · exact fun hApart => hApart .members
  · intro hMembers
    refine Listing.forall_iff.mpr ⟨hMembers, ?_⟩
    exact fun path hExcluded hMember =>
      hMembers path hMember hExcluded

/-
  One list at most gets a path, and nothing is removed from
  that list.
-/
def Change.IsOneSided (change : Change) : Prop :=
  ∀ listing,
    (change.of listing).add = none ∨
      (change.of listing).remove = none ∧
        (change.of listing.other).add = none

/- What a list gets is not left in the other list. -/
def Change.Clears
    (root : Path)
    (change : Change)
    (roster : Roster) : Prop :=
  ∀ listing path,
    (change.of listing).add = some path →
      reached root path ∉
        withoutRemoved root (change.of listing.other).remove
          (roster listing.other)

instance
    (root : Path)
    (change : Change)
    (roster : Roster) :
    Decidable (change.Clears root roster) :=
  inferInstanceAs
    (Decidable
      (∀ listing : Listing,
        ∀ path ∈ (change.of listing).add,
          reached root path ∉
            withoutRemoved root
              (change.of listing.other).remove
              (roster listing.other)))

/- Lists that are apart stay so if what is added is cleared. -/
theorem isApart_applyTo_iff
    {change : Change}
    {roster : Roster}
    (hSided : change.IsOneSided)
    (hApart : roster.IsApart) :
    (change.applyTo root roster).IsApart ↔
      change.Clears root roster := by
  have hOther
      {listing : Listing}
      {added : Path}
      (hAdd : (change.of listing).add = some added) :
      (change.of listing).remove = none ∧
        (change.of listing.other).add = none := by
    rcases hSided listing with hNone | hSided
    · rw [hAdd] at hNone
      cases hNone
    · exact hSided
  constructor
  · intro hAfter listing added hAdd hLeft
    rcases hOther hAdd with ⟨hRemove, hNone⟩
    refine hAfter listing _ (mem_applyTo_of_add hAdd hRemove) ?_
    rw [Change.applyTo, ListChange.applyTo, hNone]
    exact hLeft
  · intro hClears listing found hMem hBoth
    rcases mem_of_mem_applyTo hMem with
      hFirst | ⟨added, hAdd, rfl⟩
    · rcases mem_of_mem_applyTo hBoth with
        hSecond | ⟨added, hAdd, rfl⟩
      · exact hApart listing found hFirst hSecond
      · have hCleared := hClears listing.other added hAdd
        rcases hOther hAdd with ⟨_, hNone⟩
        rw [Listing.other_other] at hCleared hNone
        rw [Change.applyTo, ListChange.applyTo, hNone] at hMem
        exact hCleared hMem
    · rcases hOther hAdd with ⟨_, hNone⟩
      rw [Change.applyTo, ListChange.applyTo, hNone] at hBoth
      exact hClears listing added hAdd hBoth

------------------------------------------------------------
-- Manifests That Are Kept
------------------------------------------------------------

section Kept

variable {place : Location}
variable {tree other : Tree}

theorem isReread_of_keepsFile
    {change : Change}
    (hKeeps :
      tree.KeepsFile (manifestLocation place root) other)
    (hReread : IsReread place tree root change) :
    IsReread place other root change :=
  fun original progress hText =>
    hReread original progress
      (manifestTextAt_of_keepsFile hKeeps hText)

end Kept

end Membership

namespace Workspace

open ScriptWorkspace.Membership

variable {ω : Type}
variable {outside : Outside ω}
variable {session : Session ω}
variable {root : Path}

------------------------------------------------------------
-- Workspaces
------------------------------------------------------------

section Trees

variable {place : Location}
variable {tree : Tree}

/- No member and no entry that excludes lead to one path. -/
def IsApart
    (place : Location)
    (tree : Tree)
    (root : Path) : Prop :=
  ∀ manifest,
    manifestAt place tree root = some manifest →
      ∀ member ∈ itemsOf (inWorkspace "members" manifest),
        ∀ excluded ∈
            itemsOf (inWorkspace "exclude" manifest),
          ∀ entry,
            member.text? = some entry →
              ¬ LeadsAs root entry excluded

/- That is to say, the lists of the roster are apart. -/
theorem isApart_iff :
    IsApart place tree root ↔
      ∀ roster,
        rosterAt place tree root = some roster →
          roster.IsApart := by
  unfold IsApart rosterAt
  cases manifestAt place tree root with
  | none => simp
  | some manifest =>
      simp only [Option.some.injEq, forall_eq',
        Option.map_some, Roster.isApart_iff]
      constructor
      · intro hApart path hMember hExcluded
        rcases List.mem_filterMap.mp hMember with
          ⟨member, hMem, hPath⟩
        rcases Option.map_eq_some_iff.mp hPath with
          ⟨entry, hEntry, rfl⟩
        rcases mem_pathsOf_iff.mp hExcluded with
          ⟨excluded, hOther, hLeads⟩
        exact hApart member hMem excluded hOther entry hEntry
          hLeads
      · intro hApart member hMem excluded hOther entry hEntry
          hLeads
        refine hApart (root.join entry) ?_ ?_
        · refine List.mem_filterMap.mpr ⟨member, hMem, ?_⟩
          rw [pathOf?, hEntry]
          rfl
        · exact mem_pathsOf_iff.mpr ⟨excluded, hOther, hLeads⟩

instance
    (place : Location)
    (tree : Tree)
    (root : Path) :
    Decidable (IsApart place tree root) :=
  match hRoster : rosterAt place tree root with
  | some roster =>
    decidable_of_iff roster.IsApart
      (by simp [isApart_iff, hRoster])
  | none => isTrue (by simp [isApart_iff, hRoster])

end Trees

------------------------------------------------------------
-- Steps
------------------------------------------------------------

/- A task that is to be carried out, or to be run dry. -/
structure Step where
  task : Task
  dryRun : Bool

/- Carry it out. -/
def Step.run (root : Path) (step : Step) : Action ω Unit :=
  step.task.run root step.dryRun

/-
  A task writes no file over the manifest of the workspace,
  and what it makes of the members can be spelled and read.
-/
structure Task.IsRegular
    (outside : Outside ω)
    (session : Session ω)
    (root : Path)
    (task : Task) : Prop where
  spares :
    ∀ path ∈ (task.effect outside session root).files,
      spelledLocation outside.directory.names path ≠
        manifestLocation outside.directory.names root
  proper :
    ∀ change ∈ (task.effect outside session root).change?,
      change.IsProper
  reread :
    ∀ change ∈ (task.effect outside session root).change?,
      IsReread outside.directory.names session.tree root
        change

instance
    (outside : Outside ω)
    (session : Session ω)
    (root : Path)
    (task : Task) :
    Decidable (task.IsRegular outside session root) :=
  decidable_of_iff
    ((∀ path ∈ (task.effect outside session root).files,
        spelledLocation outside.directory.names path ≠
          manifestLocation outside.directory.names root) ∧
      ∀ change ∈ (task.effect outside session root).change?,
        change.IsProper ∧
          IsReread outside.directory.names session.tree root
            change)
    (by
      constructor
      · rintro ⟨hSpares, hChange⟩
        exact
          ⟨hSpares, fun change hMem => (hChange change hMem).1,
            fun change hMem => (hChange change hMem).2⟩
      · rintro ⟨hSpares, hProper, hReread⟩
        exact
          ⟨hSpares, fun change hMem =>
            ⟨hProper change hMem, hReread change hMem⟩⟩)

/- Every change that a task can make is one of four. -/
theorem Task.change_of_effect
    {task : Task}
    {change : Change}
    (hChange :
      (task.effect outside session root).change? =
        some change) :
    ∃ path,
      change = .addMember path ∨
        change = .include path ∨
          change = .exclusion path ∨
            change = .removal path := by
  have hScript
      {directoryFor : Text → Path}
      {script : Text}
      (hChange :
        (scriptEffect directoryFor script).change? =
          some change) :
      ∃ path, change = .addMember path := by
    unfold scriptEffect at hChange
    split at hChange
    · cases hChange
    · cases hChange
      exact ⟨_, rfl⟩
  cases task with
  | including path =>
      cases hChange
      exact ⟨path, .inr (.inl rfl)⟩
  | excluding path =>
      cases hChange
      exact ⟨path, .inr (.inr (.inl rfl))⟩
  | removing directory =>
      cases hChange
      exact ⟨directory, .inr (.inr (.inr rfl))⟩
  | registering metadata manifest script binary =>
      dsimp only [Task.effect, registerEffect] at hChange
      split at hChange
      · cases hChange
      · split at hChange
        · cases hChange
        · cases hChange
          exact ⟨_, .inr (.inl rfl)⟩
  | importing script directoryFor =>
      exact (hScript hChange).imp fun _ => .inl
  | creating directory template name templatePackage =>
      cases hChange
      exact ⟨directory, .inl rfl⟩
  | cloning client gistId gistIds directoryFor =>
      dsimp only [Task.effect] at hChange
      split at hChange
      · exact (hScript hChange).imp fun _ => .inl
      · cases hChange

theorem Task.isOneSided_of_effect
    {task : Task}
    {change : Change}
    (hChange :
      (task.effect outside session root).change? =
        some change) :
    change.IsOneSided := by
  rcases task.change_of_effect hChange with
    ⟨path, rfl | rfl | rfl | rfl⟩
  · exact Listing.forall_iff.mpr ⟨.inr ⟨rfl, rfl⟩, .inl rfl⟩
  · exact Listing.forall_iff.mpr ⟨.inr ⟨rfl, rfl⟩, .inl rfl⟩
  · exact Listing.forall_iff.mpr ⟨.inl rfl, .inr ⟨rfl, rfl⟩⟩
  · exact Listing.forall_iff.mpr ⟨.inl rfl, .inl rfl⟩

/- A course that keeps the manifest comes to one change. -/
theorem rosterAt_of_course
    {change? : Option Change}
    {after : Session ω}
    {now : Roster}
    (hProper : ∀ change ∈ change?, change.IsProper)
    (hReread :
      ∀ change ∈ change?,
        IsReread outside.directory.names session.tree root
          change)
    (hCourse :
      Course outside root
        (Tree.KeepsFile
          (manifestLocation outside.directory.names root))
        change? session after)
    (hNow :
      rosterAt outside.directory.names after.tree root =
        some now) :
    ∃ before,
      rosterAt outside.directory.names session.tree root =
          some before ∧
        (now = before ∨
          ∃ change,
            change? = some change ∧
              now = change.applyTo root before) := by
  cases hCourse with
  | kept hKept =>
      exact ⟨now, rosterAt_of_keepsFile hKept hNow, .inl rfl⟩
  | @changed change result between later hChange hFront hRun
      hBack =>
      have hLater := rosterAt_of_keepsFile hBack hNow
      have hModified :=
        rosterAt_of_modify (hProper change hChange)
          (fun _ =>
            isReread_of_keepsFile hFront
              (hReread change hChange))
          hRun
      rcases hModified with
        hTree | ⟨roster, hRoster, hApplied⟩
      · rw [hTree] at hLater
        exact
          ⟨now, rosterAt_of_keepsFile hFront hLater, .inl rfl⟩
      · rw [hApplied] at hLater
        cases hLater
        exact
          ⟨roster, rosterAt_of_keepsFile hFront hRoster,
            .inr ⟨change, hChange, rfl⟩⟩

/- A step leaves the roster, or makes its change to it. -/
theorem Step.rosterAt_run
    {step : Step}
    {now : Roster}
    (hPlace : Tree.parentName ∉ outside.directory.names)
    (hRegular :
      step.dryRun = false →
        step.task.IsRegular outside session root)
    (hNow :
      rosterAt outside.directory.names
          ((step.run root).perform outside session).2.tree
          root =
        some now) :
    ∃ before,
      rosterAt outside.directory.names session.tree root =
          some before ∧
        (now = before ∨
          ∃ change,
            (step.task.effect outside session root).change? =
                some change ∧
              now = change.applyTo root before) := by
  rcases step with ⟨task, dryRun⟩
  cases dryRun with
  | true =>
      have hDry : (task.run root true).OnlyAsks outside :=
        task.onlyAsks_run root
      rw [Step.run, (hDry session).tree] at hNow
      exact ⟨now, hNow, .inl rfl⟩
  | false =>
      rcases hRegular rfl with ⟨hSpares, hProper, hReread⟩
      exact
        rosterAt_of_course hProper hReread
          (task.keeping_run hPlace hSpares) hNow

/- If the change of the step is made, it clears what it adds. -/
def Step.Clears
    (outside : Outside ω)
    (session : Session ω)
    (root : Path)
    (step : Step) : Prop :=
  ∀ before change,
    rosterAt outside.directory.names session.tree root =
        some before →
      (step.task.effect outside session root).change? =
          some change →
        rosterAt outside.directory.names
              ((step.run root).perform outside
                session).2.tree
              root =
            some (change.applyTo root before) →
          change.Clears root before

/- A step keeps the lists apart if it clears what it adds. -/
theorem Step.isApart_run_iff
    {step : Step}
    (hPlace : Tree.parentName ∉ outside.directory.names)
    (hRegular :
      step.dryRun = false →
        step.task.IsRegular outside session root)
    (hBefore :
      IsApart outside.directory.names session.tree root) :
    IsApart outside.directory.names
        ((step.run root).perform outside session).2.tree
        root ↔
      step.Clears outside session root := by
  rw [isApart_iff] at hBefore
  constructor
  · intro hAfter before change hRoster hChange hNow
    exact
      (isApart_applyTo_iff (Task.isOneSided_of_effect hChange)
        (hBefore before hRoster)).mp
        (isApart_iff.mp hAfter _ hNow)
  · intro hClears
    refine isApart_iff.mpr fun now hNow => ?_
    rcases step.rosterAt_run hPlace hRegular hNow with
      ⟨before, hRoster, rfl | ⟨change, hChange, rfl⟩⟩
    · exact hBefore now hRoster
    · exact
        (isApart_applyTo_iff
          (Task.isOneSided_of_effect hChange)
          (hBefore before hRoster)).mpr
          (hClears before change hRoster hChange hNow)

/-
  Whatever is done to a workspace whose lists are apart: they
  are so after every step if and only if each step clears what
  it adds to one of them from the other.
-/
theorem steps_keep_apart_iff
    (outside : Outside ω)
    (session : Session ω)
    (root : Path)
    (steps : List Step)
    (hPlace : Tree.parentName ∉ outside.directory.names)
    (hRegular :
      ∀ front step,
        front ++ [step] <+: steps →
          step.dryRun = false →
            step.task.IsRegular outside
              (session.afterSteps outside (Step.run root)
                front)
              root)
    (hStart :
      IsApart outside.directory.names session.tree root) :
    (∀ front,
        front <+: steps →
          IsApart outside.directory.names
            (session.afterSteps outside (Step.run root)
              front).tree
            root) ↔
      ∀ front step,
        front ++ [step] <+: steps →
          step.Clears outside
            (session.afterSteps outside (Step.run root) front)
            root := by
  constructor
  · intro hApart front step hPrefix
    have hBefore :=
      hApart front
        ((List.prefix_append front [step]).trans hPrefix)
    have hAfter := hApart (front ++ [step]) hPrefix
    rw [Session.afterSteps_concat] at hAfter
    exact
      (step.isApart_run_iff hPlace
        (hRegular front step hPrefix) hBefore).mp hAfter
  · intro hClears
    refine
      Session.forall_prefix_of_step
        (fun session =>
          IsApart outside.directory.names session.tree root)
        hStart ?_
    intro front step hPrefix hBefore
    exact
      (step.isApart_run_iff hPlace
        (hRegular front step hPrefix) hBefore).mpr
        (hClears front step hPrefix)

/- A workspace with a member, and with an excluded path. -/
def startWith (excluded : String) : Session Unit :=
  .start
    ⟨[(["ws"], .directory),
      (["ws", "Cargo.toml"],
        .file
          (.text
            (("[workspace]\nmembers = [\"a\"]\nexclude = [\"" ++
                  excluded ++
                "\"]\n" :
              String).toList)))]⟩
    ()

/- A script becomes a package in a directory of its name. -/
def importHello : Task :=
  .importing
    ("//! ```cargo\n//! [package]\n//! name = \"hello\"\n//! ```\n" :
      String).toList
    fun name => (Path.ofText ("/ws" : String)).join name

/- The path of an imported package is still excluded. -/
theorem excluded_after_import :
    IsApart Files.surroundings.directory.names
        (startWith "hello").tree
        (Path.ofText ("/ws" : String)) ∧
      ¬ IsApart Files.surroundings.directory.names
        ((Step.run (Path.ofText ("/ws" : String))
              { task := importHello, dryRun := false }).perform
            Files.surroundings (startWith "hello")).2.tree
        (Path.ofText ("/ws" : String)) := by
  decide +kernel

/- Several tasks, one of them run dry. -/
def severalSteps : List Step :=
  [{ task := .including (Path.ofText ("/ws/b" : String)),
      dryRun := false },
    { task := importHello, dryRun := false },
    { task := .excluding (Path.ofText ("/ws/a" : String)),
      dryRun := false },
    { task := .including (Path.ofText ("/ws/a" : String)),
      dryRun := true },
    { task := .removing (Path.ofText ("/ws/hello" : String)),
      dryRun := false }]

theorem steps_keep_apart_iff_several :
    Tree.parentName ∉ Files.surroundings.directory.names ∧
      (∀ front step,
        front ++ [step] <+: severalSteps →
          step.dryRun = false →
            step.task.IsRegular Files.surroundings
              ((startWith "b").afterSteps Files.surroundings
                (Step.run (Path.ofText ("/ws" : String)))
                front)
              (Path.ofText ("/ws" : String))) ∧
        IsApart Files.surroundings.directory.names
            (startWith "b").tree
            (Path.ofText ("/ws" : String)) ∧
          IsApart Files.surroundings.directory.names
            ((startWith "b").afterSteps Files.surroundings
              (Step.run (Path.ofText ("/ws" : String)))
              severalSteps).tree
            (Path.ofText ("/ws" : String)) := by
  have hPlace :
      Tree.parentName ∉ Files.surroundings.directory.names := by
    decide
  have hRegular :
      ∀ front step,
        front ++ [step] <+: severalSteps →
          step.dryRun = false →
            step.task.IsRegular Files.surroundings
              ((startWith "b").afterSteps Files.surroundings
                (Step.run (Path.ofText ("/ws" : String)))
                front)
              (Path.ofText ("/ws" : String)) := by
    rw [Session.forall_step_iff]
    decide +kernel
  have hStart :
      IsApart Files.surroundings.directory.names
        (startWith "b").tree
        (Path.ofText ("/ws" : String)) := by
    decide +kernel
  have hClears :
      ∀ front step,
        front ++ [step] <+: severalSteps →
          ∀ before ∈
              rosterAt Files.surroundings.directory.names
                ((startWith "b").afterSteps
                  Files.surroundings
                  (Step.run (Path.ofText ("/ws" : String)))
                  front).tree
                (Path.ofText ("/ws" : String)),
            ∀ change ∈
                (step.task.effect Files.surroundings
                  ((startWith "b").afterSteps
                    Files.surroundings
                    (Step.run (Path.ofText ("/ws" : String)))
                    front)
                  (Path.ofText ("/ws" : String))).change?,
              change.Clears (Path.ofText ("/ws" : String))
                before := by
    rw [Session.forall_step_iff]
    decide +kernel
  have hApart :=
    (steps_keep_apart_iff Files.surroundings (startWith "b")
      (Path.ofText ("/ws" : String)) severalSteps hPlace
      hRegular hStart).mpr
      fun front step hPrefix before change hBefore hChange _ =>
        hClears front step hPrefix before hBefore change hChange
  exact
    ⟨hPlace, hRegular, hStart,
      hApart severalSteps (List.prefix_refl _)⟩

end Workspace

end ScriptWorkspace
