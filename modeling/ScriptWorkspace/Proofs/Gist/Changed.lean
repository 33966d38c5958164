import Mathlib.Data.List.Pairwise
import ScriptWorkspace.Proofs.Gist.Pull

/-
  Files that are replaced where they differ.

  Files that were read can be written together, so only moving
  them can leave some of them replaced. If no two of them are
  the same file, then all have their new text in the end, and
  everything else is as it was.

  Main declarations:
    * `Sync.writeAll_of_read`
    * `Sync.IsReplaced`
    * `Sync.replaceChanged_ends`
    * `Sync.AreDistinct`
    * `Sync.IsReplaced.textAt`
    * `Sync.IsReplaced.find?_eq`
-/

namespace ScriptWorkspace

open Storage Storage.Calls

variable {ω : Type}

namespace Sync

------------------------------------------------------------
-- Files That Are Replaced
------------------------------------------------------------

/- Nothing but a failed move leaves other files. -/
def IsMove (failure : Failure) : Prop :=
  ∃ path fault, failure = .file (.write path fault)

/- Files that were read are replaced, or they are kept. -/
theorem writeAll_of_read
    (outside : Outside ω)
    (session : Session ω)
    (files : List (Path × Text))
    (hPlace : Tree.parentName ∉ outside.directory.names)
    (hRead :
      ∀ file ∈ files,
        ∃ old,
          Files.textAt outside.directory.names session.tree
              file.1 =
            .ok old) :
    ∃ result after,
      (Files.writeAll files false).perform outside session =
          (result, after) ∧
        match result with
        | .error failure =>
          IsMove failure ∨ after.tree = session.tree
        | .ok _ =>
          (∀ file ∈ Files.contents files,
            ∃ goal,
              Takes session.tree outside.directory.names
                file.1 goal) ∧
            after.tree =
              putFiles outside.directory.names
                (Files.contents files) session.tree := by
  have hApart
      (entries : List StagedFile)
      (tree : Tree)
      (hStaging :
        IsStaging outside.directory.names session.tree entries
          tree)
      (hFiles :
        entries.map Files.purpose = Files.contents files) :
      Files.AreApart outside.directory.names session.tree
        entries := by
    refine Files.areApart_of_found hStaging ?_
    intro entry hEntry goal hTakes hFree
    have hPath : entry.path ∈ files.map Prod.fst := by
      rw [← Files.map_path_of_purpose hFiles]
      exact List.mem_map_of_mem hEntry
    rcases List.mem_map.mp hPath with ⟨file, hMem, hSame⟩
    rcases hRead file hMem with ⟨old, hOld⟩
    rcases Files.textAt_eq_ok_iff.mp hOld with
      ⟨_, location, hResolved, hFound⟩
    rw [hSame] at hResolved
    cases hResolved.symm.trans hTakes.resolved
    cases hFree.symm.trans hFound
  rcases Files.writeAll_ends outside session files hPlace
      hApart with
    ⟨result, after, log, hRun, hEnd⟩
  refine ⟨result, _, hRun, ?_⟩
  cases hEnd with
  | notStaged fault => exact .inr rfl
  | @unusable front back path text entries tree hFiles
      hPath =>
      have hMem : (path, text) ∈ files := by
        rw [hFiles]
        simp
      rcases hRead _ hMem with ⟨old, hOld⟩
      have hUsable := (Files.textAt_eq_ok_iff.mp hOld).1
      cases hPath.symm.trans hUsable
  | moving hEnd =>
      cases hEnd with
      | moved hTaken => exact ⟨hTaken, rfl⟩
      | stopped fault => exact .inl ⟨_, _, rfl⟩

/- The changes of files, with one for each path. -/
def distinctChanges
    (files : List (Path × Text × Text)) :
    List (Path × Text) :=
  Workspace.distinctFiles (changesOf files)

/-
  The files with an old and a new text that differ, and only
  they, were replaced.
-/
structure IsReplaced
    (place : Location)
    (before : Tree)
    (files : List (Path × Text × Text))
    (changed : List Path)
    (after : Tree) : Prop where
  paths : changed = (distinctChanges files).map Prod.fst
  taken :
    ∀ file ∈ Files.contents (distinctChanges files),
      ∃ goal, Takes before place file.1 goal
  after_eq :
    after =
      putFiles place (Files.contents (distinctChanges files))
        before

theorem mem_of_mem_changesOf
    {files : List (Path × Text × Text)}
    {path : Path}
    {new : Text}
    (hMem : (path, new) ∈ changesOf files) :
    ∃ old, (path, old, new) ∈ files ∧ old ≠ new := by
  rcases List.mem_map.mp hMem with
    ⟨⟨place, old, text⟩, hFiltered, hSame⟩
  cases hSame
  rcases List.mem_filter.mp hFiltered with ⟨hIn, hOther⟩
  exact ⟨old, hIn, of_decide_eq_true hOther⟩

/- Files that were read are replaced where they differ. -/
theorem replaceChanged_ends
    (outside : Outside ω)
    (session : Session ω)
    (files : List (Path × Text × Text))
    (hPlace : Tree.parentName ∉ outside.directory.names)
    (hRead :
      ∀ file ∈ files,
        Files.textAt outside.directory.names session.tree
            file.1 =
          .ok file.2.1) :
    ∃ result after,
      (replaceChanged false files).perform outside session =
          (result, after) ∧
        match result with
        | .error failure =>
          IsMove failure ∨ after.tree = session.tree
        | .ok changed =>
          IsReplaced outside.directory.names session.tree
            files changed after.tree := by
  rcases performs_changedFiles outside session files with
    ⟨logged, hLogged⟩
  have hTree : logged.tree = session.tree := by
    rw [hLogged.isAfter.others]
  have hOld :
      ∀ file ∈ distinctChanges files,
        ∃ old,
          Files.textAt outside.directory.names logged.tree
              file.1 =
            .ok old := by
    rintro ⟨path, new⟩ hMem
    rcases mem_of_mem_changesOf
        (Workspace.mem_of_mem_distinctFiles hMem) with
      ⟨old, hIn, _⟩
    rw [hTree]
    exact ⟨old, hRead _ hIn⟩
  unfold replaceChanged
  rw [Action.perform_bind, hLogged.run]
  dsimp only
  rw [← distinctChanges]
  cases hChanges : distinctChanges files with
  | nil =>
      refine ⟨_, logged, rfl, ?_⟩
      dsimp only
      constructor
      case paths => rw [hChanges]
      case taken =>
        rw [hChanges]
        exact List.forall_mem_nil _
      case after_eq =>
        rw [hChanges, hTree]
        rfl
  | cons first others =>
      rw [← hChanges]
      rcases writeAll_of_read outside logged
          (distinctChanges files) hPlace hOld with
        ⟨result, after, hRun, hEnd⟩
      have hSome : (distinctChanges files).isEmpty = false := by
        rw [hChanges]
        rfl
      rw [hSome, if_neg Bool.false_ne_true,
        Action.perform_bind, hRun]
      rw [hTree] at hEnd
      cases result with
      | error failure => exact ⟨_, after, rfl, hEnd⟩
      | ok done =>
          exact ⟨_, after, rfl, rfl, hEnd.1, hEnd.2⟩

------------------------------------------------------------
-- Files That Are Apart
------------------------------------------------------------

/- The one path does not lead to where the other one does. -/
def LeadApart
    (place : Location)
    (tree : Tree)
    (path other : Path) : Prop :=
  ∀ location,
    tree.resolve place path = .ok location →
      tree.resolve place other ≠ .ok location

theorem LeadApart.symm
    {place : Location}
    {tree : Tree}
    {path other : Path}
    (hApart : LeadApart place tree path other) :
    LeadApart place tree other path :=
  fun location hOther hPath => hApart location hPath hOther

section Apart

variable {place : Location}
variable {before after : Tree}
variable {files : List (Path × Text × Text)}
variable {changed : List Path}

/- All files can be read, and none is another one. -/
structure AreDistinct
    (place : Location)
    (tree : Tree)
    (files : List (Path × Text × Text)) : Prop where
  read :
    ∀ file ∈ files,
      Files.textAt place tree file.1 = .ok file.2.1
  apart :
    files.Pairwise fun file other =>
      LeadApart place tree file.1 other.1

theorem AreDistinct.pairwise_changesOf
    (hFiles : AreDistinct place before files) :
    (changesOf files).Pairwise fun file other =>
      LeadApart place before file.1 other.1 :=
  List.pairwise_map.mpr (hFiles.apart.filter _)

/- Each path of them is different, so all are changed. -/
theorem AreDistinct.distinctChanges_eq
    (hFiles : AreDistinct place before files) :
    distinctChanges files = changesOf files := by
  refine Workspace.distinctFiles_of_pairwise ?_
  refine
    hFiles.pairwise_changesOf.imp_of_mem ?_
  rintro ⟨path, new⟩ other hMem _ hApart rfl
  rcases mem_of_mem_changesOf hMem with ⟨old, hIn, _⟩
  rcases Files.textAt_eq_ok_iff.mp (hFiles.read _ hIn) with
    ⟨_, location, hResolved, _⟩
  exact hApart location hResolved hResolved

theorem IsReplaced.sameDirectories
    (hReplaced : IsReplaced place before files changed after) :
    before.SameDirectories after := by
  rw [hReplaced.after_eq]
  exact sameDirectories_putFiles hReplaced.taken

/- Elsewhere all is as it was. -/
theorem IsReplaced.find?_eq
    (hReplaced : IsReplaced place before files changed after)
    {location : Location}
    (hOther :
      ∀ path ∈ changed,
        before.resolve place path ≠ .ok location) :
    after.find? location = before.find? location := by
  rw [hReplaced.after_eq]
  refine find?_putFiles_of_ne fun file hMem => ?_
  rcases hReplaced.taken file hMem with ⟨goal, hTakes⟩
  refine ⟨goal, hTakes, ?_⟩
  rintro rfl
  refine hOther file.1 ?_ hTakes.resolved
  rw [hReplaced.paths]
  rcases List.mem_map.mp hMem with ⟨change, hChange, rfl⟩
  exact List.mem_map_of_mem hChange

/- No file that stays the same is where another one was put. -/
theorem AreDistinct.resolve_ne
    (hFiles : AreDistinct place before files)
    {path other : Path}
    {old new : Text}
    (hMem : (path, old, old) ∈ files)
    {location : Location}
    (hResolved : before.resolve place path = .ok location)
    (hOther : (other, new) ∈ changesOf files) :
    before.resolve place other ≠ .ok location := by
  rcases mem_of_mem_changesOf hOther with
    ⟨text, hIn, hChanged⟩
  have hDifferent : (path, old, old) ≠ (other, text, new) := by
    intro hSame
    cases hSame
    exact hChanged rfl
  have hSymm :
      Std.Symm fun file other : Path × Text × Text =>
        LeadApart place before file.1 other.1 :=
    ⟨fun _ _ hPair => hPair.symm⟩
  have hApart := hFiles.apart.forall hMem hIn hDifferent
  exact hApart location hResolved

/- All texts are the new ones now. -/
theorem IsReplaced.textAt
    (hReplaced : IsReplaced place before files changed after)
    (hFiles : AreDistinct place before files)
    {path : Path}
    {old new : Text}
    (hMem : (path, old, new) ∈ files) :
    Files.textAt place after path = .ok new := by
  rcases Files.textAt_eq_ok_iff.mp (hFiles.read _ hMem) with
    ⟨hUsable, location, hResolved, hFound⟩
  have hAfter :=
    hReplaced.sameDirectories.resolve_eq_ok_iff.mp hResolved
  refine
    Files.textAt_eq_ok_iff.mpr
      ⟨hUsable, location, hAfter, ?_⟩
  by_cases hSame : old = new
  · subst hSame
    refine (hReplaced.find?_eq fun other hOther => ?_).trans
      hFound
    rw [hReplaced.paths, hFiles.distinctChanges_eq] at hOther
    rcases List.mem_map.mp hOther with
      ⟨⟨place, text⟩, hChange, rfl⟩
    exact hFiles.resolve_ne hMem hResolved hChange
  · have hIn : (path, new) ∈ changesOf files := by
      refine List.mem_map.mpr ⟨(path, old, new), ?_, rfl⟩
      exact
        List.mem_filter.mpr ⟨hMem, decide_eq_true hSame⟩
    have hTaken := hReplaced.taken
    rw [hReplaced.after_eq]
    rw [hFiles.distinctChanges_eq] at hTaken ⊢
    rcases
        ((Files.hasPut_putFiles hTaken).isAllOrNothing
          hFiles.pairwise_changesOf).1 _ hIn with
      ⟨goal, hGoal, hPut⟩
    cases hResolved.symm.trans hGoal
    exact hPut

end Apart

end Sync

end ScriptWorkspace
