import ScriptWorkspace.Proofs.Session.Perform
import ScriptWorkspace.Proofs.Storage.Moving
import ScriptWorkspace.Session.Files

/-
  Replacing several files together.

  First all files are staged, then they are moved one after
  another. A fault while they are staged changes nothing. A
  fault while they are moved leaves no temporary file, but it
  does not bring back what was replaced before: the files
  before the one at fault stay replaced. And a path that the
  system does not take ends the staging with the temporary
  files of those before it.

  Staging and moving fail for the paths and what the tree has
  there, and for nothing else: the tree has no links, and a
  device no faults.

  Main declarations:
    * `Files.stageAll_ends`
    * `Files.moveAll_ends`
    * `Files.Replacement`
    * `Files.writeAll_ends`
    * `Files.IsAllOrNothing`
    * `Files.HasPut`
    * `Files.ReplacedInOrder`
    * `Files.writeAll_replaces_in_order`
-/

namespace ScriptWorkspace

namespace Files

open Storage Storage.Calls

variable {ω : Type}
variable {outside : Outside ω}

------------------------------------------------------------
-- Single Steps
------------------------------------------------------------

/- The path can be handed to the system at all. -/
def isUsable (path : Path) : Bool :=
  !path.names.any (·.any (· == .char '\x00'))

/- A staged file as it is kept until it is moved. -/
def stagedOf (file : StagedFile) : Staged :=
  { temporary := file.temporary, path := file.path }

/- The tree without staged files. -/
def removed
    (place : Location)
    (staged : List Staged)
    (tree : Tree) : Tree :=
  staged.foldl
    (fun tree file => removeFile tree place file.temporary)
    tree

theorem perform_requireUsable
    (path : Path)
    (session : Session ω) :
    (Action.requireUsable path).perform outside session =
      (if isUsable path then .ok ()
        else .error (.unexpected .pathWithNull),
        session) := by
  unfold Action.requireUsable isUsable
  cases path.names.any (·.any (· == .char '\x00')) with
  | true => rfl
  | false => rfl

/- The next file is staged before the other ones. -/
theorem perform_stageAll_cons
    (count : Nat)
    (staged : List Staged)
    (path : Path)
    (content : Text)
    (files : List (Path × Text))
    (session : Session ω) :
    (stageAll count staged ((path, content) :: files)).perform
          outside session =
      if isUsable path then
        match
          stage session.tree outside.directory.names path
            (.text content) with
        | .ok (written, temporary) =>
          (stageAll count ({ temporary, path } :: staged)
              files).perform outside
            { session with tree := written }
        | .error fault =>
          (.error (.file (.stage count fault)),
            { session with
              tree :=
                removed outside.directory.names staged
                  session.tree })
      else
        (.error (.unexpected .pathWithNull), session) := by
  rw [stageAll, Action.perform_bind, perform_requireUsable]
  cases isUsable path with
  | false => rfl
  | true =>
      change
        (match
          stage session.tree outside.directory.names path
            (.text content) with
        | .ok (written, temporary) => _
        | .error fault => _ : Action ω _).perform outside
            session =
          _
      cases
        stage session.tree outside.directory.names path
          (.text content) with
      | ok found => rfl
      | error fault => rfl

/- The record that a file was written. -/
def wroteRecord (path : Path) : LogRecord :=
  { level := .info
    message := (["Wrote ", path.text] : List OsText).flatten }

/- The next file is moved before the other ones. -/
theorem perform_moveAll_cons
    (file : Staged)
    (files : List Staged)
    (session : Session ω) :
    (moveAll (file :: files)).perform outside session =
      match
        moveFile session.tree outside.directory.names
          file.temporary file.path with
      | .ok moved =>
        (moveAll files).perform outside
          { session with
            tree := moved
            log := session.log ++ [wroteRecord file.path] }
      | .error fault =>
        (.error (.file (.write file.path fault)),
          { session with
            tree :=
              removed outside.directory.names (file :: files)
                session.tree }) := by
  rw [moveAll]
  change
    (match
      moveFile session.tree outside.directory.names
        file.temporary file.path with
    | .ok moved => _
    | .error fault => _ : Action ω _).perform outside
        session =
      _
  cases
    moveFile session.tree outside.directory.names
      file.temporary file.path with
  | ok moved => rfl
  | error fault => rfl

------------------------------------------------------------
-- Staging
------------------------------------------------------------

/- What is to be put where, as contents of files. -/
def contents
    (files : List (Path × Text)) : List (Path × Content) :=
  files.map fun (path, text) => (path, .text text)

/- What a staged file is for. -/
def purpose (file : StagedFile) : Path × Content :=
  (file.path, file.content)

/-
  How staging ends: all files are staged, or none is any
  more, or a path that cannot be used ended it half way.
-/
inductive StagingEnd
    (place : Location)
    (base : Tree)
    (count : Nat)
    (files : List (Path × Text)) :
    Except Failure (List Staged) → Tree → Prop
  | staged
      {entries : List StagedFile}
      {tree : Tree}
      (hStaging : IsStaging place base entries tree)
      (hFiles : entries.map purpose = contents files) :
      StagingEnd place base count files
        (.ok (entries.map stagedOf)) tree
  | failed (fault : StorageFault) :
      StagingEnd place base count files
        (.error (.file (.stage count fault))) base
  | unusable
      {front back : List (Path × Text)}
      {path : Path}
      {text : Text}
      {entries : List StagedFile}
      {tree : Tree}
      (hFiles : files = front ++ (path, text) :: back)
      (hPath : isUsable path = false)
      (hStaging : IsStaging place base entries tree)
      (hFront : entries.map purpose = contents front) :
      StagingEnd place base count files
        (.error (.unexpected .pathWithNull)) tree

theorem removed_stagedOf
    {place : Location}
    {base tree : Tree}
    {entries : List StagedFile}
    (hStaging : IsStaging place base entries tree) :
    removed place (entries.map stagedOf) tree = base := by
  rw [removed, List.foldl_map]
  exact hStaging.foldl_removeFile

theorem stageAll_ends
    {base : Tree}
    (hPlace : Tree.parentName ∉ outside.directory.names)
    (count : Nat)
    (done files : List (Path × Text))
    {entries : List StagedFile}
    (session : Session ω)
    (hStaging :
      IsStaging outside.directory.names base entries
        session.tree)
    (hDone : entries.reverse.map purpose = contents done) :
    ∃ result tree,
      (stageAll count (entries.map stagedOf) files).perform
            outside session =
          (result, { session with tree }) ∧
        StagingEnd outside.directory.names base count
          (done ++ files) result tree := by
  -- The files that are staged are kept with the last first.
  induction files generalizing done entries session with
  | nil =>
      refine ⟨_, session.tree, rfl, ?_⟩
      rw [List.append_nil, ← List.map_reverse]
      exact .staged hStaging.reverse hDone
  | cons file files ih =>
      rcases file with ⟨path, text⟩
      rw [perform_stageAll_cons]
      cases hPath : isUsable path with
      | false =>
          exact
            ⟨_, session.tree, rfl,
              .unusable rfl hPath hStaging.reverse hDone⟩
      | true =>
          rw [if_pos rfl]
          cases hStage :
              stage session.tree outside.directory.names path
                (.text text) with
          | error fault =>
              refine ⟨_, base, ?_, .failed fault⟩
              rw [removed_stagedOf hStaging]
          | ok found =>
              rcases found with ⟨written, temporary⟩
              rcases hStaging.cons hPlace hStage with
                ⟨location, hNext⟩
              have hNextDone :
                  ({ path, content := .text text, temporary,
                      location } ::
                    entries : List StagedFile).reverse.map
                      purpose =
                    contents (done ++ [(path, text)]) := by
                simp [contents, purpose] at hDone ⊢
                exact hDone
              have hRest :=
                ih (done ++ [(path, text)])
                  { session with tree := written } hNext
                  hNextDone
              rw [List.append_assoc] at hRest
              exact hRest

------------------------------------------------------------
-- Moving
------------------------------------------------------------

/-
  How moving ends: all files are put where their paths lead
  to, or those before one whose path takes no file.
-/
inductive MovingEnd
    (place : Location)
    (base : Tree)
    (files : List (Path × Content)) :
    Except Failure Unit → Tree → Prop
  | moved
      (hTaken :
        ∀ file ∈ files,
          ∃ goal, Takes base place file.1 goal) :
      MovingEnd place base files (.ok ())
        (putFiles place files base)
  | stopped
      {front back : List (Path × Content)}
      {path : Path}
      {content : Content}
      (fault : StorageFault)
      (hFiles : files = front ++ (path, content) :: back)
      (hTaken :
        ∀ file ∈ front,
          ∃ goal, Takes base place file.1 goal)
      (hNot : ∀ goal, ¬ Takes base place path goal) :
      MovingEnd place base files
        (.error (.file (.write path fault)))
        (putFiles place front base)

/- A file that is put first. -/
theorem MovingEnd.cons
    {place goal : Location}
    {base tree : Tree}
    {files : List (Path × Content)}
    {result : Except Failure Unit}
    {path : Path}
    {content : Content}
    (hTakes : Takes base place path goal)
    (hEnd :
      MovingEnd place (base.set goal (.file content)) files
        result tree) :
    MovingEnd place base ((path, content) :: files) result
      tree := by
  have hBefore
      {files : List (Path × Content)}
      (hTaken :
        ∀ file ∈ files,
          ∃ place',
            Takes (base.set goal (.file content)) place file.1
              place') :
      ∀ file ∈ (path, content) :: files,
        ∃ place', Takes base place file.1 place' := by
    intro file hMem
    rcases List.mem_cons.mp hMem with rfl | hIn
    · exact ⟨goal, hTakes⟩
    · rcases hTaken file hIn with ⟨place', hFile⟩
      exact ⟨place', .of_set hTakes hFile⟩
  cases hEnd with
  | moved hTaken =>
      rw [← putFiles_cons hTakes]
      exact .moved (hBefore hTaken)
  | stopped fault hFiles hTaken hNot =>
      rw [← putFiles_cons hTakes]
      refine
        .stopped fault (by rw [hFiles]; rfl)
          (hBefore hTaken) ?_
      intro place' hPath
      exact hNot place' (hPath.set hTakes content)

/- No path is named like a temporary file for another one. -/
def AreNotTemporary (paths : List Path) : Prop :=
  ∀ path ∈ paths,
    ∀ other ∈ paths,
      ∀ n, path.name ≠ temporaryName other.name n

/- The name of a temporary file begins with a dot. -/
theorem areNotTemporary_of_no_dot
    {paths : List Path}
    (hPaths :
      ∀ path ∈ paths,
        path.name.head? ≠ some (.char '.')) :
    AreNotTemporary paths := by
  intro path hMem other _ n hName
  refine hPaths path hMem ?_
  rw [hName]
  rfl

/- No staged file is where another one is to be put. -/
def AreApart
    (place : Location)
    (base : Tree)
    (entries : List StagedFile) : Prop :=
  ∀ file ∈ entries,
    ∀ goal,
      Takes base place file.path goal →
        goal ∉ entries.map (·.location)

theorem areApart_of_areNotTemporary
    {place : Location}
    {base tree : Tree}
    {entries : List StagedFile}
    (hStaging : IsStaging place base entries tree)
    (hNames : AreNotTemporary (entries.map (·.path))) :
    AreApart place base entries := by
  intro file hMem goal hTakes
  rcases Tree.exists_eq_append_name hTakes.ends
      hTakes.resolved with
    ⟨parent, rfl⟩
  refine hStaging.not_mem_of_name ?_ parent
  exact fun other hOther =>
    hNames file.path (List.mem_map_of_mem hMem) other.path
      (List.mem_map_of_mem hOther)

/- Files that are replaced are not where others are staged. -/
theorem areApart_of_found
    {place : Location}
    {base tree : Tree}
    {entries : List StagedFile}
    (hStaging : IsStaging place base entries tree)
    (hFound :
      ∀ file ∈ entries,
        ∀ goal,
          Takes base place file.path goal →
            base.find? goal ≠ none) :
    AreApart place base entries :=
  fun file hMem goal hTakes hIn =>
    hFound file hMem goal hTakes (hStaging.find?_base hIn)

theorem AreApart.tail
    {place goal : Location}
    {base : Tree}
    {file : StagedFile}
    {entries : List StagedFile}
    (hApart : AreApart place base (file :: entries))
    (hTakes : Takes base place file.path goal) :
    AreApart place
      (base.set goal (.file file.content)) entries := by
  intro other hMem next hOther hIn
  exact
    hApart other (List.mem_cons_of_mem _ hMem) next
      (.of_set hTakes hOther) (List.mem_cons_of_mem _ hIn)

theorem moveAll_ends
    {base : Tree}
    {entries : List StagedFile}
    (session : Session ω)
    (hStaging :
      IsStaging outside.directory.names base entries
        session.tree)
    (hApart :
      AreApart outside.directory.names base entries) :
    ∃ result tree log,
      (moveAll (entries.map stagedOf)).perform outside
            session =
          (result, { session with tree, log }) ∧
        MovingEnd outside.directory.names base
          (entries.map purpose) result tree := by
  -- A move changes the tree below the files still staged.
  induction entries generalizing base session with
  | nil =>
      have hBase : base = session.tree := by
        rw [← hStaging.base_eq]
        exact session.tree.without_nil
      subst hBase
      exact
        ⟨.ok (), session.tree, session.log, rfl,
          .moved (List.forall_mem_nil _)⟩
  | cons file entries ih =>
      have hResolved :=
        hStaging.resolved file List.mem_cons_self
      have hFound := hStaging.found file List.mem_cons_self
      rw [List.map_cons, perform_moveAll_cons]
      cases hMove :
          moveFile session.tree outside.directory.names
            file.temporary file.path with
      | error fault =>
          have hNot :
              ∀ goal,
                ¬ Takes base outside.directory.names file.path
                  goal := by
            intro goal hTakes
            have hSession :=
              hTakes.of_sameDirectories
                hStaging.sameDirectories.symm
            rcases exists_moveFile_of_takes hResolved hFound
                hSession with
              ⟨moved, hMoved⟩
            cases hMove.symm.trans hMoved
          refine
            ⟨.error (.file (.write file.path fault)), base,
              session.log, ?_, ?_⟩
          · rw [← List.map_cons, removed_stagedOf hStaging]
            simp only [stagedOf, hMove]
          · exact
              .stopped fault (List.nil_append _).symm
                (List.forall_mem_nil _) hNot
      | ok moved =>
          have hOthers :
              ∀ goal,
                Takes base outside.directory.names file.path
                    goal →
                  goal ∉ entries.map (·.location) :=
            fun goal hTakes hIn =>
              hApart file List.mem_cons_self goal hTakes
                (List.mem_cons_of_mem _ hIn)
          rcases hStaging.move hOthers hMove with
            ⟨goal, hTakes, hRest⟩
          rcases ih
              { session with
                tree := moved
                log :=
                  session.log ++ [wroteRecord file.path] }
              hRest (hApart.tail hTakes) with
            ⟨result, tree, log, hRun, hEnd⟩
          refine ⟨result, tree, log, ?_, hEnd.cons hTakes⟩
          simp only [stagedOf, hMove]
          exact hRun

------------------------------------------------------------
-- Replacing
------------------------------------------------------------

/-
  How replacing files ends: before any of them is moved, with
  nothing changed unless a path cannot be used, or by moving.
-/
inductive Replacement
    (place : Location)
    (before : Tree)
    (files : List (Path × Text)) :
    Except Failure Unit → Tree → Prop
  | notStaged (fault : StorageFault) :
      Replacement place before files
        (.error (.file (.stage files.length fault))) before
  | unusable
      {front back : List (Path × Text)}
      {path : Path}
      {text : Text}
      {entries : List StagedFile}
      {after : Tree}
      (hFiles : files = front ++ (path, text) :: back)
      (hPath : isUsable path = false)
      (hStaging : IsStaging place before entries after)
      (hFront : entries.map purpose = contents front) :
      Replacement place before files
        (.error (.unexpected .pathWithNull)) after
  | moving
      {result : Except Failure Unit}
      {after : Tree}
      (hEnd :
        MovingEnd place before (contents files) result
          after) :
      Replacement place before files result after

/-
  Either every path leads to its new content and nothing else
  has changed, or nothing has changed at all.
-/
def IsAllOrNothing
    (place : Location)
    (before : Tree)
    (files : List (Path × Text))
    (result : Except Failure Unit)
    (after : Tree) : Prop :=
  match result with
  | .ok _ =>
    (∀ file ∈ files,
        ∃ location,
          before.resolve place file.1 = .ok location ∧
            after.find? location =
              some (.file (.text file.2))) ∧
      ∀ location,
        (∀ file ∈ files,
          before.resolve place file.1 ≠ .ok location) →
        after.find? location = before.find? location
  | .error _ => after = before

/-
  Files were put one after another. Where a path leads to
  there is what the last of the paths to this place brought,
  and at all other places there is what was there before: no
  temporary file is left.
-/
structure HasPut
    (place : Location)
    (before : Tree)
    (files : List (Path × Text))
    (after : Tree) : Prop where
  leads :
    ∀ file ∈ files,
      ∃ location, before.resolve place file.1 = .ok location
  found :
    ∀ {front back : List (Path × Text)} {path : Path}
        {text : Text} {location : Location},
      files = front ++ (path, text) :: back →
        before.resolve place path = .ok location →
          (∀ file ∈ back,
            before.resolve place file.1 ≠ .ok location) →
            after.find? location =
              some (.file (.text text))
  kept :
    ∀ location,
      (∀ file ∈ files,
        before.resolve place file.1 ≠ .ok location) →
      after.find? location = before.find? location
  unchanged : files = [] → after = before

/-
  How files are replaced one after another: all of them, or
  none, or just those in front of the first one whose path
  leads to no place for a file.
-/
inductive ReplacedInOrder
    (place : Location)
    (before : Tree)
    (files : List (Path × Text)) :
    Except Failure Unit → Tree → Prop
  | all
      {after : Tree}
      (hPut : HasPut place before files after) :
      ReplacedInOrder place before files (.ok ()) after
  | notStaged (fault : StorageFault) :
      ReplacedInOrder place before files
        (.error (.file (.stage files.length fault))) before
  | refused
      {path : Path}
      {text : Text}
      {rest : List (Path × Text)}
      (hFiles : files = (path, text) :: rest)
      (hPath : isUsable path = false) :
      ReplacedInOrder place before files
        (.error (.unexpected .pathWithNull)) before
  | stopped
      {front back : List (Path × Text)}
      {path : Path}
      {text : Text}
      {after : Tree}
      (fault : StorageFault)
      (hFiles : files = front ++ (path, text) :: back)
      (hNot : ∀ goal, ¬ Takes before place path goal)
      (hPut : HasPut place before front after) :
      ReplacedInOrder place before files
        (.error (.file (.write path fault))) after

/-
  The paths lead to different places, and all but the first
  one to where a file can be put.
-/
structure CanBeReplaced
    (place : Location)
    (tree : Tree)
    (files : List (Path × Text)) : Prop where
  taken :
    ∀ file ∈ files.tail,
      ∃ goal, Takes tree place file.1 goal
  apart :
    files.Pairwise fun file other =>
      ∀ location,
        tree.resolve place file.1 = .ok location →
          tree.resolve place other.1 ≠ .ok location

theorem mem_tail_of_append
    {α : Type}
    {front back : List α}
    {entry : α}
    (hFront : front ≠ []) :
    entry ∈ (front ++ entry :: back).tail := by
  rw [List.tail_append_of_ne_nil hFront]
  simp

/- What is put is found, and all else is kept. -/
theorem hasPut_putFiles
    {place : Location}
    {before : Tree}
    {files : List (Path × Text)}
    (hTaken :
      ∀ file ∈ contents files,
        ∃ goal, Takes before place file.1 goal) :
    HasPut place before files
      (putFiles place (contents files) before) := by
  have hLeads
      {file : Path × Text}
      (hMem : file ∈ files) :
      ∃ goal, Takes before place file.1 goal :=
    hTaken _ (List.mem_map_of_mem hMem)
  constructor
  case leads =>
    intro file hMem
    exact (hLeads hMem).imp fun _ hTakes => hTakes.resolved
  case found =>
    rintro front back path text location rfl hResolved hLast
    rcases hLeads (List.mem_append_right _ List.mem_cons_self)
      with ⟨goal, hTakes⟩
    cases hResolved.symm.trans hTakes.resolved
    rw [contents, List.map_append, List.map_cons] at hTaken ⊢
    refine find?_putFiles_of_last hTaken hTakes ?_
    intro file hMem hOther
    rcases List.mem_map.mp hMem with ⟨source, hIn, rfl⟩
    exact hLast source hIn hOther.resolved
  case kept =>
    intro location hOther
    refine find?_putFiles_of_ne fun file hMem => ?_
    rcases List.mem_map.mp hMem with ⟨source, hIn, rfl⟩
    rcases hLeads hIn with ⟨goal, hTakes⟩
    refine ⟨goal, hTakes, ?_⟩
    rintro rfl
    exact hOther source hIn hTakes.resolved
  case unchanged =>
    rintro rfl
    rfl

/- Every path has its content if no two lead to one place. -/
theorem HasPut.isAllOrNothing
    {place : Location}
    {before after : Tree}
    {files : List (Path × Text)}
    (hPut : HasPut place before files after)
    (hApart :
      files.Pairwise fun file other =>
        ∀ location,
          before.resolve place file.1 = .ok location →
            before.resolve place other.1 ≠ .ok location) :
    IsAllOrNothing place before files (.ok ()) after := by
  refine ⟨fun file hMem => ?_, hPut.kept⟩
  rcases hPut.leads file hMem with ⟨location, hResolved⟩
  rcases List.append_of_mem hMem with ⟨front, back, hFiles⟩
  refine
    ⟨location, hResolved,
      hPut.found hFiles hResolved fun other hOther => ?_⟩
  rw [hFiles, List.pairwise_append, List.pairwise_cons]
    at hApart
  exact hApart.2.1.1 other hOther location hResolved

/- In order, they are replaced together or not at all. -/
theorem ReplacedInOrder.isAllOrNothing
    {place : Location}
    {before after : Tree}
    {files : List (Path × Text)}
    {result : Except Failure Unit}
    (hOrder :
      ReplacedInOrder place before files result after)
    (hCan : CanBeReplaced place before files) :
    IsAllOrNothing place before files result after := by
  cases hOrder with
  | all hPut => exact hPut.isAllOrNothing hCan.apart
  | notStaged fault => rfl
  | refused hFiles hPath => rfl
  | @stopped front back path text after fault hFiles hNot
      hPut =>
      cases front with
      | nil => exact hPut.unchanged rfl
      | cons first front =>
          have hMem : (path, text) ∈ files.tail := by
            rw [hFiles]
            exact mem_tail_of_append (List.cons_ne_nil _ _)
          rcases hCan.taken _ hMem with ⟨goal, hTakes⟩
          exact absurd hTakes (hNot goal)

/- Files are staged, and moved if all of them are. -/
theorem writeAll_ends
    (outside : Outside ω)
    (session : Session ω)
    (files : List (Path × Text))
    (hPlace : Tree.parentName ∉ outside.directory.names)
    (hApart :
      ∀ entries tree,
        IsStaging outside.directory.names session.tree entries
            tree →
          entries.map purpose = contents files →
            AreApart outside.directory.names session.tree
              entries) :
    ∃ result after log,
      (writeAll files false).perform outside session =
          (result, { session with tree := after, log }) ∧
        Replacement outside.directory.names session.tree files
          result after := by
  have hStart :=
    IsStaging.nil outside.directory.names session.tree
  rcases stageAll_ends hPlace files.length [] files session
      hStart rfl with
    ⟨result, tree, hStage, hEnd⟩
  rw [List.map_nil] at hStage
  rw [writeAll, if_neg Bool.false_ne_true,
    Action.perform_bind, hStage]
  cases hEnd with
  | failed fault =>
      exact
        ⟨_, session.tree, session.log, rfl, .notStaged fault⟩
  | unusable hFiles hPath hStaging hFront =>
      exact
        ⟨_, tree, session.log, rfl,
          .unusable hFiles hPath hStaging hFront⟩
  | @staged entries tree hStaging hFiles =>
      rcases moveAll_ends { session with tree } hStaging
          (hApart entries tree hStaging hFiles) with
        ⟨result, after, log, hRun, hEnd⟩
      rw [List.nil_append] at hFiles
      rw [hFiles] at hEnd
      exact ⟨result, after, log, hRun, .moving hEnd⟩

/- The paths of staged files are those of the files. -/
theorem map_path_of_purpose
    {entries : List StagedFile}
    {files : List (Path × Text)}
    (hFiles : entries.map purpose = contents files) :
    entries.map (·.path) = files.map Prod.fst := by
  have hFirst := congrArg (List.map Prod.fst) hFiles
  simpa [contents, purpose, Function.comp_def] using hFirst

/- Files with other names than temporary ones are apart. -/
theorem areApart_of_names
    {place : Location}
    {base tree : Tree}
    {entries : List StagedFile}
    {files : List (Path × Text)}
    (hNames : AreNotTemporary (files.map Prod.fst))
    (hStaging : IsStaging place base entries tree)
    (hFiles : entries.map purpose = contents files) :
    AreApart place base entries := by
  rw [← map_path_of_purpose hFiles] at hNames
  exact areApart_of_areNotTemporary hStaging hNames

/- A working directory at the root. -/
def surroundings : Outside Unit :=
  { home := Path.ofText "/home"
    directory := Path.ofText "/"
    «variables» := []
    call := fun _ world tree => (.notFound, world, tree)
    send := fun _ world => (.failure "ConnectError", world) }

/- A file, and a directory beside it. -/
def start : Session Unit :=
  .start
    ⟨[(["one"], .file (.text "0")), (["d"], .directory)]⟩ ()

/- A file in place of each of two names. -/
def pair (second : Text) : List (Path × Text) :=
  [(Path.ofText "/one", "1"), (Path.ofText second, "2")]

end Files

end ScriptWorkspace
