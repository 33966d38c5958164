import ScriptWorkspace.Proofs.DryRun.Forecast
import ScriptWorkspace.Proofs.Gist.Pull
import ScriptWorkspace.Proofs.Workspace.Import
import ScriptWorkspace.Proofs.Workspace.Plan

/-
  What a dry run tells of the real one.

  The real run reads files after it has written others. What
  it reads for its result was there before, and what it only
  asks about could be told before, as the files have grown at
  most. So a dry run comes to the same outcome if the real one
  succeeds. An import is told as well if its workspace is in
  place; else the root may be found only behind a directory
  that the real run makes.

  Main declarations:
    * `Membership.exists_dry_modify`
    * `Workspace.forecasts_registerScript`
    * `Workspace.exists_dry_importScript`
    * `Sync.forecasts_push`
    * `Sync.forecasts_pull`
    * `Foreseeable.dry_run_predicts`
-/

namespace ScriptWorkspace

open Storage Storage.Calls

variable {ω : Type}
variable {outside : Outside ω}

/- The files of the one session have grown into the other's. -/
def Session.GrowsInto (early session : Session ω) : Prop :=
  early.tree.GrowsInto session.tree

theorem Session.GrowsInto.of_eq
    (early session : Session ω)
    (hSame : early = session) :
    early.GrowsInto session := by
  subst hSame
  exact .refl _

------------------------------------------------------------
-- Members
------------------------------------------------------------

namespace Membership

/-
  A change that succeeds would have been foretold from any
  session with the same text for the manifest.
-/
theorem exists_dry_modify
    {early session done : Session ω}
    {root : Path}
    {change : Change}
    {report : Report}
    (hText :
      ∀ text,
        Files.textAt outside.directory.names session.tree
              (root.join Manifest.fileName) =
            .ok text →
          Files.textAt outside.directory.names early.tree
              (root.join Manifest.fileName) =
            .ok text)
    (hRun :
      (modify root change false).perform outside session =
        (.ok report, done)) :
    ∃ left,
      (modify root change true).perform outside early =
          (.ok report, left) ∧
        left.tree = early.tree ∧
          session.tree.GrowsInto done.tree := by
  rcases modify_runs outside session root change false with
    ⟨result, after, hPerform, hReal⟩
  cases hRun.symm.trans hPerform
  have hPlan :
      ∃ original progress,
        plannedFrom outside.directory.names session.tree root
              change =
            .ok (original, progress) ∧
          report = progress.report root ∧
            session.tree.GrowsInto done.tree := by
    cases hReal with
    | current hPlan _ hBetween =>
        refine ⟨_, _, hPlan, rfl, ?_⟩
        rw [logged, hBetween.others]
        exact .refl _
    | dry _ _ hDryRun => cases hDryRun
    | @written original progress _ location hPlan _ _ _
        hLocation =>
        refine ⟨_, _, hPlan, rfl, ?_⟩
        have hOld := (textAt_of_plannedFrom hPlan).1
        rcases Files.textAt_eq_ok_iff.mp hOld with
          ⟨_, goal, hGoal, hFound⟩
        cases hLocation.symm.trans hGoal
        refine Tree.growsInto_set fun old hNode => ?_
        cases hNode.symm.trans hFound
        exact .rewritten original progress.text
  rcases hPlan with
    ⟨original, progress, hPlan, rfl, hGrows⟩
  have hEarly :
      plannedFrom outside.directory.names early.tree root
          change =
        .ok (original, progress) := by
    rcases textAt_of_plannedFrom hPlan with ⟨hOld, hProgress⟩
    simp only [plannedFrom, hText original hOld, bind,
      Except.bind, hProgress]
    rfl
  rcases modify_runs outside early root change true with
    ⟨result, left, hDry, hLeft⟩
  cases hLeft with
  | failed hOther => cases hOther.symm.trans hEarly
  | written _ _ hDryRun => cases hDryRun
  | current hOther _ hBetween =>
      cases hOther.symm.trans hEarly
      refine ⟨_, hDry, ?_, hGrows⟩
      rw [logged, hBetween.others]
  | dry hOther _ _ hBetween =>
      cases hOther.symm.trans hEarly
      refine ⟨_, hDry, ?_, hGrows⟩
      rw [logged, hBetween.others]

theorem forecasts_modify
    (outside : Outside ω)
    (root : Path)
    (change : Change) :
    Action.Forecasts outside Eq (modify root change true)
      (modify root change false) Eq Session.GrowsInto := by
  rintro early session report done rfl hRun
  rcases exists_dry_modify (fun _ hText => hText) hRun with
    ⟨left, hDry, hTree, hGrows⟩
  refine ⟨report, left, hDry, rfl, ?_⟩
  rw [Session.GrowsInto, hTree]
  exact hGrows

end Membership

namespace Workspace

------------------------------------------------------------
-- Registration
------------------------------------------------------------

theorem forecasts_makeDirectories (path : Path) :
    Action.Forecasts outside Session.GrowsInto
      (Files.makeDirectories path true)
      (Files.makeDirectories path false) Eq
      Session.GrowsInto := by
  intro early session result done hGrows hRun
  refine ⟨(), early, rfl, rfl, ?_⟩
  exact
    hGrows.trans
      (Files.gainsDirectories_of_makeDirectories
        hRun).growsInto

theorem forecasts_writeUnlessCurrent
    (path : Path)
    (content : Text) :
    Action.Forecasts outside Session.GrowsInto
      (writeUnlessCurrent path content true)
      (writeUnlessCurrent path content false)
      (fun _ _ => True) Session.GrowsInto := by
  intro early session written done hGrows hRun
  have hLater : early.tree.GrowsInto done.tree :=
    hGrows.trans (growsInto_of_writeUnlessCurrent hRun)
  rw [perform_writeUnlessCurrent] at hRun
  rw [perform_writeUnlessCurrent]
  cases hCurrent :
      currentAt outside.directory.names session.tree path
        content with
  | error failure =>
      rw [hCurrent] at hRun
      cases hRun
  | ok current =>
      rcases exists_currentAt hGrows hCurrent with
        ⟨before, hBefore⟩
      rw [hBefore]
      cases before with
      | true => exact ⟨_, _, rfl, trivial, hLater⟩
      | false => exact ⟨_, _, rfl, trivial, hLater⟩

theorem forecasts_addPackage (root : Path) (name : Text) :
    Action.Forecasts outside Eq (addPackage root name true)
      (addPackage root name false) Eq Session.GrowsInto := by
  refine .alike_bind _ fun found => ?_
  cases found with
  | true => exact .throw _ _
  | false =>
      refine
        (Membership.forecasts_modify outside root _).bind
          fun _ _ _ => ?_
      exact .pure rfl

theorem forecasts_registerScript
    (metadata : Cargo.Metadata)
    (manifest script : Text)
    (binary : Option OsText) :
    Action.Forecasts outside Eq
      (registerScript metadata manifest script binary true)
      (registerScript metadata manifest script binary false)
      Eq Session.GrowsInto := by
  refine .alike_bind _ fun name => ?_
  have hRest (path : Path) :
      Action.Forecasts outside Session.GrowsInto
        (do
          let source := sourceBeside path binary
          Files.makeDirectories source.parent true
          let _ ← writeUnlessCurrent path manifest true
          let _ ← writeUnlessCurrent source script true
          return name)
        (do
          let source := sourceBeside path binary
          Files.makeDirectories source.parent false
          let _ ← writeUnlessCurrent path manifest false
          let _ ← writeUnlessCurrent source script false
          return name)
        Eq Session.GrowsInto :=
    (forecasts_makeDirectories _).bind fun _ _ _ =>
      (forecasts_writeUnlessCurrent _ _).bind fun _ _ _ =>
        (forecasts_writeUnlessCurrent _ _).bind
          fun _ _ _ => .pure rfl
  cases hMember : metadata.findMember? name with
  | some member =>
      refine .alike_bind _ fun _ => ?_
      exact
        (hRest member.manifest).weaken Session.GrowsInto.of_eq
  | none =>
      refine
        (forecasts_addPackage metadata.root name).bind
          fun path found hSame => ?_
      subst hSame
      exact hRest path

------------------------------------------------------------
-- Import
------------------------------------------------------------

/- A dry replacement of files logs them and changes none. -/
theorem exists_dry_writeAll
    (outside : Outside ω)
    (session : Session ω)
    (files : List (Path × Text)) :
    ∃ left,
      (Files.writeAll files true).perform outside session =
          (.ok (), left) ∧
        left.tree = session.tree := by
  rcases Performs.forIn_quiet
      (fun file : Path × Text =>
        (Action.logInfo
          [Action.dryMark true, "Wrote ", file.1.text] :
          Action ω Unit))
      (fun file session =>
        Performs.logInfo outside session
          [Action.dryMark true, "Wrote ", file.1.text])
      files session with
    ⟨left, hLog⟩
  refine ⟨left, ?_, ?_⟩
  · rw [Files.writeAll, if_pos rfl]
    exact (hLog.bind_quiet (.pure ())).run
  · rw [hLog.isAfter.others]

theorem exists_dry_putPackage
    {session done : Session ω}
    {root directory : Path}
    {files : Script.PackageFiles}
    {name result : Text}
    (hPlace : Tree.parentName ∉ outside.directory.names)
    (hRoot :
      isDirectory session.tree outside.directory.names root =
        true)
    (hOther :
      spelledLocation outside.directory.names directory ≠
        spelledLocation outside.directory.names root)
    (hRun :
      (putPackage root directory files name false).perform
          outside session =
        (.ok result, done)) :
    ∃ left,
      (putPackage root directory files name true).perform
          outside session =
        (.ok result, left) := by
  rcases Action.exists_of_perform_bind hRun with
    ⟨_, made, hMade, hRest⟩
  rcases Action.exists_of_perform_bind hRest with
    ⟨_, written, hWrite, hRest⟩
  rcases Action.exists_of_perform_bind hRest with
    ⟨report, changed, hModify, hResult⟩
  cases hResult
  rcases exists_dry_writeAll outside session
      [(manifestIn directory, files.manifest),
        ((directory.join "src").join "main.rs",
          files.source)] with
    ⟨logged, hDryWrite, hTree⟩
  have hText :
      ∀ text,
        Files.textAt outside.directory.names written.tree
              (root.join Manifest.fileName) =
            .ok text →
          Files.textAt outside.directory.names logged.tree
              (root.join Manifest.fileName) =
            .ok text := by
    intro text hText
    rw [hTree]
    exact
      textAt_of_writeAll hPlace hRoot hOther
        (Files.gainsDirectories_of_makeDirectories hMade)
        hWrite hText
  rcases Membership.exists_dry_modify hText hModify with
    ⟨left, hDryModify, _⟩
  refine ⟨left, ?_⟩
  unfold putPackage
  rw [Action.perform_bind]
  change
    (Files.writeAll _ true >>= _).perform outside session = _
  rw [Action.perform_bind, hDryWrite]
  dsimp only
  rw [Action.perform_bind, hDryModify]
  rfl

theorem name_of_putPackage
    {session done : Session ω}
    {root directory : Path}
    {files : Script.PackageFiles}
    {name result : Text}
    {dryRun : Bool}
    (hRun :
      (putPackage root directory files name dryRun).perform
          outside session =
        (.ok result, done)) :
    name = result := by
  rcases Action.exists_of_perform_bind hRun with
    ⟨_, _, _, hRest⟩
  rcases Action.exists_of_perform_bind hRest with
    ⟨_, _, _, hRest⟩
  rcases Action.exists_of_perform_bind hRest with
    ⟨_, _, _, hResult⟩
  cases hResult
  rfl

theorem exists_dry_importScript
    {session done : Session ω}
    {root : Path}
    {script name : Text}
    {directoryFor : Text → Path}
    (hPlace : Tree.parentName ∉ outside.directory.names)
    (hRoot :
      isDirectory session.tree outside.directory.names root =
        true)
    (hOther :
      spelledLocation outside.directory.names
          (directoryFor name) ≠
        spelledLocation outside.directory.names root)
    (hRun :
      (importScript root script directoryFor false).perform
          outside session =
        (.ok name, done)) :
    ∃ left,
      (importScript root script directoryFor true).perform
          outside session =
        (.ok name, left) := by
  rw [perform_importScript] at hRun ⊢
  cases hPackage : packageIn script with
  | error failure =>
      rw [hPackage] at hRun
      cases hRun
  | ok found =>
      rcases found with ⟨files, known⟩
      rw [hPackage] at hRun
      cases name_of_putPackage hRun
      exact exists_dry_putPackage hPlace hRoot hOther hRun

end Workspace

------------------------------------------------------------
-- Gists
------------------------------------------------------------

namespace Sync

/- Whether a gist would be made does not need the store. -/
theorem forecasts_createGist
    (client : GistClient)
    (gistIds : GistIds)
    (package script : Text)
    (options : PushOptions) :
    Action.Forecasts outside Eq
      (createGist client gistIds package script options true)
      (createGist client gistIds package script options false)
      (fun _ _ => True) fun _ _ => True := by
  cases hUpstream : options.setUpstream with
  | false =>
      unfold createGist
      rw [hUpstream]
      exact .throw _ _
  | true =>
      refine .of_succeeds _ fun early => ?_
      unfold createGist
      rw [hUpstream]
      exact ⟨_, _, rfl⟩

theorem forecasts_push
    (client : GistClient)
    (gistIds : GistIds)
    (package script : Text)
    (options : PushOptions) :
    Action.Forecasts outside Eq
      (push client gistIds package script options true)
      (push client gistIds package script options false)
      (fun foretold result => foretold.1 = result.1)
      fun _ _ => True := by
  refine .alike_bind _ fun state => ?_
  cases state with
  | upToDate =>
      refine .alike_bind _ fun _ => ?_
      exact .weaken (.pure rfl) fun _ _ _ => trivial
  | forward gistId remote =>
      refine
        .bind (.of_succeeds _ fun early => ⟨_, _, rfl⟩)
          fun _ _ _ =>
            .bind (.of_succeeds _ fun early => ?_)
              fun _ _ _ => .pure rfl
      rcases performs_logChanges outside early remote script
        with ⟨left, hLog⟩
      exact ⟨_, left, hLog.run⟩
  | absent =>
      exact
        (forecasts_createGist client gistIds package script
          options).bind fun _ _ _ => .pure rfl

theorem forecasts_replaceChanged
    (files : List (Path × Text × Text)) :
    Action.Forecasts outside Eq (replaceChanged true files)
      (replaceChanged false files) Eq fun _ _ => True := by
  refine .alike_bind _ fun changed => ?_
  dsimp only
  cases (Workspace.distinctFiles changed).isEmpty with
  | true => exact .weaken (.pure rfl) fun _ _ _ => trivial
  | false =>
      refine
        .bind (.of_succeeds _ fun early => ?_) fun _ _ _ =>
          .pure rfl
      rcases Workspace.exists_dry_writeAll outside early
          (Workspace.distinctFiles changed) with
        ⟨left, hDry, _⟩
      exact ⟨_, left, hDry⟩

theorem forecasts_pull
    (client : GistClient)
    (gistId : Text)
    (package : Cargo.Package) :
    Action.Forecasts outside Eq
      (pull client gistId package true)
      (pull client gistId package false) Eq
      fun _ _ => True := by
  rintro early session result done rfl hRun
  rw [perform_pull] at hRun ⊢
  rcases hFetch :
      (client.retrieve gistId).perform outside early with
    ⟨found, fetched⟩
  rw [hFetch] at hRun
  cases found with
  | error failure => cases hRun
  | ok remote =>
      dsimp only at hRun ⊢
      cases hFiles :
          pulledFiles outside.directory.names fetched.tree
            package remote.content with
      | error failure =>
          rw [hFiles] at hRun
          cases hRun
      | ok files =>
          rw [hFiles] at hRun
          exact
            forecasts_replaceChanged files fetched fetched
              result done rfl hRun

end Sync

------------------------------------------------------------
-- Operations
------------------------------------------------------------

/- What an operation says that it did. -/
inductive Outcome
  | report (report : Membership.Report)
  | name (name : Text)
  | state (state : RemoteState)
  | changed (paths : List Path)
deriving DecidableEq, Repr

/- An operation whose outcome a dry run tells. -/
inductive Foreseeable
  | modifyMembers (root : Path) (change : Membership.Change)
  | registerScript
      (metadata : Cargo.Metadata)
      (manifest script : Text)
      (binary : Option OsText)
  | importScript
      (root : Path)
      (script : Text)
      (directoryFor : Text → Path)
  | push
      (client : GistClient)
      (gistIds : GistIds)
      (package script : Text)
      (options : Sync.PushOptions)
  | pull
      (client : GistClient)
      (gistId : Text)
      (package : Cargo.Package)

namespace Foreseeable

/- Run an operation and tell its outcome. -/
def run (dryRun : Bool) : Foreseeable → Action ω Outcome
  | modifyMembers root change => do
    let report ← Membership.modify root change dryRun
    return .report report
  | registerScript metadata manifest script binary => do
    let name ←
      Workspace.registerScript metadata manifest script binary
        dryRun
    return .name name
  | importScript root script directoryFor => do
    let name ←
      Workspace.importScript root script directoryFor dryRun
    return .name name
  | push client gistIds package script options => do
    let (state, _) ←
      Sync.push client gistIds package script options dryRun
    return .state state
  | pull client gistId package => do
    let paths ← Sync.pull client gistId package dryRun
    return .changed paths

/-
  A script that is imported finds its workspace in place: the
  root leads to a directory, and the directory of the package
  to another one.
-/
def HasRoot
    (place : Location)
    (tree : Tree)
    (outcome : Outcome) : Foreseeable → Prop
  | importScript root _ directoryFor =>
    ∀ name,
      outcome = .name name →
        isDirectory tree place root = true ∧
          spelledLocation place (directoryFor name) ≠
            spelledLocation place root
  | _ => True

/-
  If an operation succeeds then a dry run of it would have
  succeeded, and told its outcome. This is about trees without
  links, and about writing that no device makes fail.
-/
theorem dry_run_predicts
    (outside : Outside ω)
    (session : Session ω)
    (operation : Foreseeable)
    {outcome : Outcome}
    {done : Session ω}
    (hPlace : Tree.parentName ∉ outside.directory.names)
    (hRoot :
      operation.HasRoot outside.directory.names session.tree
        outcome)
    (hRun :
      (operation.run false).perform outside session =
        (.ok outcome, done)) :
    ∃ left,
      (operation.run true).perform outside session =
        (.ok outcome, left) := by
  cases operation with
  | importScript root script directoryFor =>
      rcases Action.exists_of_perform_bind hRun with
        ⟨name, between, hImport, hResult⟩
      cases hResult
      rcases hRoot name rfl with ⟨hDirectory, hOther⟩
      rcases Workspace.exists_dry_importScript hPlace
          hDirectory hOther hImport with
        ⟨left, hDry⟩
      refine ⟨left, ?_⟩
      unfold run
      rw [Action.perform_bind, hDry]
      rfl
  | modifyMembers root change =>
      exact
        (Membership.forecasts_modify outside root
          change).exists_shown
          (fun _ _ hSame => congrArg _ hSame) hRun
  | registerScript metadata manifest script binary =>
      exact
        (Workspace.forecasts_registerScript metadata manifest
          script binary).exists_shown
          (fun _ _ hSame => congrArg _ hSame) hRun
  | push client gistIds package script options =>
      exact
        (Sync.forecasts_push client gistIds package script
          options).exists_shown
          (fun _ _ hSame => congrArg _ hSame) hRun
  | pull client gistId package =>
      exact
        (Sync.forecasts_pull client gistId
          package).exists_shown
          (fun _ _ hSame => congrArg _ hSame) hRun

/- A workspace without members. -/
def start : Session Unit :=
  .start
    ⟨[(["ws"], .directory),
      (["ws", "Cargo.toml"],
        .file (.text "[workspace]\nmembers = []\n"))]⟩
    ()

/- A script that is a package. -/
def hello : Text :=
  "//! ```cargo\n//! [package]\n".toList ++
    "//! name = \"hello\"\n//! ```\n".toList

/- A script is imported beneath a root that is spelled so. -/
def importHello (root : String) : Foreseeable :=
  .importScript (Path.ofText root) hello fun name =>
    (Path.ofText ("/ws" : String)).join name

theorem dry_import_predicts_hello :
    Tree.parentName ∉ Files.surroundings.directory.names ∧
      (importHello "/ws").HasRoot
        Files.surroundings.directory.names start.tree
        (.name "hello") ∧
      ∃ done left,
        ((importHello "/ws").run false).perform
              Files.surroundings start =
            (.ok (.name "hello"), done) ∧
          ((importHello "/ws").run true).perform
              Files.surroundings start =
            (.ok (.name "hello"), left) := by
  have hPlace :
      Tree.parentName ∉ Files.surroundings.directory.names := by
    decide
  have hRoot :
      (importHello "/ws").HasRoot
        Files.surroundings.directory.names start.tree
        (.name "hello") := by
    intro name hName
    cases hName
    exact ⟨by decide, by decide⟩
  have hResult :
      (((importHello "/ws").run false).perform
            Files.surroundings start).1.toOption =
        some (.name "hello") := by
    decide +kernel
  rcases hRun :
      ((importHello "/ws").run false).perform
        Files.surroundings start with
    ⟨result, done⟩
  rw [hRun] at hResult
  cases result with
  | error failure => cases hResult
  | ok outcome =>
      cases hResult
      rcases dry_run_predicts Files.surroundings start
          (importHello "/ws") hPlace hRoot hRun with
        ⟨left, hDry⟩
      exact ⟨hPlace, hRoot, done, left, rfl, hDry⟩

/-
  A root that leads through the directory of the package is
  found only once that directory is made.
-/
theorem dry_import_misses_root :
    (((importHello "/ws/hello/..").run false).perform
          Files.surroundings start).1.toOption =
        some (.name "hello") ∧
      (((importHello "/ws/hello/..").run true).perform
          Files.surroundings start).1.toOption =
        none ∧
      (Path.ofText ("/ws" : String)).join ("hello" : Text) ≠
        Path.ofText ("/ws/hello/.." : String) := by
  decide +kernel

end Foreseeable

end ScriptWorkspace
