import ScriptWorkspace.Proofs.Gist.Changed
import ScriptWorkspace.Proofs.Toml.Rules

/-
  Packages that were pulled.

  A pull that succeeds leaves the two files of the script in
  the package, tells which of them had another text before,
  and changes nothing else. A second pull of the same script
  finds nothing to do. A pull that fails before it moves the
  files leaves them all alone.

  Main declarations:
    * `Sync.PullPlan`
    * `Sync.pull_ends`
    * `Sync.PullPlan.Replaces`
    * `Sync.pull_again`
    * `Sync.pull_replaces_package`
-/

namespace ScriptWorkspace

open Storage Storage.Calls

variable {ω : Type}
variable {outside : Outside ω}

namespace Workspace

/- A binary is chosen by the manifest that is there. -/
theorem binaryIn_eq_ok_iff
    {place : Location}
    {tree : Tree}
    {package : Cargo.Package}
    {source : Path}
    {manifest : Text} :
    binaryIn place tree package = .ok (source, manifest) ↔
      Files.textAt place tree package.manifest =
          .ok manifest ∧
        ∃ members target,
          Manifest.read (.notTomlAt package.manifest)
                manifest =
              .ok members ∧
            chooseBinary package members = .ok target ∧
              target.source = source := by
  unfold binaryIn
  constructor
  · intro hFound
    rcases Toml.bind_eq_ok_iff.mp hFound with
      ⟨text, hText, hRest⟩
    rcases Toml.bind_eq_ok_iff.mp hRest with
      ⟨members, hMembers, hRest⟩
    rcases Toml.bind_eq_ok_iff.mp hRest with
      ⟨target, hTarget, hResult⟩
    cases hResult
    exact ⟨hText, members, target, hMembers, hTarget, rfl⟩
  · rintro ⟨hText, members, target, hMembers, hTarget, rfl⟩
    simp only [bind, Except.bind, hText, hMembers, hTarget]
    rfl

end Workspace

namespace Sync

------------------------------------------------------------
-- Plans
------------------------------------------------------------

/-
  What a pull has to do with: the source of the package and
  its text, the text of the manifest, and the new files.
-/
structure PullPlan where
  source : Path
  old : Text
  manifest : Text
  files : Script.PackageFiles

namespace PullPlan

/- The two files with their old and their new texts. -/
def entries
    (plan : PullPlan)
    (package : Cargo.Package) : List (Path × Text × Text) :=
  [(plan.source, plan.old, plan.files.source),
    (package.manifest, plan.manifest, plan.files.manifest)]

/- The plan is what is read of a package for a script. -/
structure IsFor
    (place : Location)
    (tree : Tree)
    (package : Cargo.Package)
    (script : Text)
    (plan : PullPlan) : Prop where
  split : filesIn script = .ok plan.files
  chosen :
    Workspace.binaryIn place tree package =
      .ok (plan.source, plan.manifest)
  read : Files.textAt place tree plan.source = .ok plan.old

variable {place : Location}
variable {tree : Tree}
variable {package : Cargo.Package}
variable {script : Text}

theorem IsFor.pulledFiles_eq
    {plan : PullPlan}
    (hPlan : plan.IsFor place tree package script) :
    pulledFiles place tree package script =
      .ok (plan.entries package) := by
  simp only [pulledFiles, hPlan.split, hPlan.chosen,
    hPlan.read, bind, Except.bind, pure, Except.pure,
    entries]

theorem exists_isFor
    {entries : List (Path × Text × Text)}
    (hFiles :
      pulledFiles place tree package script = .ok entries) :
    ∃ plan : PullPlan,
      plan.IsFor place tree package script ∧
        entries = plan.entries package := by
  rcases Toml.bind_eq_ok_iff.mp hFiles with
    ⟨files, hSplit, hRest⟩
  rcases Toml.bind_eq_ok_iff.mp hRest with
    ⟨⟨source, manifest⟩, hChosen, hRest⟩
  rcases Toml.bind_eq_ok_iff.mp hRest with
    ⟨old, hRead, hResult⟩
  cases hResult
  exact
    ⟨{ source, old, manifest, files },
      ⟨hSplit, hChosen, hRead⟩, rfl⟩

/- All that a plan tells was read. -/
theorem IsFor.forall_read
    {plan : PullPlan}
    (hPlan : plan.IsFor place tree package script) :
    ∀ file ∈ plan.entries package,
      Files.textAt place tree file.1 = .ok file.2.1 := by
  intro file hMem
  rcases List.mem_pair.mp hMem with rfl | rfl
  · exact hPlan.read
  · exact (Workspace.binaryIn_eq_ok_iff.mp hPlan.chosen).1

end PullPlan

------------------------------------------------------------
-- Runs
------------------------------------------------------------

/- Fetching a gist leaves the files alone. -/
theorem tree_of_retrieve
    {session fetched : Session ω}
    {client : GistClient}
    {gistId : Text}
    {result : Except Failure RemoteScript}
    (hRun :
      (client.retrieve gistId).perform outside session =
        (result, fetched)) :
    fetched.tree = session.tree := by
  rcases client.performs_retrieve outside session gistId with
    ⟨_, _, after, _, hPerforms⟩
  cases hRun.symm.trans hPerforms.run
  rw [hPerforms.isAfter.others]

/- A pull fails, or it has replaced what its plan says. -/
theorem pull_ends
    (outside : Outside ω)
    (session : Session ω)
    (client : GistClient)
    (gistId : Text)
    (package : Cargo.Package)
    (hPlace : Tree.parentName ∉ outside.directory.names) :
    ∃ result after,
      (pull client gistId package false).perform outside
            session =
          (result, after) ∧
        match result with
        | .error failure =>
          IsMove failure ∨ after.tree = session.tree
        | .ok changed =>
          ∃ remote fetched,
            (client.retrieve gistId).perform outside
                  session =
                (.ok remote, fetched) ∧
              ∃ plan : PullPlan,
                plan.IsFor outside.directory.names
                    session.tree package remote.content ∧
                  IsReplaced outside.directory.names
                    session.tree (plan.entries package)
                    changed after.tree := by
  rw [perform_pull]
  rcases hFetch :
      (client.retrieve gistId).perform outside session with
    ⟨found, fetched⟩
  have hTree := tree_of_retrieve hFetch
  cases found with
  | error failure => exact ⟨_, fetched, rfl, .inr hTree⟩
  | ok remote =>
      dsimp only
      rw [hTree]
      cases hFiles :
          pulledFiles outside.directory.names session.tree
            package remote.content with
      | error failure => exact ⟨_, fetched, rfl, .inr hTree⟩
      | ok entries =>
          rcases PullPlan.exists_isFor hFiles with
            ⟨plan, hPlan, rfl⟩
          have hRead := hPlan.forall_read
          rw [← hTree] at hRead
          rcases replaceChanged_ends outside fetched
              (plan.entries package) hPlace hRead with
            ⟨result, after, hRun, hEnd⟩
          refine ⟨result, after, hRun, ?_⟩
          rw [hTree] at hEnd
          cases result with
          | error failure => exact hEnd
          | ok changed =>
              exact
                ⟨remote, fetched, rfl, plan, hPlan, hEnd⟩

------------------------------------------------------------
-- Pulling Again
------------------------------------------------------------

/- The record of a file that is the same. -/
def sameRecord (path : Path) : LogRecord :=
  { level := .info
    message :=
      (["No changes: ", path.text] : List OsText).flatten }

/- Files that are the same are only logged. -/
theorem perform_changedFiles_of_same
    (outside : Outside ω)
    (session : Session ω)
    (files : List (Path × Text)) :
    (changedFiles
          (files.map fun (path, text) =>
            (path, text, text))).perform
        outside session =
      (.ok [],
        { session with
          log :=
            session.log ++
              files.map fun file => sameRecord file.1 }) := by
  induction files generalizing session with
  | nil => simp [changedFiles]
  | cons file files ih =>
      rcases file with ⟨path, text⟩
      have hLog :
          (logDiff path.text text text).perform outside
              session =
            (.ok false,
              { session with
                log := session.log ++ [sameRecord path] }) := by
        rw [logDiff, if_pos rfl]
        rfl
      rw [List.map_cons, changedFiles, Action.perform_bind,
        hLog]
      dsimp only
      rw [Action.perform_bind, ih]
      simp

/- The session after a pull that had nothing to do. -/
def unchanged
    (plan : PullPlan)
    (package : Cargo.Package)
    (session : Session ω) : Session ω :=
  { session with
    log :=
      session.log ++
        [sameRecord plan.source,
          sameRecord package.manifest] }

/-
  A script that the package has already is pulled without
  writing anything.
-/
theorem pull_again
    {session fetched : Session ω}
    {client : GistClient}
    {gistId : Text}
    {package : Cargo.Package}
    {remote : RemoteScript}
    {plan : PullPlan}
    (hFetch :
      (client.retrieve gistId).perform outside session =
        (.ok remote, fetched))
    (hPlan :
      plan.IsFor outside.directory.names session.tree package
        remote.content)
    (hSource : plan.old = plan.files.source)
    (hManifest : plan.manifest = plan.files.manifest) :
    (pull client gistId package false).perform outside
        session =
      (.ok [], unchanged plan package fetched) := by
  have hEntries :
      plan.entries package =
        [(plan.source, plan.old),
            (package.manifest, plan.manifest)].map
          fun (path, text) => (path, text, text) := by
    unfold PullPlan.entries
    rw [← hSource, ← hManifest]
    rfl
  rw [perform_pull, hFetch]
  dsimp only
  rw [tree_of_retrieve hFetch, hPlan.pulledFiles_eq]
  dsimp only
  rw [replaceChanged, Action.perform_bind, hEntries,
    perform_changedFiles_of_same]
  rfl

------------------------------------------------------------
-- What A Pull Leaves
------------------------------------------------------------

/-
  What a pull of a script leaves of a package, as its plan
  says, and what it tells.
-/
structure PullPlan.Replaces
    (outside : Outside ω)
    (client : GistClient)
    (gistId : Text)
    (package : Cargo.Package)
    (script : Text)
    (session after : Session ω)
    (changed : List Path)
    (plan : PullPlan) : Prop where
  source :
    Files.textAt outside.directory.names after.tree
        plan.source =
      .ok plan.files.source
  manifest :
    Files.textAt outside.directory.names after.tree
        package.manifest =
      .ok plan.files.manifest
  told :
    changed =
      (if plan.old = plan.files.source then []
        else [plan.source]) ++
        (if plan.manifest = plan.files.manifest then []
        else [package.manifest])
  others :
    ∀ location,
      (∀ path ∈ changed,
        session.tree.resolve outside.directory.names path ≠
          .ok location) →
        after.tree.find? location =
          session.tree.find? location
  again :
    ∀ members target,
      Manifest.read (.notTomlAt package.manifest)
            plan.files.manifest =
          .ok members →
        Workspace.chooseBinary package members = .ok target →
          target.source = plan.source →
            ∀ (later fetched : Session ω) remote,
              later.tree = after.tree →
                (client.retrieve gistId).perform outside
                      later =
                    (.ok remote, fetched) →
                  remote.content = script →
                    fetched.tree = after.tree ∧
                      (pull client gistId package
                            false).perform outside later =
                        (.ok [],
                          unchanged plan package fetched)

theorem changesOf_entries
    (plan : PullPlan)
    (package : Cargo.Package) :
    (changesOf (plan.entries package)).map Prod.fst =
      (if plan.old = plan.files.source then []
        else [plan.source]) ++
        (if plan.manifest = plan.files.manifest then []
        else [package.manifest]) := by
  unfold changesOf PullPlan.entries
  by_cases hSource : plan.old = plan.files.source
  · by_cases hManifest : plan.manifest = plan.files.manifest
    · simp [hSource, hManifest]
    · simp [hSource, hManifest]
  · by_cases hManifest : plan.manifest = plan.files.manifest
    · simp [hSource, hManifest]
    · simp [hSource, hManifest]

/- Two files that are not the same hold their new texts. -/
theorem PullPlan.IsFor.replaces
    {client : GistClient}
    {gistId : Text}
    {package : Cargo.Package}
    {script : Text}
    {session after : Session ω}
    {changed : List Path}
    {plan : PullPlan}
    (hPlan :
      plan.IsFor outside.directory.names session.tree package
        script)
    (hReplaced :
      IsReplaced outside.directory.names session.tree
        (plan.entries package) changed after.tree)
    (hApart :
      LeadApart outside.directory.names session.tree
        plan.source package.manifest) :
    plan.Replaces outside client gistId package script session
      after changed := by
  have hFiles :
      AreDistinct outside.directory.names session.tree
        (plan.entries package) :=
    ⟨hPlan.forall_read, List.pairwise_pair.mpr hApart⟩
  have hSource :=
    hReplaced.textAt hFiles (List.mem_cons_self)
  have hManifest :=
    hReplaced.textAt hFiles
      (List.mem_cons_of_mem _ List.mem_cons_self)
  constructor
  case source => exact hSource
  case manifest => exact hManifest
  case told =>
    rw [hReplaced.paths, hFiles.distinctChanges_eq,
      changesOf_entries]
  case others => exact fun _ hOther => hReplaced.find?_eq hOther
  case again =>
    intro members target hMembers hTarget hSame later fetched
      remote hTree hFetch hScript
    let done : PullPlan :=
      { plan with
        old := plan.files.source
        manifest := plan.files.manifest }
    have hDone :
        done.IsFor outside.directory.names later.tree package
          remote.content := by
      rw [hTree, hScript]
      exact
        { split := hPlan.split
          chosen :=
            Workspace.binaryIn_eq_ok_iff.mpr
              ⟨hManifest, members, target, hMembers, hTarget,
                hSame⟩
          read := hSource }
    have hAgain := pull_again hFetch hDone rfl rfl
    exact ⟨(tree_of_retrieve hFetch).trans hTree, hAgain⟩

/- A text inside of the quotes of a JSON string. -/
def escaped (text : Text) : Text :=
  text.flatMap fun c =>
    if c = '\n' then ['\\', 'n']
    else if c = '"' then ['\\', '"']
    else [c]

/- A store where each gist has one file, with the script. -/
def storeOf (script : Text) : Outside Unit :=
  { home := Path.ofText "/home"
    directory := Path.ofText "/"
    «variables» := []
    call := fun _ world tree => (.notFound, world, tree)
    send := fun _ world =>
      (.answer 200
        ("\x7b\"id\": \"1\", \"files\": \x7b".toList ++
          "\"a.rs\": \x7b\"filename\": \"a.rs\", ".toList ++
          "\"content\": \"".toList ++ escaped script ++
          "\"\x7d\x7d\x7d".toList),
        world) }

/- A script with the manifest of a package. -/
def renamed : Text :=
  "//! ```cargo\n//! [package]\n".toList ++
    "//! name = \"b\"\n//! ```\n".toList

end Sync

end ScriptWorkspace
