import ScriptWorkspace.Proofs.DryRun.Steps
import ScriptWorkspace.Proofs.Gist.Pulled
import ScriptWorkspace.Proofs.Script.RoundTrip
import ScriptWorkspace.Proofs.Storage.Growth

/-
  Pulls that pushes agree with.

  A pull writes the source of the binary that the old manifest
  chooses, and an export reads the one that the new manifest
  chooses. Whether the package makes the script that was
  pulled depends on that: it does if both are the same file,
  and else only if the other one happened to be a source of
  the script before.

  Main declarations:
    * `Workspace.exportedIn_eq_ok_iff`
    * `Sync.PullPlan.Keeps`
    * `Sync.PullPlan.Replaces.exportedIn_iff`
    * `Sync.push_of_same`
    * `Sync.AgreesOnPush`
    * `Sync.pull_converges_iff`
-/

namespace ScriptWorkspace

open Storage Storage.Calls

variable {ω : Type}
variable {outside : Outside ω}

namespace Workspace

------------------------------------------------------------
-- Exports
------------------------------------------------------------

/- The script that a package in a tree makes. -/
def exportedIn
    (place : Location)
    (tree : Tree)
    (package : Cargo.Package) : Except Failure Text := do
  let (source, manifest) ← binaryIn place tree package
  let text ← Files.textAt place tree source
  match Script.embed text manifest with
  | .ok script => .ok script
  | .error fault =>
    .error (.ofScript (manifestMissingIn source) fault)

/- An export only reads. -/
theorem perform_exported
    (outside : Outside ω)
    (session : Session ω)
    (package : Cargo.Package) :
    (exported package).perform outside session =
      (exportedIn outside.directory.names session.tree
          package,
        session) := by
  unfold exported exportedIn
  rw [Action.perform_bind, perform_defaultBinary]
  cases
    binaryIn outside.directory.names session.tree package
    with
  | error failure => rfl
  | ok found =>
      rcases found with ⟨source, manifest⟩
      dsimp only
      rw [Action.perform_bind, Files.perform_read]
      simp only [bind, Except.bind]
      cases
        Files.textAt outside.directory.names session.tree
          source with
      | error failure => rfl
      | ok text =>
          dsimp only
          cases Script.embed text manifest with
          | error fault => rfl
          | ok script => rfl

theorem exportedIn_eq_ok_iff
    {place : Location}
    {tree : Tree}
    {package : Cargo.Package}
    {script : Text} :
    exportedIn place tree package = .ok script ↔
      ∃ source manifest text,
        binaryIn place tree package =
            .ok (source, manifest) ∧
          Files.textAt place tree source = .ok text ∧
            Script.embed text manifest = .ok script := by
  unfold exportedIn
  constructor
  · intro hFound
    rcases Toml.bind_eq_ok_iff.mp hFound with
      ⟨⟨source, manifest⟩, hBinary, hRest⟩
    rcases Toml.bind_eq_ok_iff.mp hRest with
      ⟨text, hText, hEmbed⟩
    refine ⟨source, manifest, text, hBinary, hText, ?_⟩
    cases hScript : Script.embed text manifest with
    | error fault =>
        simp only [hScript] at hEmbed
        cases hEmbed
    | ok script =>
        simp only [hScript] at hEmbed
        cases hEmbed
        rfl
  · rintro ⟨source, manifest, text, hBinary, hText, hEmbed⟩
    simp only [bind, Except.bind, hBinary, hText, hEmbed]

/- A binary that is chosen is one of the package. -/
theorem mem_binaries_of_chooseBinary
    {package : Cargo.Package}
    {members : Toml.Table}
    {target : Cargo.BuildTarget}
    (hChosen : chooseBinary package members = .ok target) :
    target ∈ package.binaries none := by
  have hDefault
      {name : Option Text}
      (hFound : package.defaultBinary name = .ok target) :
      target ∈ package.binaries none := by
    unfold Cargo.Package.defaultBinary at hFound
    split at hFound
    case h_1 => cases hFound
    case h_2 only hOnly =>
      cases hFound
      have hMem : target ∈ package.binaries name := by
        rw [hOnly]
        exact List.mem_singleton_self target
      rcases List.mem_filter.mp hMem with ⟨hIn, hBoth⟩
      rw [Bool.and_eq_true] at hBoth
      refine List.mem_filter.mpr ⟨hIn, ?_⟩
      rw [Bool.and_eq_true]
      exact ⟨hBoth.1, rfl⟩
    case h_3 => cases hFound
  unfold chooseBinary at hChosen
  split at hChosen
  case h_1 => exact hDefault hChosen
  case h_2 => exact hDefault hChosen
  case h_3 => cases hChosen

end Workspace

namespace Sync

namespace PullPlan

------------------------------------------------------------
-- The Binary After A Pull
------------------------------------------------------------

/- The paths can be used for the same file. -/
def IsSameFile
    (place : Location)
    (tree : Tree)
    (path other : Path) : Prop :=
  Files.isUsable path = true ∧
    tree.resolve place path = tree.resolve place other

/-
  The binary that the new manifest chooses has the source that
  was pulled, or made the script with the new manifest before.
-/
def Keeps
    (place : Location)
    (tree : Tree)
    (package : Cargo.Package)
    (members : Toml.Table)
    (script : Text)
    (plan : PullPlan) : Prop :=
  ∃ target,
    Workspace.chooseBinary package members = .ok target ∧
      (IsSameFile place tree target.source plan.source ∨
        ∃ text,
          Files.textAt place tree target.source = .ok text ∧
            Script.embed text plan.files.manifest =
              .ok script)

section After

variable {client : GistClient}
variable {gistId : Text}
variable {package : Cargo.Package}
variable {script : Text}
variable {session after : Session ω}
variable {changed : List Path}
variable {plan : PullPlan}

theorem Replaces.mem_changed
    (hReplaces :
      plan.Replaces outside client gistId package script
        session after changed)
    {path : Path}
    (hMem : path ∈ changed) :
    path = plan.source ∨ path = package.manifest := by
  rw [hReplaces.told] at hMem
  rcases List.mem_append.mp hMem with hMem | hMem
  · split at hMem
    · cases hMem
    · exact .inl (List.mem_singleton.mp hMem)
  · split at hMem
    · cases hMem
    · exact .inr (List.mem_singleton.mp hMem)

/- The source that was pulled is found by all its paths. -/
theorem Replaces.textAt_of_same
    (hReplaces :
      plan.Replaces outside client gistId package script
        session after changed)
    (hTrees : session.tree.SameDirectories after.tree)
    {path : Path}
    (hSame :
      IsSameFile outside.directory.names session.tree path
        plan.source) :
    Files.textAt outside.directory.names after.tree path =
      .ok plan.files.source := by
  rcases hSame with ⟨hUsable, hResolve⟩
  rcases Files.textAt_eq_ok_iff.mp hReplaces.source with
    ⟨_, location, hLocation, hFound⟩
  rw [← hTrees.resolve_eq_ok_iff, ← hResolve,
    hTrees.resolve_eq_ok_iff] at hLocation
  exact
    Files.textAt_eq_ok_iff.mpr
      ⟨hUsable, location, hLocation, hFound⟩

/- Another file has the text that it had before. -/
theorem Replaces.textAt_of_other
    (hReplaces :
      plan.Replaces outside client gistId package script
        session after changed)
    (hTrees : session.tree.SameDirectories after.tree)
    {path : Path}
    (hOther :
      ¬ IsSameFile outside.directory.names session.tree path
        plan.source)
    (hApart :
      LeadApart outside.directory.names session.tree path
        package.manifest)
    {text : Text} :
    Files.textAt outside.directory.names after.tree path =
        .ok text ↔
      Files.textAt outside.directory.names session.tree path =
        .ok text := by
  rw [Files.textAt_eq_ok_iff, Files.textAt_eq_ok_iff]
  refine and_congr_right fun hUsable =>
    exists_congr fun location => ?_
  rw [← hTrees.resolve_eq_ok_iff]
  refine and_congr_right fun hResolved => ?_
  rw [hReplaces.others location fun other hMem hLeads => ?_]
  rcases hReplaces.mem_changed hMem with rfl | rfl
  · exact hOther ⟨hUsable, hResolved.trans hLeads.symm⟩
  · exact hApart location hResolved hLeads

/-
  After a pull, the package makes the script just if its new
  manifest keeps to the source.
-/
theorem Replaces.exportedIn_iff
    (hReplaces :
      plan.Replaces outside client gistId package script
        session after changed)
    (hTrees : session.tree.SameDirectories after.tree)
    (hApart :
      ∀ target ∈ package.binaries none,
        LeadApart outside.directory.names session.tree
          target.source package.manifest)
    (hEmbed :
      Script.embed plan.files.source plan.files.manifest =
        .ok script)
    {members : Toml.Table}
    (hMembers :
      Manifest.read (.notTomlAt package.manifest)
          plan.files.manifest =
        .ok members) :
    Workspace.exportedIn outside.directory.names after.tree
          package =
        .ok script ↔
      plan.Keeps outside.directory.names session.tree package
        members script := by
  rw [Workspace.exportedIn_eq_ok_iff]
  constructor
  · rintro ⟨source, manifest, text, hBinary, hText, hScript⟩
    rcases Workspace.binaryIn_eq_ok_iff.mp hBinary with
      ⟨hManifest, found, target, hFound, hTarget, rfl⟩
    cases hManifest.symm.trans hReplaces.manifest
    cases hFound.symm.trans hMembers
    refine ⟨target, hTarget, ?_⟩
    by_cases hSame :
        IsSameFile outside.directory.names session.tree
          target.source plan.source
    · exact .inl hSame
    · have hMem :=
        Workspace.mem_binaries_of_chooseBinary hTarget
      rw [hReplaces.textAt_of_other hTrees hSame
        (hApart target hMem)] at hText
      exact .inr ⟨text, hText, hScript⟩
  · rintro ⟨target, hTarget, hKeeps⟩
    have hBinary :
        Workspace.binaryIn outside.directory.names after.tree
            package =
          .ok (target.source, plan.files.manifest) :=
      Workspace.binaryIn_eq_ok_iff.mpr
        ⟨hReplaces.manifest, members, target, hMembers,
          hTarget, rfl⟩
    by_cases hSame :
        IsSameFile outside.directory.names session.tree
          target.source plan.source
    · exact
        ⟨_, _, _, hBinary,
          hReplaces.textAt_of_same hTrees hSame, hEmbed⟩
    · rcases hKeeps.resolve_left hSame with
        ⟨text, hText, hScript⟩
      have hMem :=
        Workspace.mem_binaries_of_chooseBinary hTarget
      rw [← hReplaces.textAt_of_other hTrees hSame
        (hApart target hMem)] at hText
      exact ⟨_, _, text, hBinary, hText, hScript⟩

end After

end PullPlan

------------------------------------------------------------
-- Pushing What Was Pulled
------------------------------------------------------------

/- A push of the script that is there only fetches it. -/
theorem push_of_same
    {session fetched : Session ω}
    {client : GistClient}
    {gistIds : GistIds}
    {package gistId script : Text}
    {options : PushOptions}
    {remote : RemoteScript}
    (hKnown : GistIds.find? package gistIds = some gistId)
    (hDescription : options.description = none)
    (hFetch :
      (client.retrieve gistId).perform outside session =
        (.ok remote, fetched))
    (hSame : remote.content = script) :
    ∃ left,
      (push client gistIds package script options
            false).perform
          outside session =
        (.ok (.upToDate, gistIds), left) ∧
        session.OnlyAsked outside left := by
  have hNot :
      ¬ Differs remote script options.description := by
    rintro (hOther | ⟨asked, hAsked, _⟩)
    · exact hOther hSame
    · rw [hDescription] at hAsked
      cases hAsked
  have hAsked :
      session.OnlyAsked outside
        ((client.retrieve gistId).perform outside session).2 :=
    client.onlyAsks_retrieve gistId session
  rw [hFetch] at hAsked
  rcases Performs.logInfo outside fetched ["Up to date"] with
    ⟨left, hLog⟩
  refine
    ⟨left, ?_,
      hAsked.trans
        (.of_isAfter hLog.isAfter (List.forall_mem_nil _))⟩
  unfold push determineState
  rw [hKnown]
  dsimp only
  rw [bind_assoc, Action.perform_bind, hFetch]
  dsimp only
  rw [pure_bind, compare_of_not_differs hNot]
  exact
    (hLog.bind_quiet
      (.pure (RemoteState.upToDate, gistIds))).run

/- The script that a package makes is pushed. -/
def pushPackage
    (client : GistClient)
    (gistIds : GistIds)
    (package : Cargo.Package)
    (options : PushOptions) :
    Action ω (RemoteState × GistIds) := do
  let script ← Workspace.exported package
  push client gistIds package.name script options false

/-
  A push of a package finds the script that was pulled to be
  up to date, wherever the store still has it.
-/
def AgreesOnPush
    (outside : Outside ω)
    (client : GistClient)
    (gistId : Text)
    (package : Cargo.Package)
    (script : Text)
    (after : Session ω) : Prop :=
  ∀ (gistIds : GistIds) (options : PushOptions)
    (later fetched : Session ω) (remote : RemoteScript),
    GistIds.find? package.name gistIds = some gistId →
      options.description = none →
        later.tree = after.tree →
          (client.retrieve gistId).perform outside later =
              (.ok remote, fetched) →
            remote.content = script →
              ∃ left,
                (pushPackage client gistIds package
                      options).perform
                    outside later =
                  (.ok (.upToDate, gistIds), left) ∧
                  later.OnlyAsked outside left

theorem agreesOnPush_of_exportedIn
    {client : GistClient}
    {gistId : Text}
    {package : Cargo.Package}
    {script : Text}
    {after : Session ω}
    (hExported :
      Workspace.exportedIn outside.directory.names after.tree
          package =
        .ok script) :
    AgreesOnPush outside client gistId package script
      after := by
  intro gistIds options later fetched remote hKnown
    hDescription hTree hFetch hSame
  rcases push_of_same hKnown hDescription hFetch hSame with
    ⟨left, hPush, hAsked⟩
  refine ⟨left, ?_, hAsked⟩
  rw [pushPackage, Action.perform_bind,
    Workspace.perform_exported, hTree, hExported]
  exact hPush

/-
  A package that was pulled from a gist with a canonical
  script makes that script, and a push of it changes nothing,
  just if its new manifest keeps to the source.
-/
theorem pull_converges_iff
    (outside : Outside ω)
    (session : Session ω)
    (client : GistClient)
    (gistId : Text)
    (package : Cargo.Package)
    {changed : List Path}
    {after fetched : Session ω}
    {remote : RemoteScript}
    (hPlace : Tree.parentName ∉ outside.directory.names)
    (hApart :
      ∀ target ∈ package.binaries none,
        LeadApart outside.directory.names session.tree
          target.source package.manifest)
    (hPull :
      (pull client gistId package false).perform outside
          session =
        (.ok changed, after))
    (hFetch :
      (client.retrieve gistId).perform outside session =
        (.ok remote, fetched))
    (hScript : Script.HasCanonicalBlock remote.content) :
    ∃ plan : PullPlan,
      plan.IsFor outside.directory.names session.tree package
          remote.content ∧
        ∀ members,
          Manifest.read (.notTomlAt package.manifest)
                plan.files.manifest =
              .ok members →
            ((Workspace.exported package).perform outside
                    after =
                  (.ok remote.content, after) ↔
                plan.Keeps outside.directory.names
                  session.tree package members
                  remote.content) ∧
              (plan.Keeps outside.directory.names session.tree
                  package members remote.content →
                AgreesOnPush outside client gistId package
                  remote.content after) := by
  rcases pull_ends outside session client gistId package
      hPlace with
    ⟨result, done, hRun, hEnd⟩
  cases hPull.symm.trans hRun
  rcases hEnd with
    ⟨found, between, hFound, plan, hPlan, hReplaced⟩
  cases hFetch.symm.trans hFound
  refine ⟨plan, hPlan, ?_⟩
  intro members hMembers
  have hMain :
      LeadApart outside.directory.names session.tree
        plan.source package.manifest := by
    rcases Workspace.binaryIn_eq_ok_iff.mp hPlan.chosen with
      ⟨_, _, target, _, hTarget, hSource⟩
    rw [← hSource]
    exact
      hApart target
        (Workspace.mem_binaries_of_chooseBinary hTarget)
  have hEmbed :
      Script.embed plan.files.source plan.files.manifest =
        .ok remote.content := by
    rcases hScript.exists_embed with ⟨files, hSplit, hEmbed⟩
    have hFiles := hPlan.split
    rw [filesIn, hSplit] at hFiles
    cases hFiles
    exact hEmbed
  have hReplaces :
      plan.Replaces outside client gistId package
        remote.content session after changed :=
    hPlan.replaces hReplaced hMain
  have hIff :=
    hReplaces.exportedIn_iff hReplaced.sameDirectories hApart
      hEmbed hMembers
  constructor
  · rw [Workspace.perform_exported, Prod.mk.injEq,
      and_iff_left rfl]
    exact hIff
  · intro hKeeps
    exact agreesOnPush_of_exportedIn (hIff.mpr hKeeps)

------------------------------------------------------------
-- Two Packages
------------------------------------------------------------

/- A script whose manifest asks for the second binary. -/
def askingSecond : Text :=
  "//! ```cargo\n//! [package]\n".toList ++
    "//! name = \"p\"\n//! default-run = \"b\"\n".toList ++
    "//! ```\n".toList

/- That script as a source. -/
def askingSource : Script.Source :=
  { lines :=
      [{ text := "//! ```cargo", terminator := .lineFeed
         start := 0
         doc :=
          some { marker := "//! ", content := "```cargo" } },
        { text := "//! [package]", terminator := .lineFeed
          start := 13
          doc :=
            some
              { marker := "//! ", content := "[package]" } },
        { text := "//! name = \"p\"", terminator := .lineFeed
          start := 27
          doc :=
            some
              { marker := "//! ", content := "name = \"p\"" } },
        { text := "//! default-run = \"b\""
          terminator := .lineFeed
          start := 42
          doc :=
            some
              { marker := "//! "
                content := "default-run = \"b\"" } },
        { text := "//! ```", terminator := .lineFeed
          start := 64
          doc :=
            some { marker := "//! ", content := "```" } }]
    shebang := false }

theorem hasCanonicalBlock_askingSecond :
    Script.HasCanonicalBlock askingSecond := by
  refine
    ⟨askingSource,
      { info := "cargo", first := 0, stop := 5
        contentStop := 4, lineFeeds := 3 },
      askingSource.lines.head (by decide),
      askingSource.lines.take 1,
      (askingSource.lines.drop 1).take 3,
      askingSource.lines.drop 4, by decide +kernel, ?_⟩
  constructor
  case found => decide +kernel
  case filled => decide
  case anchored => decide
  case isRegion =>
    exact
      { lines_eq := rfl
        first_eq := rfl
        stop_eq := rfl
        starts := ⟨_, _, _, rfl, rfl⟩
        ends :=
          ⟨(askingSource.lines.drop 1).take 2, _, _, rfl,
            rfl⟩ }
  case canonical =>
    intro line hMem
    have hLine :
        line = askingSource.lines[1] ∨
          line = askingSource.lines[2] ∨
            line = askingSource.lines[3] := by
      simpa [askingSource] using hMem
    rcases hLine with rfl | rfl | rfl
    · exact ⟨_, rfl, by decide⟩
    · exact ⟨_, rfl, by decide⟩
    · exact ⟨_, rfl, by decide⟩

/- A package with two binaries. -/
def twoBinaries : Cargo.Package :=
  { id := "p"
    name := "p"
    manifest := Path.ofText "/p/Cargo.toml"
    targets :=
      [{ name := "a", kinds := ["bin"]
         source := Path.ofText "/p/src/a.rs" },
        { name := "b", kinds := ["bin"]
          source := Path.ofText "/p/src/b.rs" }] }

/- Its files, where the manifest asks for a binary. -/
def startAsking (name : String) : Session Unit :=
  .start
    ⟨[(["p"], .directory),
      (["p", "Cargo.toml"],
        .file
          (.text
            ("[package]\ndefault-run = \"".toList ++
              name.toList ++ "\"\n".toList))),
      (["p", "src"], .directory),
      (["p", "src", "a.rs"], .file (.text "// a\n")),
      (["p", "src", "b.rs"], .file (.text "// b\n"))]⟩
    ()

/- The script is pulled where a binary was asked for. -/
def pulledAsking
    (name : String) :
    Except Failure (List Path) × Session Unit :=
  (pull .anonymous "1" twoBinaries false).perform
    (storeOf askingSecond) (startAsking name)

/- The script that the package makes then. -/
def exportedAsking (name : String) : Except Failure Text :=
  ((Workspace.exported twoBinaries).perform
    (storeOf askingSecond) (pulledAsking name).2).1

/- No source of the package is its manifest. -/
theorem leadApart_twoBinaries (name : String) :
    ∀ target ∈ twoBinaries.binaries none,
      LeadApart [] (startAsking name).tree target.source
        twoBinaries.manifest := by
  intro target hMem location hSource hManifest
  rw [spelledLocation_of_resolve hSource] at hManifest
  have hSame := spelledLocation_of_resolve hManifest
  have hOther :
      ∀ target ∈ twoBinaries.binaries none,
        spelledLocation [] target.source ≠
          spelledLocation [] twoBinaries.manifest := by
    decide
  exact hOther target hMem hSame

/- A package that asked for its second binary keeps to it. -/
theorem exists_keeps_second
    {plan : PullPlan}
    (hPlan :
      plan.IsFor [] (startAsking "b").tree twoBinaries
        askingSecond) :
    ∃ members,
      Manifest.read (.notTomlAt twoBinaries.manifest)
            plan.files.manifest =
          .ok members ∧
        plan.Keeps [] (startAsking "b").tree twoBinaries
          members askingSecond := by
  have hChosen :
      ((Workspace.binaryIn [] (startAsking "b").tree
            twoBinaries).map Prod.fst).toOption =
        some (Path.ofText ("/p/src/b.rs" : String)) := by
    decide +kernel
  have hAgain :
      ((do
          let files ← filesIn askingSecond
          let members ←
            Manifest.read (.notTomlAt twoBinaries.manifest)
              files.manifest
          let target ←
            Workspace.chooseBinary twoBinaries members
          return target.source :
          Except Failure Path)).toOption =
        some (Path.ofText ("/p/src/b.rs" : String)) := by
    decide +kernel
  rw [hPlan.chosen] at hChosen
  rw [hPlan.split] at hAgain
  simp only [bind, Except.bind] at hAgain
  cases hMembers :
      Manifest.read (.notTomlAt twoBinaries.manifest)
        plan.files.manifest with
  | error failure =>
      rw [hMembers] at hAgain
      cases hAgain
  | ok members =>
      rw [hMembers] at hAgain
      cases hTarget :
          Workspace.chooseBinary twoBinaries members with
      | error failure =>
          simp only [hTarget] at hAgain
          cases hAgain
      | ok target =>
          simp only [hTarget] at hAgain
          have hSource :
              target.source =
                Path.ofText ("/p/src/b.rs" : String) :=
            Option.some.inj hAgain
          have hSame : plan.source = target.source :=
            (Option.some.inj hChosen).trans hSource.symm
          have hUsable :
              Files.isUsable target.source = true := by
            rw [hSource]
            decide
          exact
            ⟨members, rfl, target, hTarget,
              .inl ⟨hUsable, by rw [hSame]⟩⟩

/- The new manifest chooses the binary that was pulled. -/
theorem pull_converges_at_second :
    ∃ changed after,
      pulledAsking "b" = (.ok changed, after) ∧
        (Workspace.exported twoBinaries).perform
              (storeOf askingSecond) after =
            (.ok askingSecond, after) ∧
          AgreesOnPush (storeOf askingSecond) .anonymous "1"
            twoBinaries askingSecond after := by
  have hPulled :
      (pulledAsking "b").1.toOption.isSome = true := by
    decide +kernel
  have hFetched :
      ((GistClient.anonymous.retrieve "1").perform
            (storeOf askingSecond)
            (startAsking "b")).1.toOption.map
          (·.content) =
        some askingSecond := by
    decide +kernel
  rcases hPull : pulledAsking "b" with ⟨result, after⟩
  rcases hFetch :
      (GistClient.anonymous.retrieve "1").perform
        (storeOf askingSecond) (startAsking "b") with
    ⟨found, fetched⟩
  rw [hPull] at hPulled
  rw [hFetch] at hFetched
  cases result with
  | error failure => cases hPulled
  | ok changed =>
      cases found with
      | error failure => cases hFetched
      | ok remote =>
          have hScript : remote.content = askingSecond :=
            Option.some.inj hFetched
          rcases pull_converges_iff (storeOf askingSecond)
              (startAsking "b") .anonymous "1" twoBinaries
              (by decide) (leadApart_twoBinaries "b") hPull
              hFetch
              (hScript ▸ hasCanonicalBlock_askingSecond) with
            ⟨plan, hPlan, hConverges⟩
          rw [hScript] at hPlan hConverges
          rcases exists_keeps_second hPlan with
            ⟨members, hMembers, hKeeps⟩
          rcases hConverges members hMembers with
            ⟨hIff, hPush⟩
          exact
            ⟨changed, after, rfl, hIff.mpr hKeeps,
              hPush hKeeps⟩

/-
  A script that asks for another binary than the package did
  is pulled into the one, and exported from the other.
-/
theorem pull_parts_from_export :
    Script.HasCanonicalBlock askingSecond ∧
      (pulledAsking "a").1.toOption.isSome = true ∧
        (exportedAsking "a").toOption ≠ some askingSecond := by
  refine ⟨hasCanonicalBlock_askingSecond, ?_⟩
  decide +kernel

end Sync

end ScriptWorkspace
