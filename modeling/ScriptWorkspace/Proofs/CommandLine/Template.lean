import ScriptWorkspace.Proofs.Session.Growing
import ScriptWorkspace.Proofs.Settings.Registration
import ScriptWorkspace.Proofs.Storage.Staging

/-
  The template package of a workspace.

  A new workspace is entered in the settings under the path
  that it was made with, and a new package looks for it under
  the root that the build tool reports, which has no two dots
  in it. So the template is found if there are none in the
  path either, and else only if it was set before.

  Main declarations:
    * `Settings.templateOf?`
    * `Settings.withTemplate?`
    * `CommandLine.UsesTemplate`
    * `CommandLine.exists_save_of_initWorkspace`
    * `CommandLine.template_is_used_iff`
-/

namespace ScriptWorkspace

open ScriptWorkspace.Action Storage Storage.Calls

variable {ω : Type}
variable {outside : Outside ω}
variable {session after : Session ω}

/- The path that a path spells, without two dots in it. -/
def Path.plain (place : Location) (path : Path) : Path :=
  { anchor := .root
    names := spelledLocation place path }

/- Only a path without two dots is plain already. -/
theorem Path.plain_eq_self_iff
    {path : Path}
    (place : Location)
    (hAnchor : path.anchor = .root) :
    path.plain place = path ↔
      Tree.parentName ∉ path.names := by
  rcases path with ⟨_, names⟩
  cases hAnchor
  have hNames :
      spelledLocation place { anchor := .root, names } =
        plainNames [] names :=
    rfl
  rw [plain, hNames, Path.mk.injEq]
  constructor
  · rintro ⟨_, hSame⟩ hMem
    rw [← hSame] at hMem
    exact
      parentName_not_mem_plainNames List.not_mem_nil names
        hMem
  · intro hNone
    exact ⟨rfl, plainNames_append hNone [] []⟩

namespace Settings

variable {settings saved before : Settings}
variable {root home template : Path}

------------------------------------------------------------
-- Templates In Settings
------------------------------------------------------------

/- The template package that is set for a root. -/
def templateOf?
    (settings : Settings)
    (root home : Path) : Option Path :=
  ((settings.workspace? root home).bind
    (·.templatePackage)).map
    fun text => root.append (Path.expand text home)

/- The settings with a template package for a root. -/
def withTemplate?
    (settings : Settings)
    (root home template : Path) : Option Settings := do
  let (key, workspace, entered) ←
    settings.withWorkspace? root home
  let text ← template.compress? home
  return entered.put key
    { workspace with templatePackage := some text }

/- Only the entry of the root is set. -/
theorem setsEntry_of_withTemplate?
    (hRoot : root.IsProper)
    (hHome : home.IsProper)
    (hRootAnchor : root.anchor = .root)
    (hHomeAnchor : home.anchor = .root)
    (hSaved :
      settings.withTemplate? root home template =
        some saved) :
    ∃ old text,
      template.compress? home = some text ∧
        SetsEntry root home old
          { old with templatePackage := some text }
          settings.workspaces saved.workspaces := by
  rcases Option.bind_eq_some_iff.mp hSaved with
    ⟨⟨key, workspace, entered⟩, hEntry, hSaved⟩
  rcases Option.bind_eq_some_iff.mp hSaved with
    ⟨text, hText, hSaved⟩
  cases hSaved
  exact
    ⟨workspace, text, hText,
      setsEntry_put _ hRoot hHome hRootAnchor hHomeAnchor
        hEntry⟩

/- The template that was set is found under its root. -/
theorem templateOf?_withTemplate?
    (hRoot : root.IsProper)
    (hTemplate : template.IsProper)
    (hHome : home.IsProper)
    (hRootAnchor : root.anchor = .root)
    (hTemplateAnchor : template.anchor = .root)
    (hHomeAnchor : home.anchor = .root)
    (hSaved :
      settings.withTemplate? root home template =
        some saved) :
    saved.templateOf? root home = some template := by
  rcases
      setsEntry_of_withTemplate? hRoot hHome hRootAnchor
        hHomeAnchor hSaved with
    ⟨old, text, hText, hSets⟩
  have hExpand : Path.expand text home = template :=
    Path.expand_compress? hTemplate hHome hTemplateAnchor
      hHomeAnchor hText
  have hAppend : root.append template = template := by
    rw [Path.append, Path.isAbsolute, hTemplateAnchor]
    rfl
  rw [templateOf?, hSets.workspace?_eq, Option.bind_some,
    Option.map_some, hExpand, hAppend]

/- Other roots have the template that they had. -/
theorem templateOf?_of_ne
    {other : Path}
    (hRoot : root.IsProper)
    (hHome : home.IsProper)
    (hRootAnchor : root.anchor = .root)
    (hHomeAnchor : home.anchor = .root)
    (hSaved :
      settings.withTemplate? root home template =
        some saved)
    (hOther : other ≠ root) :
    saved.templateOf? other home =
      settings.templateOf? other home := by
  rcases
      setsEntry_of_withTemplate? hRoot hHome hRootAnchor
        hHomeAnchor hSaved with
    ⟨old, text, _, hSets⟩
  rw [templateOf?, templateOf?, hSets.workspace?_of_ne hOther]

end Settings

namespace CommandLine

open Settings

/-
  A new package in the workspace at a root is made from a
  template package, and this is found where another path
  leads to.
-/
def UsesTemplate
    (outside : Outside ω)
    (session : Session ω)
    (settings : Settings)
    (root template : Path) : Prop :=
  ∃ found,
    (templatePackage settings root).perform outside session =
        (.ok (some found), session) ∧
      spelledLocation outside.directory.names found =
        spelledLocation outside.directory.names template

theorem perform_templatePackage
    (settings : Settings)
    (root : Path)
    (session : Session ω) :
    (templatePackage settings root).perform outside session =
      (.ok (settings.templateOf? root outside.home),
        session) :=
  rfl

/- The template package is the one in the settings. -/
theorem usesTemplate_iff
    {settings : Settings}
    {root template : Path} :
    UsesTemplate outside session settings root template ↔
      ∃ found,
        settings.templateOf? root outside.home =
            some found ∧
          spelledLocation outside.directory.names found =
            spelledLocation outside.directory.names
              template := by
  unfold UsesTemplate
  simp only [perform_templatePackage, Prod.mk.injEq,
    Except.ok.injEq, and_true]

------------------------------------------------------------
-- Making A Workspace
------------------------------------------------------------

/- The path of the settings depends on the outside only. -/
theorem exists_perform_settingsPath
    (outside : Outside ω)
    (given : Option Path) :
    ∃ path, ∀ session,
      (settingsPath given).perform outside session =
        (.ok path, session) := by
  cases given with
  | some path => exact ⟨path, fun _ => rfl⟩
  | none =>
      have hFound (session : Session ω) :
          (environment "XDG_CONFIG_HOME").perform outside
              session =
            (.ok
                (outside.«variables».lookup
                  ("XDG_CONFIG_HOME" : String).toList),
              session) :=
        rfl
      cases hBase :
          outside.«variables».lookup
            ("XDG_CONFIG_HOME" : String).toList with
      | some text =>
          refine
            ⟨((Path.ofText text).join "bikecase").join
                "config.toml",
              fun session => ?_⟩
          rw [settingsPath, Settings.usualPath,
            perform_bind_of_ok _ (hFound session), hBase]
          rfl
      | none =>
          refine
            ⟨((outside.home.join ".config").join
                  "bikecase").join
                "config.toml",
              fun session => ?_⟩
          rw [settingsPath, Settings.usualPath,
            perform_bind_of_ok _ (hFound session), hBase]
          rfl

/- The entry is the one of the settings. -/
theorem withWorkspace?_of_workspaceEntry
    {settings : Settings}
    {root : Path}
    {entry : Text × WorkspaceSettings × Settings}
    (hRun :
      (workspaceEntry settings root).perform outside session =
        (.ok entry, after)) :
    settings.withWorkspace? root outside.home = some entry ∧
      after = session := by
  rw [perform_workspaceEntry] at hRun
  cases hFound : settings.withWorkspace? root outside.home with
  | none =>
      rw [hFound] at hRun
      cases hRun
  | some found =>
      rw [hFound] at hRun
      cases hRun
      exact ⟨rfl, rfl⟩

/- A form of a path is given only if it is a text. -/
theorem compress?_of_compressed
    {path home : Path}
    {text : Text}
    (hRun :
      (Action.ofExcept (compressed path home) :
            Action ω Text).perform outside session =
        (.ok text, after)) :
    path.compress? home = some text ∧ after = session := by
  unfold compressed at hRun
  cases hForm : path.compress? home with
  | none =>
      rw [hForm] at hRun
      cases hRun
  | some form =>
      rw [hForm] at hRun
      cases hRun
      exact ⟨rfl, rfl⟩

/- The template package is a directory of the workspace. -/
theorem made_of_initWorkspace
    {directory template : Path}
    (hRun :
      (Workspace.initWorkspace directory false).perform
          outside session =
        (.ok template, after)) :
    template = directory.join "template" ∧
      Calls.isDirectory after.tree outside.directory.names
          template =
        true := by
  rcases exists_of_perform_bind hRun with ⟨_, _, _, hRun⟩
  rcases exists_of_perform_bind hRun with ⟨_, _, _, hRun⟩
  rcases exists_of_perform_bind hRun with ⟨_, _, _, hRun⟩
  rcases exists_of_perform_bind hRun with ⟨_, _, _, hRun⟩
  rcases exists_of_perform_bind hRun with ⟨_, _, _, hRun⟩
  rcases exists_of_perform_bind hRun with
    ⟨_, written, hWrite, hRun⟩
  cases hRun
  refine ⟨rfl, ?_⟩
  -- The source of the template was written two levels down.
  rcases Files.exists_set_of_write hWrite with
    ⟨_, location, hResolved, _, _⟩
  have hSource :
      ((directory.join "template").join "src").join "main.rs" =
        ((directory.join "template").child "src").child
          "main.rs" :=
    rfl
  rw [hSource] at hResolved
  rcases
      Files.isDirectory_eq_true_iff.mp
        (Files.isDirectory_of_child hResolved) with
    ⟨_, hSources, _⟩
  exact
    Files.isDirectory_of_write hWrite
      (Files.isDirectory_of_child hSources)

/-
  A workspace that was made is entered in the settings that
  were loaded before, and these are saved at last.
-/
theorem exists_save_of_initWorkspace
    {globals : Globals}
    {path file : Path}
    (hDry : globals.dryRun = false)
    (hFile :
      ∀ session,
        (settingsPath globals.config).perform outside session =
          (.ok file, session))
    (hRun :
      (initWorkspace globals path).perform outside session =
        (.ok (), after)) :
    ∃ before saved loaded made kept,
      (loadSettings globals.config false).perform outside
          session =
        (.ok before, loaded) ∧
      before.withTemplate? (outside.directory.append path)
          outside.home
          ((outside.directory.append path).join "template") =
        some saved ∧
      Calls.isDirectory made.tree outside.directory.names
          ((outside.directory.append path).join "template") =
        true ∧
      (Settings.save saved file false).perform outside made =
        (.ok (), kept) ∧
      after.tree = kept.tree := by
  rcases exists_of_perform_bind hRun with
    ⟨directory, _, hPlaced, hLoading⟩
  cases hPlaced
  rcases exists_of_perform_bind hLoading with
    ⟨before, loaded, hLoad, hMaking⟩
  rw [hDry] at hLoad hMaking
  rcases exists_of_perform_bind hMaking with
    ⟨template, made, hMade, hEntering⟩
  rcases made_of_initWorkspace hMade with
    ⟨rfl, hDirectory⟩
  rcases exists_of_perform_bind hEntering with
    ⟨⟨key, workspace, entered⟩, _, hEntry, hHome⟩
  rcases withWorkspace?_of_workspaceEntry hEntry with
    ⟨hFound, rfl⟩
  rcases exists_of_perform_bind hHome with
    ⟨home, _, hHome, hForming⟩
  cases hHome
  rcases exists_of_perform_bind hForming with
    ⟨text, _, hText, hSaving⟩
  rcases compress?_of_compressed hText with ⟨hForm, rfl⟩
  rcases exists_of_perform_bind hSaving with
    ⟨_, kept, hSave, hSucceed⟩
  cases hSucceed
  rcases exists_of_perform_bind hSave with
    ⟨_, _, hPath, hSave⟩
  rw [hFile] at hPath
  cases hPath
  rw [hDry] at hSave
  refine
    ⟨before, _, loaded, _, kept, hLoad, ?_, hDirectory,
      hSave, rfl⟩
  rw [withTemplate?, hFound]
  simp only [Option.bind_eq_bind, Option.bind_some, hForm]
  rfl

------------------------------------------------------------
-- Using A Template
------------------------------------------------------------

/- The template package has a proper path as well. -/
theorem isProper_template
    {directory : Path}
    (hProper : directory.IsProper) :
    (directory.join "template").IsProper := by
  intro name hMem
  rcases List.mem_append.mp hMem with hMem | hMem
  · exact hProper name hMem
  · exact Path.isProper_ofText "template" name hMem

/- A directory stays one while settings are saved. -/
theorem isDirectory_of_save
    {settings : Settings}
    {file path : Path}
    (hSave :
      (Settings.save settings file false).perform outside
          session =
        (.ok (), after))
    (hDirectory :
      Calls.isDirectory session.tree outside.directory.names
          path =
        true) :
    Calls.isDirectory after.tree outside.directory.names
        path =
      true := by
  rcases exists_of_perform_bind hSave with
    ⟨_, between, hMake, hWrite⟩
  have hGains := Files.gainsDirectories_of_makeDirectories hMake
  exact
    Files.isDirectory_of_write hWrite
      (Files.isDirectory_of_growsInto hGains.growsInto
        hDirectory)

/- Settings that are in their file are not made anew. -/
theorem perform_loadSettings
    {given : Option Path}
    {file : Path}
    {settings : Settings}
    (hFile :
      (settingsPath given).perform outside session =
        (.ok file, session))
    (hLoaded :
      loadedAt outside.directory.names session.tree file =
        .ok settings) :
    (loadSettings given false).perform outside session =
      (.ok settings, session) := by
  have hExists :
      (Files.pathExists file).perform outside session =
        (.ok true, session) := by
    rcases loadedAt_eq_ok_iff.mp hLoaded with ⟨_, hText, _⟩
    rcases Files.textAt_eq_ok_iff.mp hText with
      ⟨hUsable, location, hResolved, hFound⟩
    rw [Files.perform_pathExists,
      Files.existsAt_eq_true_iff.mpr
        ⟨hUsable, location, _, hResolved, hFound⟩]
  rw [loadSettings, perform_bind_of_ok _ hFile,
    perform_bind_of_ok _
      (perform_homeDirectory outside session),
    Settings.loadOrCreate, perform_bind_of_ok _ hExists,
    if_pos rfl, Settings.perform_load, hLoaded]

/-
  A workspace that was made in a directory has its template
  under the plain path of the directory if and only if the
  path that it was made with is plain, or the same template
  was set for the plain path before.
-/
theorem template_is_used_iff
    (globals : Globals)
    (path : Path)
    {directory : Path}
    (hDry : globals.dryRun = false)
    (hDirectory : outside.directory.append path = directory)
    (hProper : directory.IsProper)
    (hAnchor : directory.anchor = .root)
    (hHome : outside.home.IsProper)
    (hHomeAnchor : outside.home.anchor = .root)
    (hRun :
      (initWorkspace globals path).perform outside session =
        (.ok (), after))
    (hReread :
      ∀ before saved,
        ((loadSettings globals.config false).perform outside
              session).1 =
            .ok before →
          before.withTemplate? directory outside.home
                (directory.join "template") =
              some saved →
            saved.IsReread) :
    ∃ before loaded found,
      (loadSettings globals.config false).perform outside
          session =
        (.ok before, loaded) ∧
      (loadSettings globals.config false).perform outside
          after =
        (.ok found, after) ∧
      Calls.isDirectory after.tree outside.directory.names
          (directory.join "template") =
        true ∧
      (UsesTemplate outside after found
          (directory.plain outside.directory.names)
          (directory.join "template") ↔
        Tree.parentName ∉ directory.names ∨
          UsesTemplate outside loaded before
            (directory.plain outside.directory.names)
            (directory.join "template")) := by
  subst hDirectory
  rcases exists_perform_settingsPath outside globals.config
    with ⟨file, hFile⟩
  rcases exists_save_of_initWorkspace hDry hFile hRun with
    ⟨before, saved, loaded, made, kept, hLoad, hSaved, hMade,
      hSave, hTree⟩
  have hSavedReread : saved.IsReread :=
    hReread before saved (by rw [hLoad]) hSaved
  have hLoaded :
      loadedAt outside.directory.names after.tree file =
        .ok saved.reread := by
    rw [hTree]
    exact loadedAt_of_save hSavedReread hSave
  have hKept := isDirectory_of_save hSave hMade
  rw [← hTree] at hKept
  refine
    ⟨before, loaded, saved.reread, hLoad,
      perform_loadSettings (hFile after) hLoaded, hKept, ?_⟩
  by_cases hTwoDots :
      Tree.parentName ∈ (outside.directory.append path).names
  · -- The entry of the plain path is none that was set.
    have hOther :
        (outside.directory.append path).plain
            outside.directory.names ≠
          outside.directory.append path :=
      fun hSame =>
        (Path.plain_eq_self_iff _ hAnchor).mp hSame hTwoDots
    have hSame :=
      templateOf?_of_ne hProper hHome hAnchor hHomeAnchor
        hSaved hOther
    rw [or_iff_right (not_not_intro hTwoDots),
      usesTemplate_iff, usesTemplate_iff, ← hSame]
    rfl
  · have hPlain :=
      (Path.plain_eq_self_iff outside.directory.names
        hAnchor).mpr hTwoDots
    have hFound :=
      templateOf?_withTemplate? hProper
        (isProper_template hProper) hHome hAnchor hAnchor
        hHomeAnchor hSaved
    rw [hPlain]
    exact
      iff_of_true
        (usesTemplate_iff.mpr ⟨_, hFound, rfl⟩)
        (.inl hTwoDots)

/- A build tool that makes a package in the last word. -/
def makesPackages : Outside Unit :=
  { home := Path.ofText "/home"
    directory := Path.ofText "/work/sub"
    «variables» := []
    call := fun invocation world tree =>
      let place :=
        spelledLocation []
          (Path.ofText (invocation.command.getLastD []))
      (.finished 0 [] [], world,
        (tree.set place .directory).set
          (place ++ [("Cargo.toml" : OsText)])
          (.file
            (.text
              ("[package]\nname = \"template\"\n" ++
                  "version = \"0.1.0\"\n" :
                String).toList)))
    send := fun _ world => (.failure "ConnectError", world) }

/- Two directories, and settings that say nothing. -/
def twoDirectories : Session Unit :=
  .start
    ⟨[(["work"], .directory),
      (["work", "sub"], .directory),
      (["settings.toml"], .file (.text []))]⟩
    ()

/- Commands with those settings. -/
def withSettingsFile : Globals :=
  { Globals.usual with
    config := some (Path.ofText "/settings.toml") }

/- The template for new packages in a workspace. -/
def templateFor (root : Path) : Action Unit (Option Path) := do
  templatePackage
    (← loadSettings withSettingsFile.config false) root

/- A workspace that was made with two dots has no template. -/
theorem template_lost_after_two_dots :
    (makesPackages.directory.append
            (Path.ofText "..")).plain
          makesPackages.directory.names =
        Path.ofText "/work" ∧
      ((initWorkspace withSettingsFile (Path.ofText "..")).perform
          makesPackages twoDirectories).1.isOk =
        true ∧
      ((templateFor (Path.ofText "/work")).perform
          makesPackages
          ((initWorkspace withSettingsFile
                (Path.ofText "..")).perform
              makesPackages twoDirectories).2).1.toOption =
        some none := by
  decide +kernel

/- One that was made in the working directory has one. -/
theorem template_is_used_iff_here :
    ((initWorkspace withSettingsFile (Path.ofText ".")).perform
          makesPackages twoDirectories).1.isOk =
        true ∧
      ∃ found after,
        (loadSettings withSettingsFile.config false).perform
              makesPackages
              ((initWorkspace withSettingsFile
                    (Path.ofText ".")).perform
                  makesPackages twoDirectories).2 =
            (.ok found, after) ∧
          UsesTemplate makesPackages after found
            (Path.ofText "/work/sub")
            (Path.ofText "/work/sub/template") := by
  have hOk :
      ((initWorkspace withSettingsFile
              (Path.ofText ".")).perform
            makesPackages twoDirectories).1.isOk =
          true := by
    decide +kernel
  refine ⟨hOk, ?_⟩
  cases hRun :
      (initWorkspace withSettingsFile
            (Path.ofText ".")).perform
          makesPackages twoDirectories with
  | mk result after =>
      rw [hRun] at hOk
      cases result with
      | error failure => cases hOk
      | ok done =>
          have hLoad :
              ((loadSettings withSettingsFile.config
                    false).perform
                  makesPackages twoDirectories).1 =
                .ok Settings.empty := by
            decide +kernel
          have hAll :
              ∀ saved ∈
                (Settings.empty.withTemplate?
                  (Path.ofText "/work/sub")
                  makesPackages.home
                  ((Path.ofText "/work/sub").join
                    "template")).toList,
                saved.IsReread := by
            decide +kernel
          have hProper :=
            Path.isProper_ofText ("/work/sub" : String)
          have hHome := Path.isProper_ofText ("/home" : String)
          have hDirectory :
              makesPackages.directory.append
                  (Path.ofText ".") =
                Path.ofText "/work/sub" := by
            decide +kernel
          rcases
              template_is_used_iff withSettingsFile
                (Path.ofText ".") rfl hDirectory hProper rfl
                hHome rfl hRun
                (fun before saved hBefore hSaved => by
                  rw [hLoad] at hBefore
                  cases hBefore
                  exact
                    hAll saved (Option.mem_toList.mpr hSaved))
              with
            ⟨_, _, found, _, hFound, _, hUses⟩
          have hPlain :
              (Path.ofText "/work/sub").plain
                  makesPackages.directory.names =
                Path.ofText "/work/sub" := by
            decide +kernel
          have hTemplate :
              (Path.ofText "/work/sub").join "template" =
                Path.ofText "/work/sub/template" := by
            decide +kernel
          have hNone :
              Tree.parentName ∉
                (Path.ofText "/work/sub").names := by
            decide +kernel
          rw [hPlain, hTemplate] at hUses
          exact
            ⟨found, after, hFound, hUses.mpr (.inl hNone)⟩

end CommandLine

end ScriptWorkspace
