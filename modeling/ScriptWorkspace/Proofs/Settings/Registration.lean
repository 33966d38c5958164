import ScriptWorkspace.CommandLine.Management
import ScriptWorkspace.Proofs.DryRun.CommandLines
import ScriptWorkspace.Proofs.Gist.Registry
import ScriptWorkspace.Proofs.Settings.Entries
import ScriptWorkspace.Proofs.Settings.Rereading

/-
  Gists that are registered.

  The gist of a package is kept in the entry of a workspace,
  in a file of settings. Whoever loads the settings again
  finds it under the same root and package, and all else that
  was in the settings.

  Main declarations:
    * `Settings.withGist?`
    * `Settings.Registers`
    * `Settings.gist?`
    * `CommandLine.registerGist`
    * `CommandLine.registered_gist_is_found`
-/

namespace ScriptWorkspace

open ScriptWorkspace.Action

variable {ω : Type}
variable {root home : Path}
variable {package gistId : Text}

namespace Settings

variable {settings saved : Settings}

------------------------------------------------------------
-- Registering
------------------------------------------------------------

/- What is set for a workspace, with a gist for a package. -/
def registered
    (package gistId : Text)
    (workspace : WorkspaceSettings) : WorkspaceSettings :=
  { workspace with
    gistIds := workspace.gistIds.put package gistId }

/- The settings with a gist for a package of a workspace. -/
def withGist?
    (settings : Settings)
    (root home : Path)
    (package gistId : Text) : Option Settings :=
  (settings.withWorkspace? root home).map
    fun (key, workspace, entered) =>
      entered.put key (registered package gistId workspace)

/-
  The gist of a package is registered in the settings: it is
  put into the entry of the workspace, and all else is equal.
-/
structure Registers
    (root home : Path)
    (package gistId : Text)
    (before after : Settings) : Prop where
  default : after.default = before.default
  token : after.token = before.token
  template :
    Toml.Alike (.table before.template)
      (.table after.template)
  workspaces :
    ∃ old,
      SetsEntry root home old (registered package gistId old)
        before.workspaces after.workspaces

/- The gist of a package in the entry of a workspace. -/
def gist?
    (settings : Settings)
    (root home : Path)
    (package : Text) : Option Text :=
  (settings.workspace? root home).bind
    (·.gistIds.find? package)

/- The gist of the package is found in its workspace. -/
theorem gist?_of_registered
    {workspace : WorkspaceSettings}
    (hSaved :
      saved.workspace? root home =
        some (registered package gistId workspace)) :
    saved.gist? root home package = some gistId := by
  rw [gist?, hSaved, Option.bind_some, registered,
    GistIds.find?_put_self]

/- Other packages of the workspace have the gists they had. -/
theorem gist?_of_ne
    {other : Text}
    (hSaved :
      saved.workspace? root home =
        some
          (registered package gistId
            ((settings.workspace? root home).getD .empty)))
    (hOther : other ≠ package) :
    saved.gist? root home other =
      settings.gist? root home other := by
  rw [gist?, gist?, hSaved, Option.bind_some, registered,
    GistIds.find?_put_of_ne _ _ hOther]
  cases settings.workspace? root home with
  | none => rfl
  | some workspace => rfl

theorem registers_withGist?
    (hRoot : root.IsProper)
    (hHome : home.IsProper)
    (hRootAnchor : root.anchor = .root)
    (hHomeAnchor : home.anchor = .root)
    (hSaved :
      settings.withGist? root home package gistId =
        some saved) :
    Registers root home package gistId settings
      saved.reread := by
  rcases Option.map_eq_some_iff.mp hSaved with
    ⟨⟨key, workspace, entered⟩, hEntry, rfl⟩
  rcases withWorkspace?_rest hEntry with
    ⟨hDefault, hToken, hTemplate⟩
  refine
    { default := hDefault
      token := hToken
      template := ?_
      workspaces := ⟨workspace, ?_⟩ }
  · rw [← hTemplate]
    exact Toml.alike_arranged entered.template
  · exact
      setsEntry_put _ hRoot hHome hRootAnchor hHomeAnchor
        hEntry

end Settings

namespace CommandLine

open Settings

/- Register a gist in a file of settings, which is reread. -/
def registerGist
    (path root : Path)
    (package gistId : Text) : Action ω Settings := do
  let settings ← Settings.load path
  let (key, workspace, settings) ← workspaceEntry settings root
  Settings.save
    (settings.put key (registered package gistId workspace))
    path false
  Settings.load path

theorem perform_homeDirectory
    (outside : Outside ω)
    (session : Session ω) :
    homeDirectory.perform outside session =
      (.ok outside.home, session) :=
  rfl

/- The entry is the one of the settings. -/
theorem perform_workspaceEntry
    (outside : Outside ω)
    (session : Session ω)
    (settings : Settings)
    (root : Path) :
    (workspaceEntry settings root).perform outside session =
      ((settings.withWorkspace? root outside.home).elim
          (.error (.pathNotText root.text)) .ok,
        session) := by
  rw [workspaceEntry,
    perform_bind_of_ok _
      (perform_homeDirectory outside session)]
  cases settings.withWorkspace? root outside.home with
  | none => rfl
  | some entry => rfl

/- The gist of a package is the one in the entry of its root. -/
theorem perform_gistIdOf
    {outside : Outside ω}
    {settings : Settings}
    (session : Session ω)
    (hGist :
      settings.gist? root outside.home package =
        some gistId) :
    (gistIdOf settings root package).perform outside session =
      (.ok gistId, session) := by
  have hFound :
      (do
        (← settings.workspace? root
            outside.home).gistIds.find? package) =
        some gistId :=
    hGist
  rw [gistIdOf,
    perform_bind_of_ok _
      (perform_homeDirectory outside session)]
  dsimp only
  rw [hFound]
  rfl

theorem perform_registerGist
    {outside : Outside ω}
    {session : Session ω}
    {settings saved : Settings}
    {path : Path}
    (hNames : path.names ≠ [])
    (hLoad :
      (Settings.load path).perform outside session =
        (.ok settings, session))
    (hSaved :
      settings.withGist? root outside.home package gistId =
        some saved)
    (hReread : saved.IsReread) :
    ∃ after,
      (registerGist path root package gistId).perform outside
          session =
        (.ok saved.reread, after) := by
  rcases Option.map_eq_some_iff.mp hSaved with
    ⟨⟨key, workspace, entered⟩, hEntry, hMade⟩
  have hPut :
      entered.put key (registered package gistId workspace) =
        saved :=
    hMade
  have hWorkspace :
      (workspaceEntry settings root).perform outside session =
        (.ok (key, workspace, entered), session) := by
    rw [perform_workspaceEntry, hEntry]
    rfl
  have hLoaded := hLoad
  rw [perform_load, Prod.mk.injEq] at hLoaded
  rcases exists_perform_save saved hNames hLoaded.1 with
    ⟨after, hSave⟩
  refine ⟨after, ?_⟩
  rw [registerGist, perform_bind_of_ok _ hLoad,
    perform_bind_of_ok _ hWorkspace]
  dsimp only
  rw [hPut, perform_bind_of_ok _ hSave, perform_load,
    loadedAt_of_save hReread hSave]

/-
  A gist that is registered is found: the settings that are
  saved are loaded again with the same entries, but for the
  gist of the package in the entry of the workspace, which is
  a new entry if there was none.
-/
theorem registered_gist_is_found
    (outside : Outside ω)
    (session : Session ω)
    (path root : Path)
    (package gistId : Text)
    {settings : Settings}
    (hNames : path.names ≠ [])
    (hRoot : root.IsProper)
    (hRootAnchor : root.anchor = .root)
    (hRootText : root.text.toText?.isSome = true)
    (hHome : outside.home.IsProper)
    (hHomeAnchor : outside.home.anchor = .root)
    (hLoad :
      (Settings.load path).perform outside session =
        (.ok settings, session))
    (hReread :
      ∀ saved,
        settings.withGist? root outside.home package gistId =
            some saved →
          saved.IsReread) :
    ∃ found after,
      (registerGist path root package gistId).perform outside
          session =
        (.ok found, after) ∧
      Registers root outside.home package gistId settings
        found ∧
      found.workspace? root outside.home =
        some
          (registered package gistId
            ((settings.workspace? root outside.home).getD
              .empty)) ∧
      (∀ other ≠ package,
        found.gist? root outside.home other =
          settings.gist? root outside.home other) ∧
      (∀ other ≠ root,
        found.workspace? other outside.home =
          settings.workspace? other outside.home) ∧
      ((settings.workspaces.map Prod.fst).Nodup →
        (found.workspaces.map Prod.fst).Nodup) ∧
      (gistIdOf found root package).perform outside after =
        (.ok gistId, after) := by
  rcases exists_withWorkspace? settings outside.home hRootText
    with ⟨⟨key, workspace, entered⟩, hEntry⟩
  have hSaved :
      settings.withGist? root outside.home package gistId =
        some
          (entered.put key
            (registered package gistId workspace)) := by
    rw [withGist?, hEntry]
    rfl
  rcases
      perform_registerGist hNames hLoad hSaved
        (hReread _ hSaved) with
    ⟨after, hRun⟩
  have hRegisters :=
    registers_withGist? hRoot hHome hRootAnchor hHomeAnchor
      hSaved
  rcases hRegisters.workspaces with ⟨old, hSets⟩
  have hFound := hSets.workspace?_eq
  rw [← hSets.old_eq] at hFound
  exact
    ⟨_, after, hRun, hRegisters, hFound,
      fun other hOther => gist?_of_ne hFound hOther,
      fun other hOther => hSets.workspace?_of_ne hOther,
      hSets.nodup_keys,
      perform_gistIdOf after (gist?_of_registered hFound)⟩

/- Settings of a user in a home directory. -/
def settingsFile : Path :=
  Path.ofText ("/home/settings.toml" : String)

/- A session with settings for two workspaces. -/
def withSettings : Session Unit :=
  .start
    ⟨[(["home"], .directory),
      (["home", "settings.toml"],
        .file
          (.text
            ("default = \"~/one\"\n\n" ++
                "[workspaces.\"/home/one\".gist_ids]\n" ++
                "p = \"1\"\n\n" ++
                "[workspaces.\"~/two\"]\n\n" ++
                "[template]\nsrc = \x7b a = \"\" \x7d\n" ++
                "\"Cargo.toml\" = \"\"\n" :
              String).toList))]⟩
    ()

/- The settings of that user. -/
def twoWorkspaces : Settings :=
  { default := some ("~/one" : String).toList
    token := none
    workspaces :=
      [(("/home/one" : String).toList,
          { templatePackage := none
            gistIds := [(['p'], ['1'])] }),
        (("~/two" : String).toList, .empty)]
    template :=
      [(("src" : String).toList,
          .table [(['a'], .string [])]),
        (("Cargo.toml" : String).toList, .string [])] }

/- A gist for a package of the second workspace is found. -/
theorem registered_gist_is_found_two :
    (Settings.load settingsFile).perform surroundings
          withSettings =
        (.ok twoWorkspaces, withSettings) ∧
      ∃ found after,
        (registerGist settingsFile
              (Path.ofText ("/home/two" : String)) ['q']
              ['2']).perform
            surroundings withSettings =
          (.ok found, after) ∧
        found.default = twoWorkspaces.default ∧
        found.workspace? (Path.ofText ("/home/two" : String))
            surroundings.home =
          some
            { templatePackage := none
              gistIds := [(['q'], ['2'])] } ∧
        found.workspace? (Path.ofText ("/home/one" : String))
            surroundings.home =
          some
            { templatePackage := none
              gistIds := [(['p'], ['1'])] } := by
  have hLoad :
      (Settings.load settingsFile).perform surroundings
          withSettings =
        (.ok twoWorkspaces, withSettings) := by
    have hAt :
        loadedAt surroundings.directory.names
            withSettings.tree settingsFile =
          .ok twoWorkspaces := by
      decide +kernel
    rw [perform_load, hAt]
  have hReread :
      ∀ saved,
        twoWorkspaces.withGist?
              (Path.ofText ("/home/two" : String))
              surroundings.home ['q'] ['2'] =
            some saved →
          saved.IsReread := by
    intro saved hSaved
    have hAll :
        ∀ saved ∈
          (twoWorkspaces.withGist?
            (Path.ofText ("/home/two" : String))
            surroundings.home ['q'] ['2']).toList,
          saved.IsReread := by
      decide +kernel
    exact hAll saved (Option.mem_toList.mpr hSaved)
  have hNames : settingsFile.names ≠ [] := by
    decide
  have hRoot :=
    Path.isProper_ofText ("/home/two" : String)
  have hRootAnchor :
      (Path.ofText ("/home/two" : String)).anchor = .root := by
    decide
  have hRootText :
      (Path.ofText
          ("/home/two" : String)).text.toText?.isSome =
        true := by
    decide
  have hHome : surroundings.home.IsProper :=
    Path.isProper_ofText _
  have hHomeAnchor : surroundings.home.anchor = .root := by
    decide
  rcases
      registered_gist_is_found surroundings withSettings
        settingsFile (Path.ofText ("/home/two" : String))
        ['q'] ['2'] hNames hRoot hRootAnchor hRootText hHome
        hHomeAnchor hLoad hReread with
    ⟨found, after, hRun, hRegisters, hFound, _, hOthers, _,
      _⟩
  have hOther :
      Path.ofText ("/home/one" : String) ≠
        Path.ofText ("/home/two" : String) := by
    decide +kernel
  refine
    ⟨hLoad, found, after, hRun, hRegisters.default, ?_, ?_⟩
  · rw [hFound]
    decide +kernel
  · rw [hOthers _ hOther]
    decide +kernel

end CommandLine

end ScriptWorkspace
