import ScriptWorkspace.Proofs.Session.Writing
import ScriptWorkspace.Proofs.Toml.Arrangement
import ScriptWorkspace.Proofs.Toml.Equality
import ScriptWorkspace.Settings.Store

/-
  Settings that are kept and read again.

  The settings in the table of settings are those settings,
  and all tables that they are made of keep their order, but
  for the template. So settings that were saved are found
  again where they were saved, if what is written for their
  table is read as that table.

  Main declarations:
    * `Settings.IsReread`
    * `Settings.reread`
    * `Settings.arranged_toToml`
    * `Settings.ofToml?_toToml`
    * `Settings.perform_load`
    * `Settings.loadedAt_of_save`
    * `Settings.exists_perform_save`
-/

namespace ScriptWorkspace

open ScriptWorkspace.Action Files Storage Storage.Calls

variable {ω : Type}
variable {outside : Outside ω}

------------------------------------------------------------
-- Tables Of Settings
------------------------------------------------------------

/- Members that were made of entries are those entries. -/
theorem membersOf?_table_map
    {α : Type}
    {shape : Toml → Option α}
    (make : α → Toml)
    (hShape : ∀ entry, shape (make entry) = some entry)
    (entries : List (Text × α)) :
    membersOf? shape
        (.table
          (entries.map fun entry =>
            (entry.1, make entry.2))) =
      some entries := by
  simp only [membersOf?, Toml.table?, Option.bind_eq_bind,
    Option.bind_some]
  induction entries with
  | nil => rfl
  | cons entry entries ih =>
      rw [List.map_cons, List.mapM_cons, hShape, ih]
      rfl

/- A text stays in front of the tables. -/
theorem arranged_textMember
    (key : Text)
    (value : Option Text) :
    Toml.arranged (textMember key value) =
      textMember key value := by
  cases value <;> rfl

theorem isSpread_of_mem_tableMember
    {key : Text}
    {members : Toml.Table}
    {member : Text × Toml}
    (hMem : member ∈ tableMember key members) :
    Toml.isSpread member.2 = true := by
  cases List.mem_singleton.mp hMem
  rfl

theorem arranged_append_tableMember
    (front : Toml.Table)
    (key : Text)
    (members : Toml.Table) :
    Toml.arranged (front ++ tableMember key members) =
      Toml.arranged front ++
        tableMember key (Toml.arranged members) :=
  Toml.arranged_append_tables fun _ hMem =>
    isSpread_of_mem_tableMember hMem

namespace WorkspaceSettings

/- The table of the gists of a workspace. -/
def gistTable (workspace : WorkspaceSettings) : Toml.Table :=
  workspace.gistIds.map fun entry =>
    (entry.1, Toml.string entry.2)

/- The members of the table of a workspace. -/
def members (workspace : WorkspaceSettings) : Toml.Table :=
  textMember "template_package" workspace.templatePackage ++
    tableMember "gist_ids" workspace.gistTable

theorem toToml_eq (workspace : WorkspaceSettings) :
    workspace.toToml = .table workspace.members :=
  rfl

theorem ofToml?_toToml (workspace : WorkspaceSettings) :
    ofToml? workspace.toToml = some workspace := by
  have hGistIds :
      membersOf? Toml.text? (.table workspace.gistTable) =
        some workspace.gistIds :=
    membersOf?_table_map Toml.string (fun _ => rfl) _
  rcases workspace with ⟨templatePackage, gistIds⟩
  cases templatePackage <;>
    simp [toToml_eq, ofToml?, members, textMember,
      tableMember, member?, Toml.table?, Toml.find?,
      Toml.text?, hGistIds, List.lookup_cons]

theorem arranged_members (workspace : WorkspaceSettings) :
    Toml.arranged workspace.members = workspace.members := by
  have hGistTable :
      Toml.arranged workspace.gistTable =
        workspace.gistTable := by
    refine Toml.arranged_of_plain fun member hMem => ?_
    rcases List.mem_map.mp hMem with ⟨_, _, rfl⟩
    rfl
  rw [members, arranged_append_tableMember,
    arranged_textMember, hGistTable]

end WorkspaceSettings

namespace TokenFile

theorem ofToml?_toToml (token : TokenFile) :
    ofToml? (.table token.toToml) = some token := by
  rcases token with ⟨path⟩
  rfl

theorem arranged_toToml (token : TokenFile) :
    Toml.arranged token.toToml = token.toToml :=
  rfl

end TokenFile

deriving instance DecidableEq for Settings

namespace Settings

/- The table of the settings is read as it was written. -/
def IsReread (settings : Settings) : Prop :=
  Toml.parse (Toml.render settings.toToml) =
    .ok (Toml.arranged settings.toToml)

instance (settings : Settings) : Decidable settings.IsReread :=
  inferInstanceAs
    (Decidable
      (Toml.parse (Toml.render settings.toToml) =
        .ok (Toml.arranged settings.toToml)))

/- The settings with the template in the order of a file. -/
def reread (settings : Settings) : Settings :=
  { settings with
    template := Toml.arranged settings.template }

/- The member for a token that may not be set. -/
def tokenMember (token : Option TokenFile) : Toml.Table :=
  match token with
  | some token => tableMember "github_token" token.toToml
  | none => []

/- The table of the workspaces. -/
def workspaceTable (settings : Settings) : Toml.Table :=
  settings.workspaces.map fun entry =>
    (entry.1, entry.2.toToml)

theorem toToml_eq (settings : Settings) :
    settings.toToml =
      textMember "default" settings.default ++
          tokenMember settings.token ++
          tableMember "workspaces" settings.workspaceTable ++
        tableMember "template" settings.template :=
  rfl

/- All tables but the template are kept as they are. -/
theorem arranged_toToml (settings : Settings) :
    Toml.arranged settings.toToml =
      settings.reread.toToml := by
  have hToken :
      Toml.arranged
          (textMember "default" settings.default ++
            tokenMember settings.token) =
        textMember "default" settings.default ++
          tokenMember settings.token := by
    cases settings.token with
    | none =>
        rw [tokenMember, List.append_nil, arranged_textMember]
    | some token =>
        rw [tokenMember, arranged_append_tableMember,
          arranged_textMember, token.arranged_toToml]
  have hWorkspaces :
      Toml.arranged settings.workspaceTable =
        settings.workspaceTable := by
    have hTables :=
      Toml.arranged_of_tables settings.workspaces
        WorkspaceSettings.members
    simp only [WorkspaceSettings.arranged_members] at hTables
    exact hTables
  rw [toToml_eq, arranged_append_tableMember,
    arranged_append_tableMember, hToken, hWorkspaces]
  rfl

/- Settings are found in the table that is made of them. -/
theorem ofToml?_toToml (settings : Settings) :
    ofToml? settings.toToml = some settings := by
  have hWorkspaces :
      membersOf? WorkspaceSettings.ofToml?
          (.table settings.workspaceTable) =
        some settings.workspaces :=
    membersOf?_table_map WorkspaceSettings.toToml
      WorkspaceSettings.ofToml?_toToml _
  rcases settings with
    ⟨default, token, workspaces, template⟩
  cases default <;> cases token <;>
    simp [toToml_eq, ofToml?, tokenMember, textMember,
      tableMember, member?, Toml.table?, Toml.find?,
      Toml.text?, hWorkspaces, List.lookup_cons,
      TokenFile.ofToml?_toToml]

/- Settings that are read are the ones that were written. -/
theorem parse_of_isReread
    {settings : Settings}
    (path : Path)
    (hReread : settings.IsReread) :
    parse path (Toml.render settings.toToml) =
      .ok settings.reread := by
  rw [IsReread] at hReread
  simp only [parse, hReread, arranged_toToml,
    ofToml?_toToml]

------------------------------------------------------------
-- Loading And Saving
------------------------------------------------------------

/- The settings in a file of a tree. -/
def loadedAt
    (place : Location)
    (tree : Tree)
    (path : Path) : Except Failure Settings :=
  if isUsable path then
    match readFile tree place path with
    | .error fault =>
      .error (.settings (.unreadable path fault))
    | .ok content =>
      match content.toText with
      | .error fault => .error (.unexpected (.encoding fault))
      | .ok text => parse path text
  else
    .error (.unexpected .pathWithNull)

/- Loading gives what the tree has and changes nothing. -/
theorem perform_load
    (outside : Outside ω)
    (session : Session ω)
    (path : Path) :
    (load path).perform outside session =
      (loadedAt outside.directory.names session.tree path,
        session) := by
  rw [load, perform_bind, perform_requireUsable, loadedAt]
  cases isUsable path with
  | false => rfl
  | true =>
      change
        (match
          readFile session.tree outside.directory.names path
          with
        | .error fault => _
        | .ok content => _ : Action ω _).perform outside
            session =
          _
      cases
        readFile session.tree outside.directory.names path
        with
      | error fault => rfl
      | ok content =>
          cases content with
          | binary bytes fault => rfl
          | text text =>
              change
                (Action.ofExcept (parse path text)).perform
                    outside session =
                  (parse path text, session)
              cases parse path text <;> rfl

theorem loadedAt_eq_ok_iff
    {place : Location}
    {tree : Tree}
    {path : Path}
    {settings : Settings} :
    loadedAt place tree path = .ok settings ↔
      ∃ text,
        textAt place tree path = .ok text ∧
          parse path text = .ok settings := by
  unfold loadedAt textAt
  cases isUsable path with
  | false => simp
  | true =>
      cases readFile tree place path with
      | error fault => simp
      | ok content => cases content <;> simp [Content.toText]

/- Settings that were saved are in their file. -/
theorem loadedAt_of_save
    {settings : Settings}
    {path : Path}
    {session after : Session ω}
    (hReread : settings.IsReread)
    (hSave :
      (save settings path false).perform outside session =
        (.ok (), after)) :
    loadedAt outside.directory.names after.tree path =
      .ok settings.reread := by
  rcases exists_of_perform_bind hSave with
    ⟨_, between, _, hWrite⟩
  exact
    loadedAt_eq_ok_iff.mpr
      ⟨_, textAt_of_write hWrite,
        parse_of_isReread path hReread⟩

/- What was loaded can be saved at the same place. -/
theorem exists_perform_save
    {loaded : Settings}
    {path : Path}
    {session : Session ω}
    (settings : Settings)
    (hNames : path.names ≠ [])
    (hLoaded :
      loadedAt outside.directory.names session.tree path =
        .ok loaded) :
    ∃ after,
      (save settings path false).perform outside session =
        (.ok (), after) := by
  rcases loadedAt_eq_ok_iff.mp hLoaded with ⟨_, hText, _⟩
  rcases textAt_eq_ok_iff.mp hText with
    ⟨hUsable, location, hResolved, hFound⟩
  have hFree :
      session.tree.find? location ≠ some .directory := by
    simp [hFound]
  have hMade :=
    perform_makeDirectories_of_directory
      (isUsable_parent hUsable)
      (isDirectory_parent hNames hResolved)
  rw [save, perform_bind_of_ok _ hMade]
  exact ⟨_, perform_write _ hUsable hResolved hFree⟩

end Settings

end ScriptWorkspace
