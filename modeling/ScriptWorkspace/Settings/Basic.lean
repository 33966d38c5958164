import ScriptWorkspace.Path.Home
import ScriptWorkspace.Toml.Value

/-
  Settings.

  The settings name a default workspace and the file of the
  token for the store of gists. For each workspace they keep
  a template package and which gist each package has. The
  template for new packages is a table of files.

  Key definitions include:
    * `TokenFile`
    * `WorkspaceSettings`
    * `Settings`
    * `Settings.ofToml?`
    * `Settings.toToml`
    * `Settings.workspace?`
    * `Settings.withWorkspace`
-/

namespace ScriptWorkspace

------------------------------------------------------------
-- Types
------------------------------------------------------------

/- Which gist a package has. -/
abbrev GistIds := List (Text × Text)

/- The file that holds a token. -/
structure TokenFile where
  path : Text
deriving DecidableEq, Repr

/- What is set for a workspace. -/
structure WorkspaceSettings where
  templatePackage : Option Text
  gistIds : GistIds
deriving DecidableEq, Repr

/- Nothing is set for a workspace. -/
def WorkspaceSettings.empty : WorkspaceSettings :=
  { templatePackage := none, gistIds := [] }

/- All that is set. -/
structure Settings where
  default : Option Text
  token : Option TokenFile
  workspaces : List (Text × WorkspaceSettings)
  template : Toml.Table
deriving Repr

/- Nothing is set. -/
def Settings.empty : Settings :=
  { default := none, token := none, workspaces := []
    template := [] }

/- The ids with another one for a package. -/
def GistIds.put
    (package gistId : Text) :
    GistIds → GistIds
  | [] => [(package, gistId)]
  | (name, old) :: gistIds =>
    if name = package then (name, gistId) :: gistIds
    else (name, old) :: put package gistId gistIds

/- The id for a package. -/
def GistIds.find?
    (package : Text)
    (gistIds : GistIds) : Option Text :=
  gistIds.lookup package

------------------------------------------------------------
-- Reading
------------------------------------------------------------

/- A member that may be missing, of a shape. -/
def member?
    {α : Type}
    (key : Text)
    (shape : Toml → Option α)
    (members : Toml.Table) : Option (Option α) :=
  match Toml.find? key members with
  | none => some none
  | some value => (shape value).map some

/- The members of a table, all with values of one shape. -/
def membersOf?
    {α : Type}
    (shape : Toml → Option α)
    (value : Toml) : Option (List (Text × α)) := do
  (← value.table?).mapM fun (key, value) => do
    return (key, ← shape value)

/- The word for a file that holds a token. -/
def fileKind : Text := "file"

/- The file of a token. -/
def TokenFile.ofToml? (value : Toml) : Option TokenFile := do
  let members ← value.table?
  let kind ← member? "kind" Toml.text? members
  if kind.getD fileKind ≠ fileKind then
    none
  let path ← (Toml.find? "path" members).bind Toml.text?
  return { path }

/- What is set for a workspace. -/
def WorkspaceSettings.ofToml?
    (value : Toml) : Option WorkspaceSettings := do
  let members ← value.table?
  let templatePackage ←
    member? "template_package" Toml.text? members
  let gistIds ←
    member? "gist_ids" (membersOf? Toml.text?) members
  return { templatePackage, gistIds := gistIds.getD [] }

/- The settings in a table. -/
def Settings.ofToml? (members : Toml.Table) :
    Option Settings := do
  let default ← member? "default" Toml.text? members
  let token ←
    member? "github_token" TokenFile.ofToml? members
  let workspaces ←
    member? "workspaces"
      (membersOf? WorkspaceSettings.ofToml?) members
  let template ← member? "template" Toml.table? members
  return { default, token
           workspaces := workspaces.getD []
           template := template.getD [] }

------------------------------------------------------------
-- Writing
------------------------------------------------------------

/- The member for a text that may not be set. -/
def textMember
    (key : Text)
    (value : Option Text) : Toml.Table :=
  match value with
  | some text => [(key, .string text)]
  | none => []

/- The member for a table. -/
def tableMember
    (key : Text)
    (members : Toml.Table) : Toml.Table :=
  [(key, .table members)]

/- The table of the file of a token. -/
def TokenFile.toToml (token : TokenFile) : Toml.Table :=
  [("kind", .string fileKind), ("path", .string token.path)]

/- The table of what is set for a workspace. -/
def WorkspaceSettings.toToml
    (workspace : WorkspaceSettings) : Toml :=
  let gistIds :=
    workspace.gistIds.map fun (name, gistId) =>
      (name, Toml.string gistId)
  .table
    (textMember "template_package" workspace.templatePackage ++
      tableMember "gist_ids" gistIds)

/- The table of the settings. -/
def Settings.toToml (settings : Settings) : Toml.Table :=
  let token : Toml.Table :=
    match settings.token with
    | some token => tableMember "github_token" token.toToml
    | none => []
  let workspaces :=
    settings.workspaces.map fun (key, workspace) =>
      (key, workspace.toToml)
  textMember "default" settings.default ++ token ++
    tableMember "workspaces" workspaces ++
    tableMember "template" settings.template

------------------------------------------------------------
-- Workspaces
------------------------------------------------------------

namespace Settings

/- The key of the workspace at a root, and what is set. -/
def entry?
    (settings : Settings)
    (root home : Path) : Option (Text × WorkspaceSettings) :=
  settings.workspaces.find? fun (key, _) =>
    Path.expand key home == root

/- What is set for the workspace at a root. -/
def workspace?
    (settings : Settings)
    (root home : Path) : Option WorkspaceSettings :=
  (settings.entry? root home).map Prod.snd

/- Workspaces with something set for one key. -/
def putWorkspace
    (key : Text)
    (workspace : WorkspaceSettings) :
    List (Text × WorkspaceSettings) →
    List (Text × WorkspaceSettings)
  | [] => [(key, workspace)]
  | (name, old) :: workspaces =>
    if name = key then (name, workspace) :: workspaces
    else (name, old) :: putWorkspace key workspace workspaces

/- The settings with something set for one key. -/
def put
    (key : Text)
    (workspace : WorkspaceSettings)
    (settings : Settings) : Settings :=
  { settings with
    workspaces :=
      putWorkspace key workspace settings.workspaces }

/-
  The key of the workspace at a root, what is set for it, and
  the settings with it. A path that is no text cannot be one.
-/
def withWorkspace?
    (settings : Settings)
    (root home : Path) :
    Option (Text × WorkspaceSettings × Settings) :=
  match settings.entry? root home with
  | some (key, workspace) => some (key, workspace, settings)
  | none => do
    let key ← root.compress? home
    let workspace := WorkspaceSettings.empty
    return (key, workspace, settings.put key workspace)

end Settings

end ScriptWorkspace
