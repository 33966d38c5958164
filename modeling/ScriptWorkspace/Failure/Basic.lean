import ScriptWorkspace.Failure.Reason
import ScriptWorkspace.Script.Manifest
import ScriptWorkspace.Toml.Scalar

/-
  Failures of the operations on scripts and workspaces.

  A failure is the cause that an operation names, sorted by
  what it concerns: a script, a manifest, files, the build
  tool, the settings, the packages, the workspace or a gist.
  It has one wording and a chain of reasons. A last group has
  no wording, because no operation expects it.

  Key definitions include:
    * `ManifestFault`
    * `FileFault`
    * `CargoFault`
    * `SettingsFault`
    * `PackageFault`
    * `WorkspaceFault`
    * `GistFault`
    * `UnexpectedFault`
    * `Failure`
    * `Failure.message`
    * `Failure.reasons`
-/

namespace ScriptWorkspace

------------------------------------------------------------
-- Wording
------------------------------------------------------------

/- A wording put together from its parts. -/
def wording (parts : List OsText) : OsText :=
  parts.flatten

/- The reasons why a text is no TOML document. -/
def tomlReasons : Toml.Fault → List Reason
  | .calendar => [.notToml, .noSuchDate]
  | _ => [.notToml]

------------------------------------------------------------
-- Manifests
------------------------------------------------------------

/- A fault of a manifest. -/
inductive ManifestFault
  | notToml (fault : Toml.Fault)
  | notTomlAt (path : Path) (fault : Toml.Fault)
  | notEditable (path : Path) (reasons : List Reason)
  | templateNotEditable (reasons : List Reason)
  | noPackageName
  | packageNameNotText
  | workspaceNotTable
  | listNotArray (name : Text)
deriving DecidableEq, Repr

/- The wording for a fault of a manifest. -/
def ManifestFault.message : ManifestFault → OsText
  | .notToml _ => "failed to parse the manifest"
  | .notTomlAt path _ =>
    wording ["failed to parse the TOML file at ", path.text]
  | .notEditable path _ =>
    wording ["failed to parse ", path.text]
  | .templateNotEditable _ =>
    "failed to parse `template.\"Cargo.toml\"`"
  | .noPackageName => "`package.name` is missing"
  | .packageNameNotText => "`package.name` must be a string"
  | .workspaceNotTable => "`workspace` must be a table"
  | .listNotArray name =>
    wording ["`workspace.", name, "` must be an array"]

/- The reasons for a fault of a manifest. -/
def ManifestFault.reasons : ManifestFault → List Reason
  | .notToml fault => tomlReasons fault
  | .notTomlAt _ fault => tomlReasons fault
  | .notEditable _ reasons => reasons
  | .templateNotEditable reasons => reasons
  | _ => []

------------------------------------------------------------
-- Files
------------------------------------------------------------

/- An operation on files that failed. -/
inductive FileFault
  | encoding (path : Path) (fault : Utf8.Fault)
  | read (path : Path) (fault : Storage.StorageFault)
  | notToml (path : Path) (reasons : List Reason)
  | write (path : Path) (fault : Storage.StorageFault)
  | stage (count : Nat) (fault : Storage.StorageFault)
  | copy
      (source target : Path)
      (fault : Storage.StorageFault)
  | makeDirectory
      (path : Path)
      (faults : List Storage.StorageFault)
  | remove (path : Path) (fault : Storage.StorageFault)
deriving DecidableEq, Repr

/- The wording for an operation on files that failed. -/
def FileFault.message : FileFault → OsText
  | .encoding path _ =>
    wording [path.text, " is not valid UTF-8"]
  | .read path _ => wording ["failed to read ", path.text]
  | .notToml path _ =>
    wording ["failed to parse the TOML file at ", path.text]
  | .write path _ => wording ["failed to write ", path.text]
  | .stage count _ =>
    wording
      ["failed to stage ", Text.ofNat count,
        " file(s) for writing"]
  | .copy source target _ =>
    wording
      ["failed to copy `", source.text, "` to `",
        target.text, "`"]
  | .makeDirectory path _ =>
    wording ["failed to create directory `", path.text, "`"]
  | .remove path _ =>
    wording ["failed to remove `", path.text, "`"]

/- The reasons why an operation on files failed. -/
def FileFault.reasons : FileFault → List Reason
  | .encoding _ fault => [.encoding fault]
  | .read _ fault => [.system fault]
  | .notToml _ reasons => reasons
  | .write _ fault => [.system fault]
  | .stage _ fault => [.system fault]
  | .copy _ _ fault => [.system fault]
  | .makeDirectory _ faults => faults.map .system
  | .remove _ fault => [.system fault]

------------------------------------------------------------
-- The Build Tool
------------------------------------------------------------

/- A call of the build tool that failed. -/
inductive CargoFault
  | commandNotFound (program : OsText)
  | timeout (command : List OsText) (seconds : Int)
  | metadataExit (code : Int) (output : Text)
  | metadataShape
  | exit (command : OsText) (code : Int)
deriving DecidableEq, Repr

/- The wording for a failed call of the build tool. -/
def CargoFault.message : CargoFault → OsText
  | .commandNotFound program =>
    wording ["Command not found: ", program]
  | .timeout _ seconds =>
    wording
      ["`cargo metadata` timed out after ",
        Text.ofInt seconds, " seconds"]
  | .metadataExit code output =>
    wording
      ["`cargo metadata` exited with ", Text.ofInt code,
        ": ", output]
  | .metadataShape =>
    "could not parse the output of `cargo metadata`"
  | .exit command code =>
    wording
      ["`", command, "` exited with ", Text.ofInt code]

/- The reasons for a failed call of the build tool. -/
def CargoFault.reasons : CargoFault → List Reason
  | .timeout command seconds => [.timeout command seconds]
  | .metadataShape => [.wrongShape]
  | _ => []

------------------------------------------------------------
-- Settings
------------------------------------------------------------

/- A fault of the settings. -/
inductive SettingsFault
  | unreadable (path : Path) (fault : Storage.StorageFault)
  | malformed (path : Path) (reasons : List Reason)
  | templateEntry (path : Path)
  | templateManifestMissing
  | templateManifestNotText
  | tokenMissing (path : Path)
  | gistIdMissing (package : Text)
  | workspaceMissing (path : Path)
deriving DecidableEq, Repr

/- The wording for a fault of the settings. -/
def SettingsFault.message : SettingsFault → OsText
  | .unreadable path _ =>
    wording ["failed to read ", path.text]
  | .malformed path _ =>
    wording ["failed to parse the TOML file at ", path.text]
  | .templateEntry path =>
    wording
      ["`template` entries must be strings or tables: ",
        path.text]
  | .templateManifestMissing =>
    "missing `template.\"Cargo.toml\"`"
  | .templateManifestNotText =>
    "expected string: `template.\"Cargo.toml\"`"
  | .tokenMissing path =>
    wording ["missing `github_token`: ", path.text]
  | .gistIdMissing package =>
    wording
      ["could not find the `gist_id` for ", package.quoted]
  | .workspaceMissing path =>
    wording
      ["`default` or `--manifest-path` is required: ",
        path.text]

/- The reasons for a fault of the settings. -/
def SettingsFault.reasons : SettingsFault → List Reason
  | .unreadable _ fault => [.system fault]
  | .malformed _ reasons => reasons
  | _ => []

------------------------------------------------------------
-- Packages And Workspaces
------------------------------------------------------------

/- A package or binary that is not to be found. -/
inductive PackageFault
  | unknown (name : Text)
  | noBinary (package : Text)
  | manyBinaries (package : Text)
deriving DecidableEq, Repr

/- The wording for a package that is not to be found. -/
def PackageFault.message : PackageFault → OsText
  | .unknown name =>
    wording ["no such package: ", name.quoted]
  | .noBinary package =>
    wording ["no `bin` targets found in ", package.quoted]
  | .manyBinaries package =>
    wording
      ["could not determine which `bin` target of ",
        package.quoted, " to use"]

/- A workspace that cannot be used as it is. -/
inductive WorkspaceFault
  | packageAtRoot
  | notVirtual (manifest : Path)
  | directoryExists (path : Path)
  | noNameFrom (path : Path)
  | notManifestPath
deriving DecidableEq, Repr

/- The wording for a workspace that cannot be used. -/
def WorkspaceFault.message : WorkspaceFault → OsText
  | .packageAtRoot =>
    "the target package must be a virtual manifest"
  | .notVirtual manifest =>
    wording
      ["the target manifest must be a virtual one: ",
        manifest.text]
  | .directoryExists path => wording [path.text, " exists"]
  | .noNameFrom path =>
    wording
      ["could not derive a package name from ", path.text]
  | .notManifestPath =>
    "the manifest-path must be a path to a Cargo.toml file"

------------------------------------------------------------
-- Gists
------------------------------------------------------------

/- A request to the store of gists that failed. -/
inductive GistFault
  | transport (method url kind : Text)
  | status (method url : Text) (expected actual : Nat)
  | notJson (method url : Text)
  | gistShape (gistId : Text)
  | createdShape
  | noRustFile (gistId : Text)
  | manyRustFiles (gistId : Text) (names : List Text)
  | truncated (filename : Text)
  | noUpstream
deriving DecidableEq, Repr

/- The wording for a failed request. -/
def GistFault.message : GistFault → OsText
  | .transport method url _ =>
    wording [method, " ", url, " failed"]
  | .status method url expected actual =>
    wording
      [method, " ", url, ": expected ",
        Text.ofNat expected, ", got ", Text.ofNat actual]
  | .notJson method url =>
    wording
      [method, " ", url, ": response is not valid JSON"]
  | .gistShape gistId =>
    wording ["unexpected response for gist ", gistId]
  | .createdShape =>
    "unexpected response for a created gist"
  | .noRustFile gistId =>
    wording ["no Rust files found in gist ", gistId]
  | .manyRustFiles gistId names =>
    wording
      ["multiple Rust files in gist ", gistId, ": [",
        Text.joinWith [',', ' '] names, "]"]
  | .truncated filename =>
    wording [filename, " is truncated"]
  | .noUpstream =>
    "to create a new gist, enable `--set-upstream`"

/- The reasons why a request failed. -/
def GistFault.reasons : GistFault → List Reason
  | .transport _ _ kind => [.transport kind]
  | .notJson _ _ => [.notJson]
  | .gistShape _ => [.wrongShape]
  | .createdShape => [.wrongShape]
  | _ => []

------------------------------------------------------------
-- Failures
------------------------------------------------------------

/- What no operation expects, so that it has no wording. -/
inductive UnexpectedFault
  | pathWithNull
  | pathNotBelow
  | scriptBoundary
  | notATable
  | missingKey
  | repeatedKey
  | reopenedTable
  | encoding (fault : Utf8.Fault)
  | longNumeral
  | system (fault : Storage.StorageFault)
  | notText
  | invalidUrl
  | timedOut
  | aborted
deriving DecidableEq, Repr

/- A failed operation. -/
inductive Failure
  | header (fault : Script.HeaderFault)
  | noManifest (message : OsText)
  | manifest (fault : ManifestFault)
  | pathNotText (path : OsText)
  | file (fault : FileFault)
  | cargo (fault : CargoFault)
  | settings (fault : SettingsFault)
  | package (fault : PackageFault)
  | workspace (fault : WorkspaceFault)
  | gist (fault : GistFault)
  | unexpected (fault : UnexpectedFault)
deriving DecidableEq, Repr

/- The wording for a script that lacks its manifest. -/
def manifestMissing : OsText :=
  "could not find the `cargo` code block"

/- The failure that a fault of a script is. -/
def Failure.ofScript
    (missing : OsText) :
    Script.ScriptFault → Failure
  | .header fault => .header fault
  | .noManifest => .noManifest missing
  | _ => .unexpected .scriptBoundary

/- The wording for a failure, if it has one. -/
def Failure.message? : Failure → Option OsText
  | .header fault => some fault.message
  | .noManifest message => some message
  | .manifest fault => some fault.message
  | .pathNotText path =>
    some
      (wording [path.quoted, " is not a valid UTF-8 path"])
  | .file fault => some fault.message
  | .cargo fault => some fault.message
  | .settings fault => some fault.message
  | .package fault => some fault.message
  | .workspace fault => some fault.message
  | .gist fault => some fault.message
  | .unexpected _ => none

/- The reasons for a failure, the nearest one first. -/
def Failure.reasons : Failure → List Reason
  | .manifest fault => fault.reasons
  | .file fault => fault.reasons
  | .cargo fault => fault.reasons
  | .settings fault => fault.reasons
  | .gist fault => fault.reasons
  | _ => []

end ScriptWorkspace
