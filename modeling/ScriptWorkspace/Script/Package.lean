import ScriptWorkspace.Script.Manifest

/-
  Scripts and packages.

  A package keeps its manifest in a file of its own, and a
  placeholder stands in its source where the manifest of the
  script was. Splitting a script gives the two files, and
  embedding the manifest gives the script.

  Key definitions include:
    * `placeholder`
    * `PackageFiles`
    * `split`
    * `embed`
-/

namespace ScriptWorkspace

namespace Script

/- What stands in a source in the place of a manifest. -/
def placeholder : Text := "# Leave blank."

/- The two files of a package that has one binary. -/
structure PackageFiles where
  manifest : Text
  source : Text
deriving DecidableEq, Repr

/- The script with the placeholder, and its manifest. -/
def withPlaceholder
    (script : Text) :
    Except ScriptFault (Text × Text) :=
  replace script placeholder

/- The files of the package that a script makes. -/
def split
    (script : Text) : Except ScriptFault PackageFiles := do
  let (source, manifest) ← withPlaceholder script
  return { manifest, source }

/- The script that a source and a manifest make. -/
def embed
    (source manifest : Text) : Except ScriptFault Text := do
  let (script, _) ← replace source manifest
  return script

end Script

end ScriptWorkspace
