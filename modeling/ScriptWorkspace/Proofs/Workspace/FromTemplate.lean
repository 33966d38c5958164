import ScriptWorkspace.Proofs.Workspace.Copying

/-
  New packages from a template package.

  A new package has the files of its template and a manifest
  that differs from that of the template in the name only.
  Then it becomes a member of the workspace, whose manifest is
  all that is changed elsewhere. The manifest of the workspace
  may also be one of the files of the new package: then it is
  edited as any other one, after it was laid out.

  Main declarations:
    * `Membership.relativeToRoot_reached`
    * `Manifest.IsRenamed`
    * `Workspace.IsCopied`
    * `Workspace.package_is_copied_from_template`
-/

namespace ScriptWorkspace

open ScriptWorkspace.Action Storage Storage.Calls

variable {ω : Type}
variable {outside : Outside ω}
variable {session after : Session ω}

------------------------------------------------------------
-- Entries Of Members
------------------------------------------------------------

namespace Membership

variable {root path other : Path}

/- The entry for a path is the one for what it leads to. -/
theorem relativeToRoot_reached
    (root : Path)
    (hPath : path.IsProper) :
    relativeToRoot root (reached root path) =
      relativeToRoot root path := by
  have hEntry :
      ((reached root path).relativeTo? root).getD
          (reached root path) =
        (path.relativeTo? root).getD path := by
    unfold reached Path.join
    cases hBelow : path.relativeTo? root with
    | some entry =>
        rcases Path.isProper_of_relativeTo? hPath hBelow with
          ⟨hEntry, hRelative⟩
        rw [Option.getD_some, Path.ofText_text hEntry,
          Path.relativeTo?_append root hRelative]
        rfl
    | none =>
        rw [Option.getD_none, Path.ofText_text hPath]
        cases hAbsolute : path.isAbsolute with
        | false =>
            rw [Path.relativeTo?_append root hAbsolute]
            rfl
        | true =>
            rw [Path.append, if_pos hAbsolute, hBelow]
            rfl
  unfold relativeToRoot
  rw [hEntry]

/- A change depends on the entry for the path that is added. -/
theorem modify_addMember_congr
    (hSame :
      relativeToRoot root other = relativeToRoot root path)
    (dryRun : Bool) :
    (modify root (.addMember other) dryRun :
        Action ω Report) =
      modify root (.addMember path) dryRun := by
  have hOther (path : Path) :
      ({ ListChange.none with add := some path } :
          ListChange) ≠
        .none :=
    nofun
  unfold modify changeList
  simp only [Change.addMember, hOther, addTo, hSame]
  rfl

theorem leadsBack_addMember_reached
    (root : Path)
    (hPath : path.IsProper) :
    (Change.addMember (reached root path)).LeadsBack root := by
  refine Listing.forall_iff.mpr ⟨?_, nofun⟩
  rintro _ ⟨⟩ target hTarget
  rw [relativeToRoot_reached root hPath] at hTarget
  exact join_eq_reached hTarget

end Membership

------------------------------------------------------------
-- Names Of Packages
------------------------------------------------------------

namespace Manifest

open Toml.Layout
  (Document Target IsOrderly CanPut HasPutIn LeadsTo)

variable {document changed : Document}

/- The package has got a name, and all else is as it was. -/
def IsRenamed
    (name : OsText)
    (document renamed : Document) : Prop :=
  ∃ text : Text,
    (text : OsText) = name ∧
      renamed =
          Toml.Layout.setIn "package" "name" (stringCell text)
            document ∧
        HasPutIn "package" "name" (.string text) document
          renamed

/- What has a text for its value is a cell. -/
theorem exists_cell_of_text
    {target : Target}
    {text : Text}
    (hText : target.value?.bind Toml.text? = some text) :
    ∃ cell, target = .cell cell := by
  cases target with
  | cell cell => exact ⟨cell, rfl⟩
  | missing => cases hText
  | inline members => cases hText
  | body entries => cases hText
  | elements tables => cases hText

theorem leadsTo_of_packageTarget
    {package : Target}
    (hDocument : IsOrderly document)
    (hPackage : packageTarget document = .ok package) :
    package = .missing ∨
      LeadsTo "package" document package := by
  rcases Toml.bind_eq_ok_iff.mp hPackage with
    ⟨found, hFound, hRest⟩
  have hLookup := Membership.orClash_eq_ok_iff.mp hFound
  split at hRest
  case h_1 =>
    cases hRest
    exact .inl rfl
  case h_2 =>
    split at hRest
    case isFalse => cases hRest
    case isTrue hTable =>
      cases hRest
      right
      exact
        Toml.Layout.leadsTo_lookup hDocument hLookup hTable

/- A name is put where there was one. -/
theorem canPut_of_renamed
    {old name : Text}
    (hDocument : IsOrderly document)
    (hRenamed : renamed document name = .ok (old, changed)) :
    CanPut "package" "name" document ∧
      changed =
        Toml.Layout.setIn "package" "name" (stringCell name)
          document := by
  rcases Toml.bind_eq_ok_iff.mp hRenamed with
    ⟨package, hPackage, hRest⟩
  rcases Toml.bind_eq_ok_iff.mp hRest with
    ⟨found, hFound, hChanged⟩
  have hFind := Membership.orClash_eq_ok_iff.mp hFound
  split at hChanged
  case h_1 => cases hChanged
  case h_2 text hText =>
    cases hChanged
    have hCell := exists_cell_of_text hText
    rcases leadsTo_of_packageTarget hDocument hPackage with
      rfl | hTarget
    · cases hFind
      cases hText
    · exact ⟨hTarget.canPut hFind (.inr hCell), rfl⟩

theorem isRenamed_of_renamed
    {old name : Text}
    (hDocument : IsOrderly document)
    (hRenamed : renamed document name = .ok (old, changed)) :
    IsRenamed name document changed := by
  rcases canPut_of_renamed hDocument hRenamed with
    ⟨hCan, rfl⟩
  exact
    ⟨name, rfl, rfl,
      Toml.Layout.hasPutIn_setIn (stringCell name) hCan⟩

theorem isRenamed_of_renamePackage
    {name : OsText}
    (hDocument : IsOrderly document)
    (hRun :
      (renamePackage document name).perform outside session =
        (.ok (some changed), after)) :
    IsRenamed name document changed := by
  rcases exists_of_perform_bind hRun with
    ⟨⟨old, updated⟩, between, hRenamed, hRest⟩
  rcases exists_of_perform_bind hRest with
    ⟨_, later, _, hDone⟩
  cases hText : name.toText? with
  | none =>
      rw [hText] at hDone
      cases hDone
  | some text =>
      rw [hText] at hRenamed hDone
      cases hDone
      rw [← OsText.eq_of_toText? hText]
      exact
        isRenamed_of_renamed hDocument
          (eq_of_perform_ofExcept hRenamed).1

end Manifest

namespace Workspace

open ScriptWorkspace.Membership
open Toml.Layout (parse render Document isOrderly_parse)

variable {place : Location}
variable {tree other : Tree}
variable {root base directory : Path}

------------------------------------------------------------
-- Copied Packages
------------------------------------------------------------

/-
  The files below a directory are those that a template hands
  on, each with its content, and a manifest. Elsewhere there
  are new directories on the way to it at most. What is told
  of files is not told of those that are edited.
-/
structure IsCopied
    (place : Location)
    (base directory : Path)
    (manifest : Text)
    (isEdited : Location → Prop)
    (tree other : Tree) : Prop where
  files :
    ∀ names content,
      ¬ isEdited (spelledLocation place directory ++ names) →
        (other.find?
              (spelledLocation place directory ++ names) =
            some (.file content) ↔
          IsPart names ∧
                tree.find?
                    (spelledLocation place base ++ names) =
                  some (.file content) ∨
              names = [fileName] ∧
                content = .text manifest)
  changes :
    tree.ChangesWithin
      { packageRegion place directory with
        files := fun location =>
          (packageRegion place directory).files location ∨
            isEdited location }
      other

/- A manifest is put beside the copies. -/
theorem HasCopied.isCopied
    {between : Tree}
    (hMade :
      other.ChangesWithin (packageRegion place directory)
        between)
    (hGains : other.GainsDirectories between)
    (manifest : Text)
    (hCopied :
      HasCopied place base directory IsPart tree other) :
    IsCopied place base directory manifest (fun _ => False)
      tree
      (between.set (manifestLocation place directory)
        (.file (.text manifest))) where
  files names content _ := by
    rw [manifestLocation,
      find?_set_file_iff (List.cons_ne_nil _ _) hGains]
    split
    case isTrue hManifest =>
      subst hManifest
      have hNot : ¬ IsPart [fileName] :=
        fun hPart => hPart.manifest rfl
      simp [hNot, eq_comm]
    case isFalse hOther =>
      rw [hCopied.files]
      simp [hOther]
  changes := by
    refine
      Tree.ChangesWithin.mono (fun _ => .inl)
        ((hCopied.changes.trans hMade).trans ?_)
    exact
      Tree.changesWithin_set _
        (isBelow_append (List.cons_ne_nil _ _) _)

/- Then only files that are edited change. -/
theorem IsCopied.edited
    {manifest : Text}
    {laid : Tree}
    {isEdited : Location → Prop}
    (hCopied :
      IsCopied place base directory manifest
        (fun _ => False) tree laid)
    (hEdited :
      laid.ChangesWithin
        { files := isEdited, directories := fun _ => False }
        other) :
    IsCopied place base directory manifest isEdited tree
      other where
  files names content hNot := by
    rcases hEdited _ hNot with hSame | ⟨hMade, _⟩
    · rw [hSame]
      exact hCopied.files names content id
    · exact hMade.elim
  changes := by
    refine
      (hCopied.changes.mono ?_).trans
        (hEdited.widen ?_ fun _ => False.elim)
    · rintro location (hBelow | hNone)
      · exact .inl hBelow
      · exact hNone.elim
    · exact fun location => .inr

------------------------------------------------------------
-- Laying Out
------------------------------------------------------------

section LayingOut

variable
  (hSound : session.tree.IsSound)
variable
  (hNew :
    session.tree.find?
        (spelledLocation outside.directory.names directory) =
      none)
variable
  (hBase :
    isDirectory session.tree outside.directory.names base =
      true)

include hSound hNew hBase

/- The manifest of the template is not in the new package. -/
theorem not_isBelow_manifest :
    ¬ (packageRegion outside.directory.names directory).files
        (manifestLocation outside.directory.names base) := by
  intro hBelow
  rcases Tree.isBelow_iff.mp hBelow with
    ⟨names, hSome, hSame⟩
  have hAbove := congrArg List.dropLast hSame
  rw [manifestLocation, List.dropLast_concat,
    List.dropLast_append_of_ne_nil hSome] at hAbove
  have hMissing :=
    hSound.find?_append_eq_none hNew names.dropLast
  rw [← hAbove, (directory_of_isDirectory hBase).2]
    at hMissing
  cases hMissing

/- The files are copied, and the manifest is read as it was. -/
theorem hasCopied_of_layOut
    {template : Toml.Table}
    {document : Document}
    (hRun :
      (layOut template (some base) directory false).perform
          outside session =
        (.ok document, after)) :
    HasCopied outside.directory.names base directory IsPart
        session.tree after.tree ∧
      ∃ original,
        session.tree.find?
              (manifestLocation outside.directory.names
                base) =
            some (.file (.text original)) ∧
          parse original = .ok document := by
  rcases exists_of_perform_bind hRun with
    ⟨_, between, hCopies, hRead⟩
  have hCopied :=
    hasCopied_of_copyTemplate hSound hNew hBase hCopies
  rcases exists_of_perform_bind hRead with
    ⟨original, later, hText, hDocument⟩
  rcases eq_of_perform_ofExcept hDocument with
    ⟨hEditable, rfl⟩
  rw [Files.perform_read] at hText
  rcases Prod.mk.inj hText with ⟨hFile, rfl⟩
  refine ⟨hCopied, original, ?_, parse_of_editable hEditable⟩
  exact
    hCopied.changes.keepsFile
      (not_isBelow_manifest hSound hNew hBase) _
      (manifest_of_textAt hFile).2

end LayingOut

/- The manifest is put in the directory of the package. -/
theorem isCopied_of_write
    {start made : Session ω}
    {manifest : Text}
    (hCopied :
      HasCopied outside.directory.names base directory IsPart
        tree start.tree)
    (hMake :
      (Files.makeDirectories directory false).perform outside
          start =
        (.ok (), made))
    (hWrite :
      (Files.write (manifestIn directory) manifest
            false).perform
          outside made =
        (.ok (), after)) :
    IsCopied outside.directory.names base directory manifest
      (fun _ => False) tree after.tree := by
  have hAbove :
      ∀ n,
        (packageRegion outside.directory.names
            directory).directories
          (spelledLocation outside.directory.names
            (directory.upTo n)) :=
    fun n => .inl ⟨n, rfl⟩
  have hMade := Files.staysWithin_makeDirectories hAbove start
  unfold StaysFrom at hMade
  rw [hMake] at hMade
  have hGains := Files.gainsDirectories_of_makeDirectories hMake
  rcases Files.exists_set_of_write hWrite with
    ⟨_, location, hResolved, _, hSet⟩
  have hLocation := spelledLocation_of_resolve hResolved
  rw [spelledLocation_manifestIn] at hLocation
  rw [← hSet, hLocation]
  exact hCopied.isCopied hMade hGains manifest

/- The name is the one that is given, or that of the path. -/
theorem eq_of_nameFor
    {name : Option OsText}
    {found : OsText}
    (hName : nameFor directory name = .ok found) :
    found = name.getD directory.name := by
  unfold nameFor at hName
  dsimp only at hName
  split at hName
  case isTrue => cases hName
  case isFalse =>
    cases hName
    rfl

/- What is written if it is a text is one. -/
theorem exists_text_of_writeIfText
    {path : Path}
    {content : Option Text}
    (hRun :
      (Files.writeIfText path content false).perform outside
          session =
        (.ok (), after)) :
    ∃ text,
      content = some text ∧
        (Files.write path text false).perform outside
            session =
          (.ok (), after) := by
  cases content with
  | some text => exact ⟨text, rfl, hRun⟩
  | none =>
      rcases exists_of_perform_bind hRun with
        ⟨_, usable, _, hUsable⟩
      rcases exists_of_perform_bind hUsable with
        ⟨tree, _, _, hTree⟩
      rcases exists_of_perform_bind hTree with
        ⟨place, _, _, hPlace⟩
      -- The file is left empty, or it cannot be written.
      split at hPlace
      case h_1 => cases hPlace
      case h_2 => cases hPlace

/-
  A package is made from a template package, where nothing was
  before. Its files are those that the template hands on, with
  their contents, and a manifest, which is that of the template
  with another name. Then the manifest of the workspace is
  edited as the package is added to its members. Nothing else
  changes, but that there are new directories on the way to
  the package. All this holds if the package is inside of the
  template, and if the manifest of the workspace is inside of
  the package. The tree has no links, and writing no faults
  of a device.
-/
theorem package_is_copied_from_template
    (outside : Outside ω)
    (session after : Session ω)
    (root directory base : Path)
    (template : Toml.Table)
    (name : Option OsText)
    (found : OsText)
    (hSound : session.tree.IsSound)
    (hProper : directory.IsProper)
    (hNew :
      session.tree.find?
          (spelledLocation outside.directory.names
            directory) =
        none)
    (hBase :
      isDirectory session.tree outside.directory.names base =
        true)
    (hRun :
      (newPackage root directory template name (some base)
            false).perform
          outside session =
        (.ok found, after)) :
    found = name.getD directory.name ∧
      ∃ original document renamed laid,
        session.tree.find?
              (manifestLocation outside.directory.names
                base) =
            some (.file (.text original)) ∧
          parse original = .ok document ∧
          Manifest.IsRenamed found document renamed ∧
          IsCopied outside.directory.names base directory
            (render renamed) (fun _ => False) session.tree
            laid ∧
          IsEdited outside.directory.names root
            (.addMember (reached root directory)) laid
            after.tree ∧
          IsCopied outside.directory.names base directory
            (render renamed)
            (· = manifestLocation outside.directory.names root)
            session.tree after.tree := by
  rcases exists_of_perform_bind hRun with
    ⟨given, start, hName, hRun⟩
  rcases eq_of_perform_ofExcept hName with ⟨hGiven, rfl⟩
  rcases exists_of_perform_bind hRun with
    ⟨document, copied, hLaid, hRun⟩
  rcases exists_of_perform_bind hRun with
    ⟨changed, named, hRename, hRun⟩
  rcases exists_of_perform_bind hRun with
    ⟨_, made, hMake, hRun⟩
  rcases exists_of_perform_bind hRun with
    ⟨_, written, hWrite, hRun⟩
  rcases exists_of_perform_bind hRun with
    ⟨report, modified, hModify, hDone⟩
  cases hDone
  -- The package is laid out before it becomes a member.
  rcases hasCopied_of_layOut hSound hNew hBase hLaid with
    ⟨hCopied, original, hOriginal, hParse⟩
  rcases exists_text_of_writeIfText hWrite with
    ⟨text, hText, hWritten⟩
  rcases Option.map_eq_some_iff.mp hText with
    ⟨renamed, rfl, rfl⟩
  have hRenamed :=
    Manifest.isRenamed_of_renamePackage
      (isOrderly_parse hParse) hRename
  have hAsks :
      OnlyAsks outside
        (Manifest.renamePackage document found) :=
    Manifest.onlyAsks_renamePackage document found
  have hNamed := (hAsks copied).tree
  rw [hRename] at hNamed
  rw [← hNamed] at hCopied
  have hPut := isCopied_of_write hCopied hMake hWritten
  -- The member is added as the path that its entry leads to.
  rw [← modify_addMember_congr
    (relativeToRoot_reached root hProper)] at hModify
  have hChange := leadsBack_addMember_reached root hProper
  have hModified := modifyRun_of_perform hModify
  exact
    ⟨eq_of_nameFor hGiven, original, document, renamed,
      written.tree, hOriginal, hParse, hRenamed, hPut,
      (isEdited_of_modified hChange hModified).2,
      hPut.edited (changesWithin_of_modified hChange hModified)⟩

/- A file with a text. -/
def textFile (text : Text) : Node :=
  .file (.text text)

/- A workspace with a template, which has files of all kinds. -/
def withTemplate : Session Unit :=
  .start
    ⟨[(["ws"], .directory),
      (["ws", "Cargo.toml"], textFile "[workspace]\n"),
      (["ws", "t"], .directory),
      (["ws", "t", "Cargo.toml"],
        textFile "[package]\nname = \"t\"\nedition = \"2021\"\n"),
      (["ws", "t", "a"], .directory),
      (["ws", "t", "a", "Cargo.toml"], textFile "inner"),
      (["ws", "t", "a", "target"], .directory),
      (["ws", "t", "a", "target", "b"], textFile "kept"),
      (["ws", "t", "target"], .directory),
      (["ws", "t", "target", "b"], textFile "skipped")]⟩
    ()

/- A package that is made inside of its template. -/
def madeInside : Except Failure OsText × Session Unit :=
  (newPackage (Path.ofText ("/ws" : String))
        (Path.ofText ("/ws/t/p" : String)) [] none
        (some (Path.ofText ("/ws/t" : String))) false).perform
    Files.surroundings withTemplate

/- It is made of two files, and of its manifest. -/
theorem madeInside_ends :
    madeInside.1 = .ok ("p" : String).toList ∧
      madeInside.2.tree.find?
            ["ws", "t", "p", "a", "target", "b"] =
          some (textFile "kept") ∧
        madeInside.2.tree.find?
            ["ws", "t", "p", "target", "b"] =
          none := by
  have hParts :
      templateParts Files.surroundings.directory.names
          withTemplate.tree (Path.ofText ("/ws/t" : String)) =
        ([["a", "Cargo.toml"], ["a", "target", "b"]] :
            List (List OsText)).map
          fun names =>
            ((Path.ofText ("/ws/t" : String)).onward names,
              names) := by
    rw [templateParts,
      filesBelow_of_pairwise
        (directory_of_isDirectory (by decide)).1 (by decide)]
    decide
  have hName :
      nameFor (Path.ofText ("/ws/t/p" : String)) none =
        .ok ("p" : String).toList := by
    decide
  rw [madeInside, newPackage]
  simp only [hName, perform_bind, perform_ofExcept, layOut,
    perform_copyTemplate, hParts]
  decide +kernel

theorem package_is_copied_inside_template :
    withTemplate.tree.IsSound ∧
      ∃ after original document renamed laid,
        madeInside = (.ok ("p" : String).toList, after) ∧
        after.tree.find? ["ws", "t", "p", "a", "target", "b"] =
          some (textFile "kept") ∧
        after.tree.find? ["ws", "t", "p", "target", "b"] =
          none ∧
        parse original = .ok document ∧
        Manifest.IsRenamed ("p" : String).toList document
          renamed ∧
        IsCopied Files.surroundings.directory.names
          (Path.ofText ("/ws/t" : String))
          (Path.ofText ("/ws/t/p" : String)) (render renamed)
          (fun _ => False) withTemplate.tree laid ∧
        IsEdited Files.surroundings.directory.names
          (Path.ofText ("/ws" : String))
          (.addMember (Path.ofText ("/ws/t/p" : String))) laid
          after.tree := by
  have hSound : withTemplate.tree.IsSound := by decide
  have hProper : (Path.ofText ("/ws/t/p" : String)).IsProper :=
    Path.isProper_ofText _
  have hNew :
      withTemplate.tree.find?
          (spelledLocation Files.surroundings.directory.names
            (Path.ofText ("/ws/t/p" : String))) =
        none := by
    decide
  have hBase :
      isDirectory withTemplate.tree
          Files.surroundings.directory.names
          (Path.ofText ("/ws/t" : String)) =
        true := by
    decide
  have hEnds := madeInside_ends
  rcases hRun : madeInside with ⟨result, after⟩
  rw [hRun] at hEnds
  rcases hEnds with ⟨hFound, hKept, hSkipped⟩
  obtain rfl : result = .ok ("p" : String).toList := hFound
  rcases package_is_copied_from_template Files.surroundings
      withTemplate after _ _ _ [] none _ hSound hProper hNew
      hBase hRun with
    ⟨_, original, document, renamed, laid, _, hParse,
      hRenamed, hLaid, hEdited, _⟩
  rw [reached_eq _ hProper (by decide)] at hEdited
  exact
    ⟨hSound, after, original, document, renamed, laid, rfl,
      hKept, hSkipped, hParse, hRenamed, hLaid, hEdited⟩

/- The manifest of a package that is a workspace as well. -/
def rootManifest : Text :=
  "[package]\nname = \"t\"\n\n[workspace]\n"

/- The manifest with another name. -/
def renamedManifest : Text :=
  "[package]\nname = \"p\"\n\n[workspace]\n"

/- A template that is a workspace of its own. -/
def withWorkspaceTemplate : Session Unit :=
  .start
    ⟨[(["ws"], .directory), (["ws", "t"], .directory),
      (["ws", "t", "Cargo.toml"], textFile rootManifest)]⟩
    ()

/- A package that is made where its workspace is to be. -/
def madeAtRoot : Except Failure OsText × Session Unit :=
  (newPackage (Path.ofText ("/ws/p" : String))
        (Path.ofText ("/ws/p" : String)) [] none
        (some (Path.ofText ("/ws/t" : String))) false).perform
    Files.surroundings withWorkspaceTemplate

theorem madeAtRoot_ends :
    madeAtRoot.1 = .ok ("p" : String).toList ∧
      madeAtRoot.2.tree.find? ["ws", "p", "Cargo.toml"] =
        some
          (textFile
            (renamedManifest ++ "members = [\".\"]\n")) := by
  have hParts :
      templateParts Files.surroundings.directory.names
          withWorkspaceTemplate.tree
          (Path.ofText ("/ws/t" : String)) =
        [] := by
    rw [templateParts,
      filesBelow_of_pairwise
        (directory_of_isDirectory (by decide)).1 (by decide)]
    decide
  have hName :
      nameFor (Path.ofText ("/ws/p" : String)) none =
        .ok ("p" : String).toList := by
    decide
  rw [madeAtRoot, newPackage]
  simp only [hName, perform_bind, perform_ofExcept, layOut,
    perform_copyTemplate, hParts]
  decide +kernel

/-
  If the package is the root of the workspace, its manifest is
  not that of the template with another name. So more is to be
  left out than a manifest outside of the package.
-/
theorem package_is_edited_at_root :
    withWorkspaceTemplate.tree.IsSound ∧
      madeAtRoot.1 = .ok ("p" : String).toList ∧
      ∃ document,
        parse rootManifest = .ok document ∧
        ∀ renamed,
          Manifest.IsRenamed ("p" : String).toList document
              renamed →
            ¬ IsCopied Files.surroundings.directory.names
                (Path.ofText ("/ws/t" : String))
                (Path.ofText ("/ws/p" : String))
                (render renamed)
                (fun location =>
                  location =
                      manifestLocation
                        Files.surroundings.directory.names
                        (Path.ofText ("/ws/p" : String)) ∧
                    ¬ (packageRegion
                          Files.surroundings.directory.names
                          (Path.ofText
                            ("/ws/p" : String))).files
                        location)
                withWorkspaceTemplate.tree
                madeAtRoot.2.tree := by
  have hSound : withWorkspaceTemplate.tree.IsSound := by decide
  -- With another name, the template has no members.
  have hTemplate :
      ((parse rootManifest).toOption.map fun document =>
          render
            (Toml.Layout.setIn "package" "name"
              (Manifest.stringCell ("p" : String).toList)
              document)) =
        some renamedManifest := by
    decide +kernel
  rcases madeAtRoot_ends with ⟨hFound, hManifest⟩
  refine ⟨hSound, hFound, ?_⟩
  cases hParse : parse rootManifest with
  | error fault =>
      rw [hParse] at hTemplate
      cases hTemplate
  | ok document =>
      rw [hParse] at hTemplate
      refine ⟨document, rfl, ?_⟩
      rintro _ ⟨text, hText, rfl, _⟩ hCopied
      have hName : text = ("p" : String).toList :=
        OsText.eq_of_texts hText
      subst hName
      have hCopy :=
        (hCopied.files [fileName] _ fun hOutside =>
            hOutside.2
              (isBelow_append (List.cons_ne_nil _ _) _)).mpr
          (.inr ⟨rfl, rfl⟩)
      have hRendered := Option.some.inj hTemplate
      dsimp only at hRendered
      rw [hRendered] at hCopy
      have hLocation :
          spelledLocation Files.surroundings.directory.names
                (Path.ofText ("/ws/p" : String)) ++
              [fileName] =
            (["ws", "p", "Cargo.toml"] : Location) := by
        decide
      rw [hLocation, hManifest] at hCopy
      exact absurd hCopy (by decide)

end Workspace

end ScriptWorkspace
