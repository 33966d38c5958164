import Mathlib
import ScriptWorkspace.Proofs.Toml.Equality
import ScriptWorkspace.Proofs.Toml.Readings
import ScriptWorkspace.Proofs.Workspace.FromTemplate

/-
  The name of a package, as it is read and as it is changed.

  The name is read from the table of a manifest, and before it
  is changed it is looked up in the document of the manifest.
  Both find a name or none. If there is none, the change ends
  with a fault of the manifest, as long as `package` is missing
  or a table. Any other `package` has no keys to look up, and
  then the change ends with a failure of another kind.

  Main declarations:
    * `Manifest.IsReadAlike`
    * `Manifest.HasOtherPackage`
    * `Manifest.SurvivesWriting`
    * `Manifest.IsReadAlike.nameIn?_of_found`
    * `Manifest.IsReadAlike.renamed_of_named`
    * `Manifest.IsReadAlike.renamed_of_unnamed`
    * `Manifest.package_is_renamed_iff_named`
-/

namespace ScriptWorkspace

variable {ω : Type}

namespace Manifest

open Toml (Alike HasDistinctKeys)
open Toml.Layout
  (Document Target CanPut HasPutIn bodyTable lookup render)

------------------------------------------------------------
-- Manifests That Are Read Twice
------------------------------------------------------------

/-
  A manifest is read as a table and as a document, and both
  have the same value. A document has a value only if nothing
  clashes wherever a key of it is looked up.
-/
structure IsReadAlike
    (manifest : Text)
    (members : Toml.Table)
    (document : Document) : Prop where
  asTable : Toml.parse manifest = .ok members
  asDocument : Toml.Layout.parse manifest = .ok document
  readable : (Target.body document).IsReadable
  alike :
    Alike (.table (bodyTable document)) (.table members)

/- There is a `package` in the manifest that is no table. -/
def HasOtherPackage (members : Toml.Table) : Prop :=
  ∃ package,
    Toml.find? "package" members = some package ∧
      package.table? = none

/- The value of a document survives being written and read. -/
def SurvivesWriting (document : Document) : Prop :=
  ∃ members,
    Toml.parse (render document) = .ok members ∧
      Alike (.table (bodyTable document)) (.table members)

------------------------------------------------------------
-- Names In Tables
------------------------------------------------------------

theorem nameIn?_eq (members : Toml.Table) :
    nameIn? members =
      (Toml.find? "package" members).bind fun package =>
        package.table?.bind fun inner =>
          (Toml.find? "name" inner).bind Toml.text? := by
  rfl

/- Manifests that say the same have the same name. -/
theorem nameIn?_of_alike
    {shown members : Toml.Table}
    (hAlike : Alike (.table shown) (.table members))
    (hShown : HasDistinctKeys shown)
    (hPackage :
      ∀ inner,
        Toml.find? "package" shown = some (.table inner) →
          HasDistinctKeys inner) :
    nameIn? members = nameIn? shown := by
  have hValues := hAlike.rel_find? hShown "package"
  rw [nameIn?_eq, nameIn?_eq]
  revert hValues hPackage
  generalize Toml.find? "package" shown = package
  generalize Toml.find? "package" members = other
  rintro hPackage (hValue | _)
  · cases hValue with
    | same => rfl
    | array hItems => rfl
    | table hOrder hMembers =>
        exact
          (Alike.table hOrder hMembers).bind_text?_find?
            (hPackage _ rfl) "name"
  · rfl

/- Manifests that say the same have another `package` alike. -/
theorem hasOtherPackage_of_alike
    {shown members : Toml.Table}
    (hAlike : Alike (.table shown) (.table members))
    (hShown : HasDistinctKeys shown) :
    HasOtherPackage members ↔ HasOtherPackage shown := by
  have hValues := hAlike.rel_find? hShown "package"
  rw [HasOtherPackage, HasOtherPackage]
  revert hValues
  generalize Toml.find? "package" shown = package
  generalize Toml.find? "package" members = other
  rintro (hValue | _)
  · simp [hValue.table?_eq_none_iff]
  · rfl

theorem packageName_eq
    {manifest : Text}
    {members : Toml.Table}
    (hParse : Toml.parse manifest = .ok members) :
    packageName manifest =
      match nameIn? members with
      | some name => .ok name
      | none => .error (.manifest .noPackageName) := by
  rw [packageName, read, hParse]
  rfl

/- A name is read if the table has one. -/
theorem packageName_eq_ok_iff
    {manifest old : Text}
    {members : Toml.Table}
    (hParse : Toml.parse manifest = .ok members) :
    packageName manifest = .ok old ↔
      nameIn? members = some old := by
  rw [packageName_eq hParse]
  cases nameIn? members with
  | none => simp
  | some name => simp

/- Otherwise the fault is that there is none. -/
theorem packageName_eq_error_iff
    {manifest : Text}
    {members : Toml.Table}
    {failure : Failure}
    (hParse : Toml.parse manifest = .ok members) :
    packageName manifest = .error failure ↔
      nameIn? members = none ∧
        failure = .manifest .noPackageName := by
  rw [packageName_eq hParse]
  cases nameIn? members with
  | none => simp [eq_comm]
  | some name => simp

------------------------------------------------------------
-- Names In Documents
------------------------------------------------------------

section Found

variable {manifest : Text}
variable {members : Toml.Table}
variable {document : Document}
variable {package found : Target}

/- What a key of something readable leads to can be found. -/
theorem exists_find_of_isReadable
    {target : Target}
    (hTarget : target.IsReadable)
    (key : Text) :
    ∃ found, target.find key = .ok found := by
  cases hTarget with
  | body hLookup hTargets => exact hLookup key
  | missing => exact ⟨_, rfl⟩
  | cell content => exact ⟨_, rfl⟩
  | inline members => exact ⟨_, rfl⟩
  | elements hTables => exact ⟨_, rfl⟩

theorem IsReadAlike.exists_found
    (hRead : IsReadAlike manifest members document) :
    ∃ package found,
      lookup "package" document = .ok package ∧
        package.find "name" = .ok found := by
  rcases hRead.readable with _ | _ | _ | ⟨hLookup, hTargets⟩
  rcases hLookup "package" with ⟨package, hPackage⟩
  have hReadable := hTargets "package" package hPackage
  rcases exists_find_of_isReadable hReadable "name" with
    ⟨found, hFound⟩
  exact ⟨package, found, hPackage, hFound⟩

/- What `package` leads to is its value in the document. -/
theorem IsReadAlike.find?_eq
    (hRead : IsReadAlike manifest members document)
    (hPackage : lookup "package" document = .ok package) :
    Toml.find? "package" (bodyTable document) =
      package.value? :=
  Toml.Layout.find?_of_lookup
    (Toml.Layout.isOrderly_parse hRead.asDocument) hPackage

/- The table of a package has each key once. -/
theorem IsReadAlike.hasDistinctKeys
    (hRead : IsReadAlike manifest members document)
    (hPackage : lookup "package" document = .ok package)
    {inner : Toml.Table}
    (hInner : package.value? = some (.table inner)) :
    HasDistinctKeys inner := by
  cases package with
  | missing => cases hInner
  | elements tables => cases hInner
  | inline members =>
      cases hInner
      exact Toml.Layout.hasDistinctKeys_membersTable members
  | body entries =>
      cases hInner
      exact Toml.Layout.hasDistinctKeys_bodyTable entries
  | cell content =>
      have hPlain :=
        Toml.Layout.table?_of_lookup_cell hRead.asDocument
          hPackage
      rw [Option.some.inj hInner] at hPlain
      cases hPlain

/- The name that is read is the text that is looked up. -/
theorem IsReadAlike.nameIn?_of_found
    (hRead : IsReadAlike manifest members document)
    (hPackage : lookup "package" document = .ok package)
    (hFound : package.find "name" = .ok found) :
    nameIn? members = found.value?.bind Toml.text? := by
  have hValue := hRead.find?_eq hPackage
  have hShown :
      nameIn? members = nameIn? (bodyTable document) := by
    refine
      nameIn?_of_alike hRead.alike
        (Toml.Layout.hasDistinctKeys_bodyTable document)
        fun inner hInner => ?_
    exact
      hRead.hasDistinctKeys hPackage (hValue.symm.trans hInner)
  rw [hShown, nameIn?_eq, hValue]
  cases package with
  | missing =>
      cases hFound
      rfl
  | elements tables =>
      cases hFound
      rfl
  | cell content =>
      cases hFound
      have hPlain :=
        Toml.Layout.table?_of_lookup_cell hRead.asDocument
          hPackage
      simp only [Target.value?, Option.bind_some, hPlain]
      rfl
  | inline members =>
      cases hFound
      have hTarget :=
        Toml.Layout.leadsTo_lookup
          (Toml.Layout.isOrderly_parse hRead.asDocument)
          hPackage rfl
      rcases hTarget with _ | ⟨_, _, hApart⟩
      exact
        Toml.Layout.bind_text?_of_lookupMember hApart "name"
  | body entries =>
      exact Toml.Layout.bind_text?_of_lookup hFound

/- A `package` that is no table is found to be none. -/
theorem IsReadAlike.hasOtherPackage_iff
    (hRead : IsReadAlike manifest members document)
    (hPackage : lookup "package" document = .ok package) :
    HasOtherPackage members ↔
      package ≠ .missing ∧ package.isTable = false := by
  have hKeys :=
    Toml.Layout.hasDistinctKeys_bodyTable document
  rw [hasOtherPackage_of_alike hRead.alike hKeys,
    HasOtherPackage, hRead.find?_eq hPackage]
  cases package with
  | missing => simp [Target.value?]
  | inline members => 
      simp [Target.value?, Target.isTable, Toml.table?]
  | body entries =>
      simp [Target.value?, Target.isTable, Toml.table?]
  | elements tables =>
      simp [Target.value?, Target.isTable, Toml.table?]
  | cell content =>
      have hPlain :=
        Toml.Layout.table?_of_lookup_cell hRead.asDocument
          hPackage
      simp [Target.value?, Target.isTable, hPlain]

------------------------------------------------------------
-- Changed Names
------------------------------------------------------------

/- A name is changed if a text is found where it is. -/
theorem renamed_of_found
    (hPackage : lookup "package" document = .ok package)
    (hFound : package.find "name" = .ok found)
    (hKeys : package = .missing ∨ package.isTable = true)
    (name : Text) :
    renamed document name =
      match found.value?.bind Toml.text? with
      | none => .error (.manifest .packageNameNotText)
      | some old =>
        .ok
          (old,
            Toml.Layout.setIn "package" "name"
              (stringCell name) document) := by
  have hTarget : packageTarget document = .ok package := by
    rw [packageTarget, hPackage]
    rcases hKeys with rfl | hTable
    · rfl
    · cases package with
      | inline members => rfl
      | body entries => rfl
      | missing => cases hTable
      | cell content => cases hTable
      | elements tables => cases hTable
  rw [renamed, hTarget]
  simp only [bind, Except.bind, hFound, orClash]
  rfl

/- What has no keys is not looked into. -/
theorem renamed_of_no_keys
    (hPackage : lookup "package" document = .ok package)
    (hSome : package ≠ .missing)
    (hTable : package.isTable = false)
    (name : Text) :
    renamed document name =
      .error (.unexpected .notATable) := by
  have hTarget :
      packageTarget document =
        .error (.unexpected .notATable) := by
    rw [packageTarget, hPackage]
    cases package with
    | missing => exact absurd rfl hSome
    | cell content => rfl
    | elements tables => rfl
    | inline members => cases hTable
    | body entries => cases hTable
  rw [renamed, hTarget]
  rfl

/- A text is looked up in a table only. -/
theorem isTable_of_found
    {text : Text}
    (hFound : package.find "name" = .ok found)
    (hText : found.value?.bind Toml.text? = some text) :
    package.isTable = true := by
  cases package with
  | inline members => rfl
  | body entries => rfl
  | missing =>
      cases hFound
      cases hText
  | cell content =>
      cases hFound
      cases hText
  | elements tables =>
      cases hFound
      cases hText

/- A name that is read is one that can be changed. -/
theorem IsReadAlike.renamed_of_named
    {old : Text}
    (hRead : IsReadAlike manifest members document)
    (hName : nameIn? members = some old)
    (text : Text) :
    renamed document text =
      .ok
        (old,
          Toml.Layout.setIn "package" "name" (stringCell text)
            document) := by
  rcases hRead.exists_found with
    ⟨package, found, hPackage, hFound⟩
  rw [hRead.nameIn?_of_found hPackage hFound] at hName
  have hKeys : package = .missing ∨ package.isTable = true :=
    .inr (isTable_of_found hFound hName)
  rw [renamed_of_found hPackage hFound hKeys, hName]

/- Without a name, what `package` is tells the failure. -/
theorem IsReadAlike.renamed_of_unnamed
    (hRead : IsReadAlike manifest members document)
    (hName : nameIn? members = none)
    (text : Text) :
    ∃ fault,
      renamed document text = .error fault ∧
        (¬ HasOtherPackage members ∧
            fault = .manifest .packageNameNotText ∨
          HasOtherPackage members ∧
            fault = .unexpected .notATable) := by
  rcases hRead.exists_found with
    ⟨package, found, hPackage, hFound⟩
  rw [hRead.nameIn?_of_found hPackage hFound] at hName
  have hOther := hRead.hasOtherPackage_iff hPackage
  by_cases hPlain : HasOtherPackage members
  · rcases hOther.mp hPlain with ⟨hSome, hTable⟩
    exact
      ⟨_, renamed_of_no_keys hPackage hSome hTable text,
        .inr ⟨hPlain, rfl⟩⟩
  · have hKeys :
        package = .missing ∨ package.isTable = true := by
      by_contra hNot
      rcases not_or.mp hNot with ⟨hSome, hTable⟩
      refine hPlain (hOther.mpr ⟨hSome, ?_⟩)
      exact Bool.eq_false_iff.mpr hTable
    have hRenamed :=
      renamed_of_found hPackage hFound hKeys text
    rw [hName] at hRenamed
    exact ⟨_, hRenamed, .inl ⟨hPlain, rfl⟩⟩

/- After a change that survives, the new name is read. -/
theorem packageName_of_renamed
    {changed : Document}
    {old text : Text}
    (hDocument : Toml.Layout.IsOrderly document)
    (hRenamed : renamed document text = .ok (old, changed))
    (hSurvives : SurvivesWriting changed) :
    packageName (render changed) = .ok text := by
  rcases canPut_of_renamed hDocument hRenamed with
    ⟨hCan, rfl⟩
  rcases hSurvives with ⟨reread, hParse, hAlike⟩
  have hPut :=
    Toml.Layout.hasPutIn_setIn (stringCell text) hCan
  have hCanAgain :=
    Toml.Layout.canPut_setIn (stringCell text) hCan
  rcases hPut.table with
    ⟨_, inner, _, hInner, hValues⟩
  have hName :
      nameIn? reread =
        nameIn?
          (bodyTable
            (Toml.Layout.setIn "package" "name"
              (stringCell text) document)) :=
    nameIn?_of_alike hAlike
      (Toml.Layout.hasDistinctKeys_bodyTable _)
      fun _ => hCanAgain.hasDistinctKeys
  have hNew :
      Toml.find? "name" inner = some (.string text) := by
    rw [hValues, if_pos rfl]
    rfl
  rw [packageName_eq_ok_iff hParse, hName, nameIn?_eq, hInner]
  simp only [Option.bind_some, Toml.table?, hNew, Toml.text?]

end Found

------------------------------------------------------------
-- Agreement
------------------------------------------------------------

section Performed

variable {outside : Outside ω}
variable {document changed : Document}
variable {name : OsText}

/- A change that succeeds is recorded in the log. -/
theorem performs_renamePackage
    {old : Text}
    (session : Session ω)
    (hRenamed :
      renamed document (name.toText?.getD []) =
        .ok (old, changed)) :
    ∃ after,
      Performs (renamePackage document name) outside session
        [] (.ok (name.toText?.map fun _ => changed)) after := by
  rcases Performs.logInfo outside session
      ["`package.name`: ", old.quoted, " → ", name.quoted] with
    ⟨after, hLog⟩
  refine ⟨after, ?_⟩
  unfold renamePackage
  rw [hRenamed]
  exact
    (Performs.ofExcept (.ok (old, changed))).bind_quiet
      (hLog.bind_quiet (.pure _))

/- A change that fails leaves everything alone. -/
theorem performs_renamePackage_error
    {failure : Failure}
    (session : Session ω)
    (hRenamed :
      renamed document (name.toText?.getD []) =
        .error failure) :
    Performs (renamePackage document name) outside session []
      (.error failure) session := by
  unfold renamePackage
  rw [hRenamed]
  exact (Performs.ofExcept (.error failure)).bind_error _

end Performed

/-
  The name of a package is changed exactly if it can be read.
  Then the package has the new name, all else in the document
  has the value it had, and the new name is read if the value
  of the document survives being written and read. If there
  is no name, nothing is changed, and the failure is the fault
  of the manifest that is to be told exactly if `package` is
  missing or a table.
-/
theorem package_is_renamed_iff_named
    (outside : Outside ω)
    (session : Session ω)
    (manifest : Text)
    (members : Toml.Table)
    (document : Document)
    (name : OsText)
    (hRead : IsReadAlike manifest members document) :
    (∀ old,
        packageName manifest = .ok old →
          ∃ changed after,
            Performs (renamePackage document name) outside
                session []
                (.ok (name.toText?.map fun _ => changed))
                after ∧
              ∀ text,
                name.toText? = some text →
                  IsRenamed name document changed ∧
                    (SurvivesWriting changed →
                      packageName (render changed) =
                        .ok text)) ∧
      ∀ failure,
        packageName manifest = .error failure →
          failure = .manifest .noPackageName ∧
            ∃ fault,
              Performs (renamePackage document name) outside
                  session [] (.error fault) session ∧
                (¬ HasOtherPackage members ∧
                    fault = .manifest .packageNameNotText ∨
                  HasOtherPackage members ∧
                    fault = .unexpected .notATable) := by
  have hDocument :=
    Toml.Layout.isOrderly_parse hRead.asDocument
  constructor
  · intro old hOld
    have hName := (packageName_eq_ok_iff hRead.asTable).mp hOld
    have hRenamed := hRead.renamed_of_named hName
    rcases performs_renamePackage session (hRenamed _) with
      ⟨after, hRun⟩
    refine ⟨_, after, hRun, fun text hText => ?_⟩
    rw [hText, Option.getD_some,
      ← OsText.eq_of_toText? hText]
    exact
      ⟨isRenamed_of_renamed hDocument (hRenamed text),
        packageName_of_renamed hDocument (hRenamed text)⟩
  · intro failure hFailure
    rcases (packageName_eq_error_iff hRead.asTable).mp
        hFailure with
      ⟨hName, hMissing⟩
    rcases hRead.renamed_of_unnamed hName
        (name.toText?.getD []) with
      ⟨fault, hRenamed, hFault⟩
    exact
      ⟨hMissing, fault,
        performs_renamePackage_error session hRenamed, hFault⟩

/- A manifest with a name and nothing else. -/
def namedManifest : Text :=
  "[package]\nname = \"t\"\n"

/- The table of a manifest with a name. -/
def namedTable (name : Text) : Toml.Table :=
  [("package", .table [("name", .string name)])]

/- The entries of the table of a package in the document. -/
def namedEntries : List Toml.Layout.Entry :=
  [.pair ⟨"name ", "name"⟩ "= "
    (.cell (.plain ⟨"\"t\"", .string "t"⟩)) .line]

/- The document of the manifest. -/
def namedDocument : Document :=
  [.table ⟨"package", "package"⟩ .declared
    ⟨some "package", .line⟩ namedEntries]

theorem isReadAlike_namedManifest :
    IsReadAlike namedManifest (namedTable "t")
      namedDocument where
  asTable := by decide +kernel
  asDocument := by cbv
  readable := by
    refine
      Toml.Layout.isReadable_of_names
        (List.forall_mem_singleton.mpr ?_)
    rintro _ ⟨⟩
    refine ⟨.body namedEntries, rfl, ?_⟩
    refine
      Toml.Layout.isReadable_of_names
        (List.forall_mem_singleton.mpr ?_)
    rintro _ ⟨⟩
    exact ⟨_, rfl, .cell _⟩
  alike := .same _

/- The package gets another name, which is read then. -/
theorem named_package_is_renamed :
    ∃ changed after,
      Performs
          (renamePackage namedDocument (("p" : Text) : OsText))
          Files.surroundings (.start ⟨[]⟩ ()) []
          (.ok (some changed)) after ∧
        packageName (render changed) = .ok "p" := by
  have hName : packageName namedManifest = .ok "t" :=
    (packageName_eq_ok_iff
      isReadAlike_namedManifest.asTable).mpr rfl
  rcases (package_is_renamed_iff_named Files.surroundings
      (.start ⟨[]⟩ ()) namedManifest (namedTable "t")
      namedDocument (("p" : Text) : OsText)
      isReadAlike_namedManifest).1 _ hName with
    ⟨changed, after, hRun, hChanged⟩
  rcases hChanged "p" rfl with
    ⟨⟨text, hText, rfl, _⟩, hReread⟩
  rw [OsText.eq_of_texts hText] at hRun hReread
  refine ⟨_, after, hRun, hReread ⟨namedTable "p", ?_, ?_⟩⟩
  · decide +kernel
  · exact .same _

/- A manifest in which `package` is a number. -/
def numberManifest : Text :=
  "package = 1\n"

/- The document of the manifest. -/
def numberDocument : Document :=
  [.pair ⟨"package ", "package"⟩ "= "
    (.cell (.plain ⟨"1", .int 1⟩)) .line]

/-
  There is no name in it, and the failure of a change is not
  the fault of the manifest.
-/
theorem numbered_package_fails_otherwise :
    IsReadAlike numberManifest [("package", .int 1)]
        numberDocument ∧
      packageName numberManifest =
          .error (.manifest .noPackageName) ∧
        ((renamePackage numberDocument
                (("x" : Text) : OsText)).perform
              Files.surroundings (.start ⟨[]⟩ ())).1 =
            .error (.unexpected .notATable) := by
  have hParse :
      Toml.parse numberManifest =
        .ok [("package", .int 1)] := by
    decide +kernel
  have hName :=
    (packageName_eq_error_iff hParse).mpr ⟨rfl, rfl⟩
  refine ⟨⟨hParse, by cbv, ?_, .same _⟩, hName, rfl⟩
  refine
    Toml.Layout.isReadable_of_names
      (List.forall_mem_singleton.mpr ?_)
  rintro _ ⟨⟩
  exact ⟨_, rfl, .cell _⟩

end Manifest

end ScriptWorkspace
