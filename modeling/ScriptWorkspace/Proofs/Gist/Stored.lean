import Mathlib.Data.List.Forall2
import ScriptWorkspace.Proofs.Gist.Client

/-
  Gists as a store keeps them, and as it shows them.

  A gist has a description, or none, and files. It is shown
  as an object that may have any other members; what the
  client reads of it is what the store keeps.

  Main declarations:
    * `isRustName`
    * `isRustName_append`
    * `StoredGist`
    * `StoredGist.IsShownBy`
    * `StoredGist.scriptIn_of_scripts`
    * `StoredGist.scripts_of_scriptIn`
    * `StoredGist.filter_filesWith`
-/

namespace ScriptWorkspace

open GistClient

------------------------------------------------------------
-- Rust Files
------------------------------------------------------------

/- The name of a Rust file. -/
def isRustName (filename : Text) : Bool :=
  Gist.rustSuffixes.contains
    (suffix (Path.ofText filename).name)

/- A text without a slash is one piece. -/
theorem Path.pieces_of_no_separator
    {text : OsText}
    (hText : ∀ unit ∈ text, isSeparator unit = false) :
    pieces text = [text] := by
  induction text with
  | nil => rfl
  | cons unit rest ih =>
      rcases List.forall_mem_cons.mp hText with
        ⟨hUnit, hRest⟩
      rw [pieces, hUnit, ih hRest]
      rfl

/- A suffix is what stands after the last dot of a name. -/
theorem suffix_append_dot
    {stem ending : OsText}
    (hStem : stem ≠ [])
    (hEnding : ending ≠ [])
    (hDot : .char '.' ∉ ending) :
    suffix (stem ++ .char '.' :: ending) =
      .char '.' :: ending := by
  have hTake :
      ((stem ++ .char '.' :: ending).reverse.takeWhile
          (· != .char '.')).reverse =
        ending := by
    have hAll :
        ∀ unit ∈ ending.reverse,
          (unit != .char '.') = true := by
      intro unit hMem
      have hOther : unit ≠ .char '.' := by
        rintro rfl
        exact hDot (List.mem_reverse.mp hMem)
      simpa using hOther
    rw [List.reverse_append, List.reverse_cons,
      List.append_assoc, List.takeWhile_append_of_pos hAll]
    simp
  have hLength : 0 < stem.length :=
    List.length_pos_iff.mpr hStem
  unfold suffix
  rw [hTake]
  refine if_neg ?_
  rw [Bool.or_eq_true, List.isEmpty_iff, decide_eq_true_iff,
    List.length_append, List.length_cons]
  rintro (hEmpty | hShort)
  · exact hEnding hEmpty
  · omega

/-
  The name of a package becomes the one of a Rust file. The
  name may not be empty, as a name has no suffix alone.
-/
theorem isRustName_append
    {package : Text}
    (hNonempty : package ≠ [])
    (hSlash : '/' ∉ package) :
    isRustName (package ++ (".rs" : Text)) = true := by
  let ending : OsText := [.char 'r', .char 's']
  let name : OsText :=
    package.map .char ++ .char '.' :: ending
  have hText :
      ((package ++ (".rs" : Text) : Text) : OsText) =
        name := by
    simp [name, ending]
  have hSeparator :
      ∀ unit ∈ name, Path.isSeparator unit = false := by
    intro unit hMem
    rcases List.mem_append.mp hMem with hMem | hMem
    · rcases List.mem_map.mp hMem with ⟨c, hChar, rfl⟩
      have hOther : c ≠ '/' := by
        rintro rfl
        exact hSlash hChar
      simpa [Path.isSeparator] using hOther
    · exact (by decide : ∀ unit ∈ .char '.' :: ending,
        Path.isSeparator unit = false) unit hMem
  have hIsName : Path.isName name = true := by
    cases package with
    | nil => exact absurd rfl hNonempty
    | cons c rest => simp [Path.isName, name, ending]
  have hName : (Path.ofText name).name = name := by
    simp [Path.ofText, Path.pieces_of_no_separator hSeparator,
      hIsName, Path.name]
  have hSuffix : suffix name = .char '.' :: ending :=
    suffix_append_dot (by simpa using hNonempty) (by decide)
      (by decide)
  unfold isRustName
  rw [hText, hName, hSuffix]
  decide

------------------------------------------------------------
-- Stored Gists
------------------------------------------------------------

/- A gist as the store keeps it. -/
structure StoredGist where
  description : Option Text
  files : List (Text × Text)
deriving DecidableEq, Repr

namespace StoredGist

/- The Rust files of a gist. -/
def scripts (gist : StoredGist) : List (Text × Text) :=
  gist.files.filter fun file => isRustName file.1

/- The description, where none counts as an empty one. -/
def shownDescription (gist : StoredGist) : Text :=
  gist.description.getD []

/- The files, with another content in one of them. -/
def filesWith
    (filename content : Text)
    (gist : StoredGist) : List (Text × Text) :=
  gist.files.map fun file =>
    if file.1 = filename then (filename, content) else file

/- The value shows a file, and all of its content. -/
structure IsShownFile
    (file : Text × Text)
    (value : Json) : Prop where
  filename :
    value.member? "filename" =
      some (.string (some file.1))
  content :
    value.member? "content" =
      some (.string (some file.2))
  whole :
    value.member? "truncated" = none ∨
      value.member? "truncated" = some (.bool false)

/- The value shows a gist with all of its files. -/
structure IsShownBy
    (gist : StoredGist)
    (value : Json) : Prop where
  id :
    ∃ gistId,
      value.member? "id" = some (.string (some gistId))
  description :
    value.member? "description" =
        gist.description.map (.string ∘ some) ∨
      gist.description = none ∧
        value.member? "description" = some .null
  files :
    ∃ members,
      value.member? "files" = some (.object members) ∧
        List.Forall₂
          (fun file member =>
            member.1 = some file.1 ∧
              IsShownFile file member.2)
          gist.files members

/- A file as the client reads it. -/
def readFile (file : Text × Text) : GistFile :=
  { filename := file.1, content := file.2, truncated := false }

theorem ofJson?_of_isShownFile
    {file : Text × Text}
    {value : Json}
    (hShown : IsShownFile file value) :
    GistFile.ofJson? value = some (readFile file) := by
  have hFilename :
      value.required? "filename" Json.text? = some file.1 := by
    unfold Json.required?
    rw [hShown.filename]
    rfl
  have hContent :
      value.optional? "content" [] Json.text? =
        some file.2 := by
    unfold Json.optional?
    rw [hShown.content]
    rfl
  have hWhole :
      value.optional? "truncated" false Json.truth? =
        some false := by
    unfold Json.optional?
    rcases hShown.whole with hWhole | hWhole
    · rw [hWhole]
    · rw [hWhole]
      rfl
  unfold GistFile.ofJson?
  rw [hFilename, hContent, hWhole]
  rfl

theorem membersOf?_of_forall₂
    {files : List (Text × Text)}
    {members : List (Option Text × Json)}
    (hShown :
      List.Forall₂
        (fun file member =>
          member.1 = some file.1 ∧
            IsShownFile file member.2)
        files members) :
    Json.membersOf? GistFile.ofJson? (.object members) =
      some
        (files.map fun file => (file.1, readFile file)) := by
  induction hShown with
  | nil => rfl
  | @cons file member files members hFirst hRest ih =>
      rcases hFirst with ⟨hKey, hFile⟩
      unfold Json.membersOf? at ih ⊢
      simp only [List.mapM_cons, ih]
      simp [hKey, ofJson?_of_isShownFile hFile]

/- A gist that is shown is read as what it is. -/
theorem IsShownBy.ofJson?_eq
    {gist : StoredGist}
    {value : Json}
    (hShown : gist.IsShownBy value) :
    ∃ id,
      Gist.ofJson? value =
        some
          { id
            description := gist.description
            files := gist.files.map readFile } := by
  rcases hShown.id with ⟨id, hId⟩
  rcases hShown.files with ⟨members, hMembers, hFiles⟩
  have hRequired :
      value.required? "id" Json.text? = some id := by
    unfold Json.required?
    rw [hId]
    rfl
  have hDescription :
      value.optional? "description" none
          (Json.nullable? Json.text?) =
        some gist.description := by
    unfold Json.optional?
    rcases hShown.description with hText | ⟨hNone, hNull⟩
    · rw [hText]
      cases gist.description with
      | none => rfl
      | some text => rfl
    · rw [hNull, hNone]
      rfl
  have hRead :
      value.optional? "files" []
          (Json.membersOf? GistFile.ofJson?) =
        some
          (gist.files.map fun file =>
            (file.1, readFile file)) := by
    unfold Json.optional?
    rw [hMembers]
    exact membersOf?_of_forall₂ hFiles
  refine ⟨id, ?_⟩
  unfold Gist.ofJson?
  rw [hRequired, hDescription, hRead]
  simp [Function.comp_def]

/- Its Rust files are those of what is read. -/
theorem filter_readFile (files : List (Text × Text)) :
    (files.map readFile).filter Gist.isRustFile =
      (files.filter fun file => isRustName file.1).map
        readFile := by
  rw [List.filter_map]
  rfl

/- The script of a gist is its only Rust file. -/
theorem scriptIn_of_scripts
    {gist : StoredGist}
    {value : Json}
    {filename content : Text}
    (hShown : gist.IsShownBy value)
    (hScripts : gist.scripts = [(filename, content)])
    (gistId : Text) :
    scriptIn gistId value =
      .ok
        { gistId, filename, content
          description := gist.shownDescription } := by
  rcases hShown.ofJson?_eq with ⟨id, hRead⟩
  have hRust :
      Gist.rustFile
          { id
            description := gist.description
            files := gist.files.map readFile } =
        .ok (readFile (filename, content)) := by
    unfold Gist.rustFile
    dsimp only
    rw [filter_readFile]
    unfold scripts at hScripts
    rw [hScripts]
    rfl
  unfold scriptIn
  rw [hRead]
  dsimp only
  rw [hRust]
  rfl

/- If a script is read, it is the only Rust file. -/
theorem scripts_of_scriptIn
    {gist : StoredGist}
    {value : Json}
    {gistId : Text}
    {remote : RemoteScript}
    (hShown : gist.IsShownBy value)
    (hScript : scriptIn gistId value = .ok remote) :
    gist.scripts = [(remote.filename, remote.content)] ∧
      remote.description = gist.shownDescription := by
  rcases hShown.ofJson?_eq with ⟨id, hRead⟩
  unfold scriptIn at hScript
  simp only [hRead, Gist.rustFile, filter_readFile] at hScript
  change gist.files.filter _ = _ ∧ _
  generalize hFound :
    gist.files.filter (fun file => isRustName file.1) = found
    at hScript
  match found with
  | [] => cases hScript
  | [file] =>
      cases hScript
      exact ⟨rfl, rfl⟩
  | first :: second :: rest => cases hScript

/- Only the content of the script is another one. -/
theorem filter_filesWith
    {gist : StoredGist}
    {filename old : Text}
    (hScripts : gist.scripts = [(filename, old)])
    (content : Text) :
    ((gist.filesWith filename content).filter fun file =>
        isRustName file.1) =
      [(filename, content)] := by
  have hName :
      ((fun file => isRustName file.1) ∘
          fun file : Text × Text =>
            if file.1 = filename then (filename, content)
            else file) =
        fun file => isRustName file.1 := by
    funext file
    by_cases hFile : file.1 = filename
    · simp [hFile]
    · simp [hFile]
  unfold scripts at hScripts
  rw [filesWith, List.filter_map, hName, hScripts]
  simp

/- Nothing changes if the script has the content already. -/
theorem filesWith_self
    {gist : StoredGist}
    {filename content : Text}
    (hScripts : gist.scripts = [(filename, content)]) :
    gist.filesWith filename content = gist.files := by
  have hScript : (filename, content) ∈ gist.scripts := by
    rw [hScripts]
    exact List.mem_singleton_self _
  have hRust : isRustName filename = true :=
    (List.mem_filter.mp hScript).2
  have hSame :
      ∀ file ∈ gist.files,
        (if file.1 = filename then (filename, content)
          else file) =
          file := by
    intro file hMem
    by_cases hFile : file.1 = filename
    · have hFound : file ∈ gist.scripts :=
        List.mem_filter.mpr ⟨hMem, by rw [hFile, hRust]⟩
      rw [hScripts, List.mem_singleton] at hFound
      rw [if_pos hFile, hFound]
    · exact if_neg hFile
  exact (List.map_congr_left hSame).trans (List.map_id' _)

end StoredGist

end ScriptWorkspace
