import Mathlib.Data.List.Perm.Basic
import ScriptWorkspace.Settings.Template

/-
  The files of a template.

  A template is a table of tables, and its leaves are the
  values that are no tables, each with the keys that lead to
  it. The files are made level by level: the leaves with one
  key come first, then those with two keys, and so on. The
  first leaf that is no string is the one that is blamed.

  Main declarations:
    * `Template.foldl_putFile_of_pairwise`
    * `Template.leaves`
    * `Template.placeOf`
    * `Template.addLevels_eq`
    * `Template.byLevel`
    * `Template.byLevel_perm_leaves`
    * `Template.files_eq`
    * `Template.files_tell_leaves`
-/

namespace ScriptWorkspace

namespace Template

------------------------------------------------------------
-- Replaced Files
------------------------------------------------------------

theorem mem_of_mem_putFile
    {path : Path}
    {content : Text}
    {files : List (Path × Text)}
    {file : Path × Text}
    (hMem : file ∈ putFile path content files) :
    file = (path, content) ∨ file ∈ files := by
  induction files with
  | nil => exact .inl (List.mem_singleton.mp hMem)
  | cons first files ih =>
      rcases first with ⟨place, old⟩
      rw [putFile] at hMem
      split at hMem
      case isTrue hSame =>
        subst hSame
        rcases List.mem_cons.mp hMem with hFirst | hRest
        · exact .inl hFirst
        · exact .inr (List.mem_cons_of_mem _ hRest)
      case isFalse =>
        rcases List.mem_cons.mp hMem with rfl | hRest
        · exact .inr List.mem_cons_self
        · rcases ih hRest with hPut | hOld
          · exact .inl hPut
          · exact .inr (List.mem_cons_of_mem _ hOld)

theorem mem_of_mem_foldl_putFile
    {found files : List (Path × Text)}
    {file : Path × Text}
    (hMem :
      file ∈
        files.foldl
          (fun found (path, content) =>
            putFile path content found)
          found) :
    file ∈ found ∨ file ∈ files := by
  induction files generalizing found with
  | nil => exact .inl hMem
  | cons first files ih =>
      rcases ih hMem with hPut | hRest
      · rcases mem_of_mem_putFile hPut with hFirst | hOld
        · exact .inr (hFirst ▸ List.mem_cons_self)
        · exact .inl hOld
      · exact .inr (List.mem_cons_of_mem _ hRest)

theorem putFile_of_forall_ne
    {path : Path}
    {files : List (Path × Text)}
    (hNew : ∀ file ∈ files, file.1 ≠ path)
    (content : Text) :
    putFile path content files =
      files ++ [(path, content)] := by
  induction files with
  | nil => rfl
  | cons first files ih =>
      rcases List.forall_mem_cons.mp hNew with
        ⟨hFirst, hRest⟩
      rw [putFile, if_neg hFirst, ih hRest]
      rfl

theorem foldl_putFile_of_pairwise
    {found files : List (Path × Text)}
    (hPaths :
      (found ++ files).Pairwise fun file other =>
        file.1 ≠ other.1) :
    files.foldl
        (fun found (path, content) =>
          putFile path content found)
        found =
      found ++ files := by
  induction files generalizing found with
  | nil => exact (List.append_nil found).symm
  | cons file files ih =>
      have hNew : ∀ other ∈ found, other.1 ≠ file.1 :=
        fun other hMem =>
          (List.pairwise_append.mp hPaths).2.2 other hMem file
            List.mem_cons_self
      have hNext :
          ((found ++ [file]) ++ files).Pairwise
            fun file other => file.1 ≠ other.1 := by
        rwa [List.append_assoc]
      rw [List.foldl_cons]
      dsimp only
      rw [putFile_of_forall_ne hNew, ih hNext,
        List.append_assoc]
      rfl

------------------------------------------------------------
-- Leaves
------------------------------------------------------------

/- A value in a template and the keys that lead to it. -/
abbrev Leaf := List Text × Toml

/- A leaf of a table that a key leads to. -/
def Leaf.under (key : Text) (leaf : Leaf) : Leaf :=
  (key :: leaf.1, leaf.2)

mutual

/- The leaves of a value: of a table, or only itself. -/
def leavesOf : Toml → List Leaf
  | .table members => leavesIn members
  | value => [([], value)]

/- The leaves of the members of a table. -/
def leavesIn : List (Text × Toml) → List Leaf
  | [] => []
  | (key, value) :: members =>
    (leavesOf value).map (Leaf.under key) ++ leavesIn members

end

/- The leaves of a template. -/
def leaves (template : Toml.Table) : List Leaf :=
  leavesIn template

/- Where keys lead to from a directory. -/
def placeOf (directory : Path) (keys : List Text) : Path :=
  keys.foldl (fun path (key : Text) => path.join key)
    directory

/- A leaf with the path that its keys lead to. -/
def Leaf.placed (directory : Path) (leaf : Leaf) :
    Path × Toml :=
  (placeOf directory leaf.1, leaf.2)

theorem leavesIn_eq_flatMap (members : Toml.Table) :
    leavesIn members =
      members.flatMap fun (key, value) =>
        (leavesOf value).map (Leaf.under key) := by
  induction members with
  | nil => rfl
  | cons member members ih =>
      rw [leavesIn, ih, List.flatMap_cons]

/- A value that is no table is its only leaf. -/
theorem leavesOf_of_table?
    {value : Toml}
    (hValue : value.table? = none) :
    leavesOf value = [([], value)] := by
  cases value with
  | table members => cases hValue
  | _ => rfl

mutual

/- No more keys lead to a leaf than tables are nested. -/
theorem length_le_depth :
    (value : Toml) →
      ∀ leaf ∈ leavesOf value, leaf.1.length ≤ depth value
  | .table members => length_le_depthOf members
  | .string _ => by simp [leavesOf]
  | .int _ => by simp [leavesOf]
  | .float _ => by simp [leavesOf]
  | .bool _ => by simp [leavesOf]
  | .date _ => by simp [leavesOf]
  | .time _ => by simp [leavesOf]
  | .dateTime _ _ _ => by simp [leavesOf]
  | .array _ => by simp [leavesOf]

theorem length_le_depthOf :
    (members : List (Text × Toml)) →
      ∀ leaf ∈ leavesIn members,
        leaf.1.length ≤ depthOf members + 1
  | [] => List.forall_mem_nil _
  | (key, value) :: members => by
      intro leaf hMem
      rw [leavesIn] at hMem
      rw [depthOf]
      rcases List.mem_append.mp hMem with hFirst | hRest
      · rcases List.mem_map.mp hFirst with
          ⟨inner, hInner, rfl⟩
        have hLength := length_le_depth value inner hInner
        simp only [Leaf.under, List.length_cons]
        omega
      · have hLength := length_le_depthOf members leaf hRest
        omega

end

------------------------------------------------------------
-- Levels
------------------------------------------------------------

/- The values that are no tables. -/
def plainOf (values : List (Path × Toml)) :
    List (Path × Toml) :=
  values.filter fun value => value.2.table?.isNone

/- The values in the tables among others. -/
def nextOf (values : List (Path × Toml)) :
    List (Path × Toml) :=
  values.flatMap fun value =>
    under value.1 (value.2.table?.getD [])

/- The values of a number of levels that are no tables. -/
def levels :
    (count : Nat) →
    List (Path × Toml) →
    List (Path × Toml)
  | 0, _ => []
  | count + 1, values =>
    plainOf values ++ levels count (nextOf values)

/- The value is no string. -/
def isOther {α : Type} (value : α × Toml) : Bool :=
  value.2.text?.isNone

/- The strings among values, as files. -/
def textsOf (values : List (Path × Toml)) :
    List (Path × Text) :=
  values.filterMap fun value =>
    value.2.text?.map fun content => (value.1, content)

/- Files with others, which replace those at their paths. -/
def withFiles (found files : List (Path × Text)) :
    List (Path × Text) :=
  files.foldl
    (fun found (path, content) => putFile path content found)
    found

/- What comes of values if the first other one is blamed. -/
def outcome
    {α : Type}
    (directory : Path)
    (values : List (Path × Toml))
    (result : α) : Except Failure α :=
  match values.find? isOther with
  | some value => .error (notAFile directory value.1)
  | none => .ok result

/- A level goes to the files unless it has another value. -/
theorem addLevel_eq
    (directory : Path)
    (values : List (Path × Toml))
    (found : List (Path × Text)) :
    addLevel directory values found =
      outcome directory (plainOf values)
        (withFiles found (textsOf (plainOf values)),
          nextOf values) := by
  induction values generalizing found with
  | nil => rfl
  | cons first values ih =>
      rcases first with ⟨path, value⟩
      cases value with
      | string content =>
          rw [addLevel, ih]
          rfl
      | table members =>
          rw [addLevel, ih]
          unfold outcome
          simp only [plainOf, List.filter_cons, Toml.table?,
            Option.isNone_some, Bool.false_eq_true, if_false]
          split
          case h_1 => rfl
          case h_2 => rfl
      | int value => rfl
      | float value => rfl
      | bool value => rfl
      | date date => rfl
      | time time => rfl
      | dateTime date time offset => rfl
      | array items => rfl

theorem withFiles_append
    (found files others : List (Path × Text)) :
    withFiles found (files ++ others) =
      withFiles (withFiles found files) others :=
  List.foldl_append

theorem textsOf_append (values others : List (Path × Toml)) :
    textsOf (values ++ others) =
      textsOf values ++ textsOf others :=
  List.filterMap_append

/- All levels go to the files, one after the other. -/
theorem addLevels_eq
    (directory : Path)
    (count : Nat)
    (values : List (Path × Toml))
    (found : List (Path × Text)) :
    addLevels directory count values found =
      outcome directory (levels count values)
        (withFiles found (textsOf (levels count values))) := by
  induction count generalizing values found with
  | zero => rfl
  | succ count ih =>
      rw [addLevels, addLevel_eq, levels, textsOf_append,
        withFiles_append]
      unfold outcome
      rw [List.find?_append]
      cases (plainOf values).find? isOther with
      | some value => rfl
      | none => exact ih _ _

------------------------------------------------------------
-- Leaves By Level
------------------------------------------------------------

/- The leaves of values with a number of further keys. -/
def levelAt
    (values : List (Path × Toml))
    (count : Nat) : List (Path × Toml) :=
  values.flatMap fun value =>
    ((leavesOf value.2).filter fun leaf =>
        leaf.1.length == count).map
      (Leaf.placed value.1)

/- A key leads to each leaf of a table. -/
theorem ne_nil_of_mem_leavesIn
    {members : Toml.Table}
    {leaf : Leaf}
    (hMem : leaf ∈ leavesIn members) : leaf.1 ≠ [] := by
  rw [leavesIn_eq_flatMap, List.mem_flatMap] at hMem
  rcases hMem with ⟨member, _, hLeaf⟩
  rcases List.mem_map.mp hLeaf with ⟨inner, _, rfl⟩
  exact List.cons_ne_nil _ _

theorem levelAt_zero (values : List (Path × Toml)) :
    levelAt values 0 = plainOf values := by
  induction values with
  | nil => rfl
  | cons first values ih =>
      rw [levelAt, List.flatMap_cons, ← levelAt, ih, plainOf,
        plainOf, List.filter_cons]
      cases hTable : first.2.table? with
      | none =>
          rw [leavesOf_of_table? hTable]
          rfl
      | some members =>
          obtain ⟨path, value⟩ := first
          cases value with
          | table inner =>
              have hNone :
                  (leavesIn inner).filter
                      (fun leaf => leaf.1.length == 0) =
                    [] := by
                apply List.filter_eq_nil_iff.mpr
                intro leaf hMem
                simp [ne_nil_of_mem_leavesIn hMem]
              rw [leavesOf, hNone]
              rfl
          | _ => cases hTable

/- One of the keys of a leaf is that of a member. -/
theorem levelAt_under
    (path : Path)
    (members : Toml.Table)
    (count : Nat) :
    levelAt (under path members) count =
      ((leavesIn members).filter fun leaf =>
          leaf.1.length == count + 1).map
        (Leaf.placed path) := by
  rw [leavesIn_eq_flatMap, List.filter_flatMap,
    List.map_flatMap, levelAt, under, List.flatMap_map]
  refine List.flatMap_congr fun member _ => ?_
  rw [List.filter_map, List.map_map]
  congr 2
  funext leaf
  simp [Leaf.under]

theorem levelAt_succ
    (values : List (Path × Toml))
    (count : Nat) :
    levelAt values (count + 1) =
      levelAt (nextOf values) count := by
  rw [levelAt, levelAt, nextOf, List.flatMap_assoc]
  refine List.flatMap_congr fun value _ => ?_
  rw [← levelAt]
  cases hTable : value.2.table? with
  | none =>
      rw [leavesOf_of_table? hTable]
      rfl
  | some members =>
      rcases value with ⟨path, value⟩
      cases value with
      | table inner =>
          cases hTable
          rw [Option.getD_some, levelAt_under, leavesOf]
      | _ => cases hTable

theorem levels_eq
    (count : Nat)
    (values : List (Path × Toml)) :
    levels count values =
      (List.range count).flatMap (levelAt values) := by
  induction count generalizing values with
  | zero => rfl
  | succ count ih =>
      rw [levels, ih, List.range_succ_eq_map,
        List.flatMap_cons, List.flatMap_map, levelAt_zero]
      congr 2
      funext count
      exact (levelAt_succ values count).symm

/- The leaves of a template, those with fewer keys first. -/
def byLevel (template : Toml.Table) : List Leaf :=
  (List.range (depthOf template + 2)).flatMap fun count =>
    (leaves template).filter fun leaf =>
      leaf.1.length == count

theorem levels_under
    (directory : Path)
    (template : Toml.Table) :
    levels (depthOf template + 1)
        (under directory template) =
      (byLevel template).map (Leaf.placed directory) := by
  have hNone :
      ((leaves template).filter fun leaf =>
          leaf.1.length == 0) =
        [] := by
    apply List.filter_eq_nil_iff.mpr
    intro leaf hMem
    simp [ne_nil_of_mem_leavesIn hMem]
  rw [levels_eq, byLevel,
    List.range_succ_eq_map (n := depthOf template + 1),
    List.flatMap_cons, hNone, List.nil_append,
    List.flatMap_map, List.map_flatMap]
  exact
    List.flatMap_congr fun count _ =>
      levelAt_under directory template count

/- Entries are the same when they are sorted into boxes. -/
theorem flatMap_range_filter_perm
    {α : Type}
    (size : α → Nat)
    (entries : List α)
    (bound : Nat) :
    ((List.range bound).flatMap fun count =>
        entries.filter fun entry => size entry == count).Perm
      (entries.filter fun entry => size entry < bound) := by
  induction bound with
  | zero => simp
  | succ bound ih =>
      have hSplit :=
        List.filter_append_perm
          (fun entry => decide (size entry < bound))
          (entries.filter fun entry => size entry < bound + 1)
      rw [List.range_succ, List.flatMap_append,
        List.flatMap_singleton]
      refine (ih.append_right _).trans (.trans ?_ hSplit)
      rw [List.filter_filter, List.filter_filter]
      apply List.Perm.of_eq
      congr 1
      · refine List.filter_congr fun entry _ => ?_
        simp only [← Bool.decide_and, decide_eq_decide]
        omega
      · refine List.filter_congr fun entry _ => ?_
        rw [Bool.eq_iff_iff]
        simp
        omega

/- No leaf is lost or counted twice level by level. -/
theorem byLevel_perm_leaves (template : Toml.Table) :
    (byLevel template).Perm (leaves template) := by
  have hAll :
      ((leaves template).filter fun leaf =>
          leaf.1.length < depthOf template + 2) =
        leaves template := by
    apply List.filter_eq_self.mpr
    intro leaf hMem
    have hLength := length_le_depthOf template leaf hMem
    exact decide_eq_true (by omega)
  have hPerm :=
    flatMap_range_filter_perm
      (fun leaf : Leaf => leaf.1.length) (leaves template)
      (depthOf template + 2)
  rwa [hAll] at hPerm

------------------------------------------------------------
-- Files
------------------------------------------------------------

/- The first leaf that is no string, those on top first. -/
def firstOther? (template : Toml.Table) : Option Leaf :=
  (byLevel template).find? isOther

/- The leaves that are strings, as files. -/
def leafFiles
    (directory : Path)
    (template : Toml.Table) : List (Path × Text) :=
  textsOf ((leaves template).map (Leaf.placed directory))

/- The files of a template by the levels of its leaves. -/
theorem files_eq
    (directory : Path)
    (template : Toml.Table) :
    files directory template =
      match firstOther? template with
      | some leaf =>
        .error
          (notAFile directory (placeOf directory leaf.1))
      | none =>
        .ok
          (withFiles []
            (textsOf
              ((byLevel template).map
                (Leaf.placed directory)))) := by
  rw [files, addLevels_eq, levels_under, outcome,
    List.find?_map, firstOther?]
  have hOther :
      (isOther ∘ Leaf.placed directory) =
        (isOther : Leaf → Bool) :=
    rfl
  rw [hOther]
  cases (byLevel template).find? isOther with
  | none => rfl
  | some leaf => rfl

/- Keys that are not absolute lead further below. -/
theorem exists_relativeTo?_placeOf
    (directory : Path)
    (names : List OsText)
    {keys : List Text}
    (hKeys :
      ∀ key ∈ keys, (Path.ofText key).isAbsolute = false) :
    ∃ place,
      (placeOf
          { directory with names := directory.names ++ names }
          keys).relativeTo? directory =
        some place := by
  induction keys generalizing names with
  | nil => simp [placeOf, Path.relativeTo?]
  | cons key keys ih =>
      rcases List.forall_mem_cons.mp hKeys with ⟨hKey, hRest⟩
      rw [placeOf, List.foldl_cons, ← placeOf, Path.join,
        Path.append, hKey, if_neg Bool.false_ne_true]
      dsimp only
      rw [List.append_assoc]
      exact ih _ hRest

/- Strings at different places make a file each. -/
theorem withFiles_byLevel_perm
    {directory : Path}
    {template : Toml.Table}
    (hPlaces :
      ((leaves template).map fun leaf =>
        placeOf directory leaf.1).Nodup) :
    (withFiles []
        (textsOf
          ((byLevel template).map
            (Leaf.placed directory)))).Perm
      (leafFiles directory template) := by
  have hPerm :
      (textsOf
          ((byLevel template).map
            (Leaf.placed directory))).Perm
        (leafFiles directory template) :=
    ((byLevel_perm_leaves template).map _).filterMap _
  have hPairwise :
      (leafFiles directory template).Pairwise
        fun file other => file.1 ≠ other.1 := by
    rw [leafFiles, textsOf, List.pairwise_filterMap,
      List.pairwise_map]
    refine (List.pairwise_map.mp hPlaces).imp ?_
    intro leaf other hApart file hFile found hFound
    rcases Option.map_eq_some_iff.mp hFile with ⟨_, _, rfl⟩
    rcases Option.map_eq_some_iff.mp hFound with ⟨_, _, rfl⟩
    exact hApart
  have hApart :=
    hPerm.symm.pairwise hPairwise fun hFile => hFile.symm
  rw [withFiles, foldl_putFile_of_pairwise hApart]
  exact hPerm

/-
  A template with leaves that are all strings makes one file
  of each, unless two of them are at one place. Otherwise the
  first leaf that is no string is blamed. If its path is not
  below the directory, which only absolute keys lead out of,
  then the failure is not one of the settings.
-/
theorem files_tell_leaves
    (directory : Path)
    (template : Toml.Table) :
    match firstOther? template with
    | none =>
      (∀ leaf ∈ leaves template, leaf.2.text?.isSome = true) ∧
        ∃ found,
          files directory template = .ok found ∧
            (((leaves template).map fun leaf =>
                placeOf directory leaf.1).Nodup →
              found.Perm (leafFiles directory template))
    | some leaf =>
      leaf ∈ leaves template ∧ leaf.2.text? = none ∧
        (∀ place,
          files directory template =
              .error (.settings (.templateEntry place)) ↔
            (placeOf directory leaf.1).relativeTo? directory =
              some place) ∧
        ((placeOf directory leaf.1).relativeTo? directory =
            none →
          files directory template =
            .error (.unexpected .pathNotBelow)) ∧
        ((∀ key ∈ leaf.1,
            (Path.ofText key).isAbsolute = false) →
          (placeOf directory leaf.1).relativeTo? directory ≠
            none) := by
  have hPerm := byLevel_perm_leaves template
  have hFiles := files_eq directory template
  unfold firstOther? at hFiles ⊢
  cases hFirst : (byLevel template).find? isOther with
  | none =>
      rw [hFirst] at hFiles
      dsimp only
      refine ⟨?_, _, hFiles, withFiles_byLevel_perm⟩
      intro leaf hMem
      have hText :=
        List.find?_eq_none.mp hFirst leaf
          (hPerm.mem_iff.mpr hMem)
      simpa [isOther, Option.isSome_iff_ne_none] using hText
  | some leaf =>
      rw [hFirst] at hFiles
      dsimp only at hFiles ⊢
      rw [hFiles]
      have hMem :=
        hPerm.mem_iff.mp (List.mem_of_find?_eq_some hFirst)
      have hOther := List.find?_some hFirst
      refine ⟨hMem, by simpa [isOther] using hOther, ?_⟩
      unfold notAFile
      refine ⟨?_, ?_, ?_⟩
      · intro place
        cases (placeOf directory leaf.1).relativeTo? directory
          <;> simp
      · intro hOutside
        rw [hOutside]
      · intro hKeys hOutside
        rcases exists_relativeTo?_placeOf directory [] hKeys
          with ⟨place, hPlace⟩
        rw [List.append_nil] at hPlace
        rw [hOutside] at hPlace
        cases hPlace

/- A template with an absolute key for what is no file. -/
def absoluteEntry : Toml.Table :=
  [("/x", .int 1)]

/- Its entry is no string, but the path of it is blamed. -/
theorem absolute_entry_blamed_otherwise :
    (["/x"].map String.toList, Toml.int 1) ∈
        leaves absoluteEntry ∧
      (Toml.int 1).text? = none ∧ (Toml.int 1).table? = none ∧
        files (Path.ofText ("/d" : String)) absoluteEntry =
            .error (.unexpected .pathNotBelow) ∧
          ∀ place,
            files (Path.ofText ("/d" : String))
                absoluteEntry ≠
              .error (.settings (.templateEntry place)) := by
  have hFiles :
      files (Path.ofText ("/d" : String)) absoluteEntry =
        .error (.unexpected .pathNotBelow) := by
    rfl
  refine ⟨by simp [absoluteEntry, leaves, leavesIn, leavesOf,
    Leaf.under], rfl, rfl, hFiles, ?_⟩
  intro place hPlace
  rw [hFiles] at hPlace
  cases hPlace

end Template

end ScriptWorkspace
