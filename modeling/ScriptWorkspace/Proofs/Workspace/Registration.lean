import ScriptWorkspace.Proofs.Workspace.Tasks
import ScriptWorkspace.Proofs.Workspace.Virtual

/-
  Scripts that are kept as members of a workspace.

  A script is kept in the member of its name, or in a new one
  in a directory that is named after it. When that has come to
  its end, the files of the member hold the manifest and the
  script, whether they were written or were so before, and
  there is still no package at the root of the workspace.

  Main declarations:
    * `Workspace.memberManifest`
    * `Workspace.IsKept`
    * `Workspace.spelledLocation_sourceBeside_ne`
    * `Workspace.isKept_of_writeSources`
    * `Workspace.CanRegister`
    * `Workspace.isKept_of_registerScript`
-/

namespace ScriptWorkspace

open ScriptWorkspace.Action Storage Storage.Calls

variable {ω : Type}
variable {outside : Outside ω}
variable {place : Location}
variable {tree : Tree}

------------------------------------------------------------
-- Texts That Stay
------------------------------------------------------------

/- A text stays if the tree grows and its file is kept. -/
theorem Files.textAt_of_keepsFile
    {other : Tree}
    {path : Path}
    {text : Text}
    (hGrows : tree.GrowsInto other)
    (hKeeps : tree.KeepsFile (spelledLocation place path) other)
    (hText : textAt place tree path = .ok text) :
    textAt place other path = .ok text := by
  rcases textAt_eq_ok_iff.mp hText with
    ⟨hUsable, location, hResolved, hFound⟩
  rw [← spelledLocation_of_resolve hResolved] at hKeeps
  refine
    textAt_eq_ok_iff.mpr
      ⟨hUsable, location, hGrows.resolve_eq_ok hResolved, ?_⟩
  rcases hGrows location _ hFound with
    ⟨left, hLeft, hBecomes⟩
  cases hBecomes with
  | same => exact hLeft
  | rewritten old new =>
      cases hFound.symm.trans (hKeeps _ hLeft)
      exact hLeft

------------------------------------------------------------
-- Last Names
------------------------------------------------------------

namespace Path

/- What is put after a text is put after its last piece. -/
theorem exists_pieces_append
    (text : OsText)
    {ending : OsText}
    (hEnding : ∀ unit ∈ ending, isSeparator unit = false) :
    ∃ front last,
      pieces (text ++ ending) = front ++ [last ++ ending] := by
  induction text with
  | nil => exact ⟨[], [], pieces_of_no_separator hEnding⟩
  | cons unit rest ih =>
      rcases ih with ⟨front, last, hRest⟩
      rw [List.cons_append, pieces, hRest]
      split
      case isTrue => exact ⟨[] :: front, last, rfl⟩
      case isFalse =>
        cases front with
        | nil => exact ⟨[], unit :: last, rfl⟩
        | cons piece front =>
            exact ⟨(unit :: piece) :: front, last, rfl⟩

theorem isName_append
    (stem : OsText)
    {ending : OsText}
    (hEnding : 1 < ending.length) :
    isName (stem ++ ending) = true := by
  have hLength : 1 < (stem ++ ending).length := by
    rw [List.length_append]
    omega
  generalize stem ++ ending = name at hLength
  rcases name with _ | ⟨unit, _ | ⟨next, rest⟩⟩
  · simp at hLength
  · simp at hLength
  · simp [isName]

/- A path that is joined ends as its text does. -/
theorem exists_join_append
    (path : Path)
    (text : OsText)
    {ending : OsText}
    (hEnding : ∀ unit ∈ ending, isSeparator unit = false)
    (hLength : 1 < ending.length) :
    ∃ directory stem,
      path.join (text ++ ending) =
        child directory (stem ++ ending) := by
  rcases exists_pieces_append text hEnding with
    ⟨front, last, hPieces⟩
  have hNames :
      (ofText (text ++ ending)).names =
        front.filter isName ++ [last ++ ending] := by
    rw [ofText, hPieces, List.filter_append,
      List.filter_singleton, isName_append last hLength,
      cond_true]
  cases hAbsolute : (ofText (text ++ ending)).isAbsolute with
  | true =>
      refine
        ⟨{ anchor := (ofText (text ++ ending)).anchor
           names := front.filter isName },
          last, ?_⟩
      rw [join, append, if_pos hAbsolute, child, ← hNames]
  | false =>
      refine
        ⟨{ path with
           names := path.names ++ front.filter isName },
          last, ?_⟩
      rw [join, append, hAbsolute, hNames, child,
        List.append_assoc]
      rfl

end Path

namespace Workspace

variable {session after : Session ω}
variable {path other directory : Path}
variable {binary : Option OsText}
variable {manifest script content text name : Text}

/- What is kept current elsewhere leaves a text alone. -/
theorem textAt_of_other
    {written : Bool}
    (hOther :
      spelledLocation outside.directory.names path ≠
        spelledLocation outside.directory.names other)
    (hRun :
      (writeUnlessCurrent path content false).perform outside
          session =
        (.ok written, after))
    (hText :
      Files.textAt outside.directory.names session.tree
          other =
        .ok text) :
    Files.textAt outside.directory.names after.tree other =
      .ok text := by
  let elsewhere : Region :=
    { files :=
        (· ≠ spelledLocation outside.directory.names other)
      directories := fun _ => True }
  have hAdmits :
      elsewhere.Admits outside.directory.names path :=
    ⟨hOther, fun _ => trivial⟩
  have hStays :=
    staysWithin_writeUnlessCurrent content hAdmits session
  unfold StaysFrom at hStays
  rw [hRun] at hStays
  exact
    Files.textAt_of_keepsFile
      (growsInto_of_writeUnlessCurrent hRun)
      (hStays.keepsFile (not_not_intro rfl)) hText

/- A file that is current has the content already. -/
theorem textAt_of_currentAt
    (hCurrent :
      currentAt place tree path content = .ok true) :
    Files.textAt place tree path = .ok content := by
  unfold currentAt at hCurrent
  split at hCurrent
  case h_1 => cases hCurrent
  case h_2 => cases hCurrent
  case h_3 =>
    cases hText : Files.textAt place tree path with
    | error failure => simp [hText, Except.map] at hCurrent
    | ok text =>
        simp only [hText, Except.map, Except.ok.injEq,
          beq_iff_eq] at hCurrent
        rw [hCurrent]

/- What is kept current has its content in the end. -/
theorem textAt_of_writeUnlessCurrent
    {written : Bool}
    (hRun :
      (writeUnlessCurrent path content false).perform outside
          session =
        (.ok written, after)) :
    Files.textAt outside.directory.names after.tree path =
      .ok content := by
  rw [perform_writeUnlessCurrent] at hRun
  cases hCurrent :
      currentAt outside.directory.names session.tree path
        content with
  | error failure =>
      rw [hCurrent] at hRun
      cases hRun
  | ok current =>
      rw [hCurrent] at hRun
      cases current with
      | true =>
          cases hRun
          exact textAt_of_currentAt hCurrent
      | false =>
          rcases exists_of_perform_bind hRun with
            ⟨_, between, hWrite, hRest⟩
          cases hRest
          exact Files.textAt_of_write hWrite

------------------------------------------------------------
-- Names Of Sources
------------------------------------------------------------

/- The source of a package ends in the suffix of its kind. -/
theorem exists_sourceBeside
    (path : Path)
    (binary : Option OsText) :
    ∃ directory stem,
      sourceBeside path binary =
        Path.child directory (stem ++ (".rs" : OsText)) := by
  have hMain :
      ∃ directory stem,
        (path.parent.join "src").join "main.rs" =
          Path.child directory (stem ++ (".rs" : OsText)) :=
    ⟨path.parent.join "src", "main", rfl⟩
  cases binary with
  | none => exact hMain
  | some name =>
      unfold sourceBeside
      dsimp only
      split
      case isTrue => exact hMain
      case isFalse =>
        have hWording :
            wording [name, ".rs"] = name ++ (".rs" : OsText) := by
          simp [wording]
        rw [hWording]
        exact
          Path.exists_join_append _ name (by decide) (by decide)

theorem getLast?_source (stem : OsText) :
    (stem ++ (".rs" : OsText)).getLast? = some (.char 's') := by
  simp

theorem source_ne_parentName (stem : OsText) :
    stem ++ (".rs" : OsText) ≠ Tree.parentName := by
  intro hSame
  have hLast := getLast?_source stem
  rw [hSame] at hLast
  cases hLast

/- A source is not where the manifest of a directory is. -/
theorem spelledLocation_sourceBeside_ne
    (place : Location)
    (path directory : Path)
    (binary : Option OsText) :
    spelledLocation place (sourceBeside path binary) ≠
      spelledLocation place (manifestIn directory) := by
  rcases exists_sourceBeside path binary with
    ⟨beside, stem, hSource⟩
  rw [hSource, manifestIn_eq_child,
    spelledLocation_child (source_ne_parentName stem),
    spelledLocation_child (by decide)]
  intro hSame
  have hEnds : stem ++ (".rs" : OsText) = fileName :=
    List.singleton_inj.mp (List.append_inj' hSame rfl).2
  have hLast := getLast?_source stem
  rw [hEnds] at hLast
  cases hLast

------------------------------------------------------------
-- Files Of A Member
------------------------------------------------------------

/- The files of a member are those that a script makes. -/
structure IsKept
    (place : Location)
    (tree : Tree)
    (path : Path)
    (binary : Option OsText)
    (manifest script : Text) : Prop where
  manifest : Files.textAt place tree path = .ok manifest
  source :
    Files.textAt place tree (sourceBeside path binary) =
      .ok script

/- The files of a member are made or left as they are. -/
def writeSources
    (path : Path)
    (binary : Option OsText)
    (manifest script name : Text) : Action ω Text := do
  let source := sourceBeside path binary
  Files.makeDirectories source.parent false
  let _ ← writeUnlessCurrent path manifest false
  let _ ← writeUnlessCurrent source script false
  return name

/- Then they are those of the script, if they are two. -/
theorem isKept_of_writeSources
    {found : Text}
    (hApart :
      spelledLocation outside.directory.names
          (sourceBeside path binary) ≠
        spelledLocation outside.directory.names path)
    (hRun :
      (writeSources path binary manifest script name).perform
          outside session =
        (.ok found, after)) :
    found = name ∧
      IsKept outside.directory.names after.tree path binary
        manifest script := by
  rcases exists_of_perform_bind hRun with
    ⟨_, made, _, hRun⟩
  rcases exists_of_perform_bind hRun with
    ⟨_, between, hManifest, hRun⟩
  rcases exists_of_perform_bind hRun with
    ⟨_, last, hSource, hDone⟩
  cases hDone
  exact
    ⟨rfl,
      textAt_of_other hApart hSource
        (textAt_of_writeUnlessCurrent hManifest),
      textAt_of_writeUnlessCurrent hSource⟩

/- The manifest of another directory is left alone. -/
theorem textAt_of_writeSources
    {found : Text}
    (hOther :
      spelledLocation outside.directory.names path ≠
        spelledLocation outside.directory.names
          (manifestIn directory))
    (hRun :
      (writeSources path binary manifest script name).perform
          outside session =
        (.ok found, after))
    (hText :
      Files.textAt outside.directory.names session.tree
          (manifestIn directory) =
        .ok text) :
    Files.textAt outside.directory.names after.tree
        (manifestIn directory) =
      .ok text := by
  rcases exists_of_perform_bind hRun with
    ⟨_, made, hMake, hRun⟩
  rcases exists_of_perform_bind hRun with
    ⟨_, between, hManifest, hRun⟩
  rcases exists_of_perform_bind hRun with
    ⟨_, last, hSource, hDone⟩
  cases hDone
  have hGains := Files.gainsDirectories_of_makeDirectories hMake
  have hMade :
      Files.textAt outside.directory.names made.tree
          (manifestIn directory) =
        .ok text := by
    rcases Files.textAt_eq_ok_iff.mp hText with
      ⟨hUsable, location, hResolved, hFound⟩
    exact
      Files.textAt_eq_ok_iff.mpr
        ⟨hUsable, location,
          hGains.growsInto.resolve_eq_ok hResolved,
          hGains.kept _ _ hFound⟩
  exact
    textAt_of_other
      (spelledLocation_sourceBeside_ne _ _ _ _) hSource
      (textAt_of_other hOther hManifest hMade)

variable {root : Path}

/- So a workspace elsewhere stays virtual. -/
theorem isVirtual_of_writeSources
    {found : Text}
    (hOther :
      spelledLocation outside.directory.names path ≠
        spelledLocation outside.directory.names
          (manifestIn root))
    (hVirtual :
      IsVirtual outside.directory.names session.tree root)
    (hRun :
      (writeSources path binary manifest script name).perform
          outside session =
        (.ok found, after)) :
    IsVirtual outside.directory.names after.tree root := by
  rcases hVirtual with ⟨text, table, hText, hTable⟩
  exact
    ⟨text, table, textAt_of_writeSources hOther hRun hText,
      hTable⟩

------------------------------------------------------------
-- Registration
------------------------------------------------------------

variable {metadata : Cargo.Metadata}

/- The manifest of the member of a name, old or new. -/
def memberManifest
    (metadata : Cargo.Metadata)
    (name : Text) : Path :=
  match metadata.findMember? name with
  | some member => member.manifest
  | none => manifestIn (metadata.root.join name)

/- The name is one component of a path and does not lead up. -/
def IsComponent (name : Text) : Prop :=
  ∃ component,
    component ≠ Tree.parentName ∧
      Path.ofText name =
        { anchor := .relative, names := [component] }

theorem IsComponent.exists_child
    (hName : IsComponent name)
    (root : Path) :
    ∃ component,
      component ≠ Tree.parentName ∧
        root.join name = root.child component := by
  rcases hName with ⟨component, hUp, hComponent⟩
  refine ⟨component, hUp, ?_⟩
  rw [Path.join, hComponent]
  rfl

/- A directory in another one has a manifest of its own. -/
theorem IsComponent.spelledLocation_ne
    (hName : IsComponent name)
    (place : Location)
    (root : Path) :
    spelledLocation place (manifestIn (root.join name)) ≠
      spelledLocation place (manifestIn root) := by
  rcases hName.exists_child root with
    ⟨component, hUp, hChild⟩
  have hFile : fileName ≠ Tree.parentName := by decide
  rw [hChild, manifestIn_eq_child, manifestIn_eq_child,
    spelledLocation_child hFile, spelledLocation_child hFile,
    spelledLocation_child hUp]
  intro hSame
  have hLength := congrArg List.length hSame
  simp at hLength

/-
  What is asked of a script of a name: it is one component of
  a path; a member of the name is elsewhere than the manifest
  of the workspace, and its source elsewhere than its manifest;
  for a new member, that manifest is edited as what it is.
-/
structure CanRegister
    (place : Location)
    (tree : Tree)
    (metadata : Cargo.Metadata)
    (name : Text)
    (binary : Option OsText) : Prop where
  component : IsComponent name
  elsewhere :
    ∀ member,
      metadata.findMember? name = some member →
        spelledLocation place member.manifest ≠
          spelledLocation place (manifestIn metadata.root)
  apart :
    ∀ member,
      metadata.findMember? name = some member →
        spelledLocation place
            (sourceBeside member.manifest binary) ≠
          spelledLocation place member.manifest
  faithful :
    metadata.findMember? name = none →
      Membership.IsFaithful place tree metadata.root
        (.include (metadata.root.join name))

/- A new package is made a member of a virtual workspace. -/
theorem isVirtual_of_addPackage
    (hVirtual :
      IsVirtual outside.directory.names session.tree root)
    (hFaithful :
      Membership.IsFaithful outside.directory.names
        session.tree root (.include (root.join name)))
    (hRun :
      (addPackage root name false).perform outside session =
        (.ok path, after)) :
    IsVirtual outside.directory.names after.tree root := by
  rcases exists_of_perform_bind hRun with
    ⟨found, between, hAsk, hRest⟩
  have hAsks :
      OnlyAsks outside (Files.pathExists (root.join name)) :=
    Files.onlyAsks_pathExists _
  have hAsked := (hAsks session).tree
  rw [hAsk] at hAsked
  split at hRest
  case isTrue => cases hRest
  case isFalse =>
    rcases exists_of_perform_bind hRest with
      ⟨report, later, hModify, hDone⟩
    cases hDone
    rw [← hAsked] at hVirtual hFaithful
    exact isVirtual_of_modify hVirtual hFaithful hModify

/-
  A script that is registered makes the files of its member
  what they are to be, and the workspace stays virtual.
-/
theorem isKept_of_registerScript
    {package : Text}
    (hVirtual :
      IsVirtual outside.directory.names session.tree
        metadata.root)
    (hCan :
      ∀ name,
        Manifest.packageName manifest = .ok name →
          CanRegister outside.directory.names session.tree
            metadata name binary)
    (hRun :
      (registerScript metadata manifest script binary
          false).perform outside session =
        (.ok package, after)) :
    Manifest.packageName manifest = .ok package ∧
      IsVirtual outside.directory.names after.tree
          metadata.root ∧
        IsKept outside.directory.names after.tree
          (memberManifest metadata package) binary manifest
          script := by
  rcases exists_of_perform_bind hRun with
    ⟨name, _, hName, hRest⟩
  cases hPackage : Manifest.packageName manifest with
  | error failure =>
      rw [hPackage] at hName
      cases hName
  | ok found =>
      rw [hPackage] at hName
      cases hName
      have hCanDo := hCan name hPackage
      dsimp only at hRest
      cases hMember : metadata.findMember? name with
      | some member =>
          rw [hMember] at hRest
          rcases exists_of_perform_bind hRest with
            ⟨_, between, hLog, hRest⟩
          have hLogged : between.tree = session.tree := by
            cases hLog
            rfl
          rw [← hLogged] at hVirtual
          have hWrite :
              (writeSources member.manifest binary manifest
                    script name).perform outside between =
                (.ok package, after) :=
            hRest
          rcases isKept_of_writeSources
              (hCanDo.apart member hMember) hWrite with
            ⟨rfl, hKept⟩
          have hSame :=
            isVirtual_of_writeSources
              (hCanDo.elsewhere member hMember) hVirtual hWrite
          rw [memberManifest, hMember]
          exact ⟨rfl, hSame, hKept⟩
      | none =>
          rw [hMember] at hRest
          rcases exists_of_perform_bind hRest with
            ⟨path, between, hAdd, hRest⟩
          cases manifest_of_addPackage hAdd
          have hWrite :
              (writeSources
                    (manifestIn (metadata.root.join name))
                    binary manifest script name).perform
                  outside between =
                (.ok package, after) :=
            hRest
          rcases isKept_of_writeSources
              (spelledLocation_sourceBeside_ne _ _ _ _)
              hWrite with
            ⟨rfl, hKept⟩
          have hAdded :=
            isVirtual_of_addPackage hVirtual
              (hCanDo.faithful hMember) hAdd
          have hSame :=
            isVirtual_of_writeSources
              (hCanDo.component.spelledLocation_ne _ _) hAdded
              hWrite
          rw [memberManifest, hMember]
          exact ⟨rfl, hSame, hKept⟩

end Workspace

end ScriptWorkspace
