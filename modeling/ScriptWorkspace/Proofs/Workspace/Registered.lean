import ScriptWorkspace.Proofs.Session.Failing
import ScriptWorkspace.Proofs.Workspace.Confinement
import ScriptWorkspace.Proofs.Workspace.Registration

/-
  What registering a script changes.

  The two files of a member are written, and a path becomes a
  member by an edit of the manifest of the workspace, if there
  is no member of the name. Only the files are written after
  that, so what fails with a fault of the workspace has left
  all files as they were.

  Main declarations:
    * `Membership.IsIncluded`
    * `Membership.ReadsIncluded`
    * `Workspace.IsBinary`
    * `Workspace.includedRegion`
    * `Workspace.registered_script_is_kept`
-/

namespace ScriptWorkspace

open ScriptWorkspace.Action Storage Storage.Calls

variable {ω : Type}
variable {outside : Outside ω}
variable {place : Location}
variable {tree other : Tree}

/- A file at the location is still there as it was. -/
def Storage.Tree.StaysAt
    (location : Location)
    (tree other : Tree) : Prop :=
  ∀ content,
    tree.find? location = some (.file content) →
      other.find? location = some (.file content)

------------------------------------------------------------
-- Members
------------------------------------------------------------

namespace Membership

open Toml.Layout (parse render bodyTable)

variable {root path : Path}

/-
  A path is a member of a workspace by an edit of the manifest
  that was there before, which does nothing else but to take
  out the first entry that excludes the path.
-/
def IsIncluded
    (place : Location)
    (root path : Path)
    (tree other : Tree) : Prop :=
  ∃ original document updated report,
    tree.find? (manifestLocation place root) =
        some (.file (.text original)) ∧
      parse original = .ok document ∧
      Edits root (.include path) (bodyTable document)
        (bodyTable updated) report ∧
      path ∈ rosterOf root (bodyTable updated) .members ∧
      rosterOf root (bodyTable updated) .exclude =
        (rosterOf root (bodyTable document) .exclude).erase
          path ∧
      other.find? (manifestLocation place root) =
        some (.file (.text (render updated)))

/-
  What is read of a workspace before and after a path is made
  a member: that is all that is done to what it names, so the
  path is a member then, and the first entry that excludes it
  is gone.
-/
def ReadsIncluded
    (place : Location)
    (root path : Path)
    (tree other : Tree) : Prop :=
  ∃ before now,
    rosterAt place tree root = some before ∧
      rosterAt place other root = some now ∧
      now = (Change.include path).applyTo root before ∧
      path ∈ now .members ∧
      now .exclude = (before .exclude).erase path

section Included

variable (hReached : reached root path = path)

include hReached

/- A path that is made a member is one of the roster. -/
theorem mem_applyTo_include (roster : Roster) :
    path ∈
      (Change.include path).applyTo root roster .members := by
  have hMember :
      reached root path ∈
        (Change.include path).applyTo root roster .members :=
    mem_applyTo_of_add rfl rfl
  rwa [hReached] at hMember

/- And the first entry that excludes it is taken out. -/
theorem applyTo_include_exclude (roster : Roster) :
    (Change.include path).applyTo root roster .exclude =
      (roster .exclude).erase path := by
  have hErased :
      (Change.include path).applyTo root roster .exclude =
        (roster .exclude).erase (reached root path) :=
    rfl
  rw [hErased, hReached]

theorem isIncluded_of_isEdited
    (hEdited :
      IsEdited place root (.include path) tree other) :
    IsIncluded place root path tree other := by
  rcases hEdited with
    ⟨original, document, updated, report, hBefore, hParse,
      hEdits, hAfter⟩
  have hRoster := hEdits.rosterOf_eq
  refine
    ⟨original, document, updated, report, hBefore, hParse,
      hEdits, ?_, ?_, hAfter⟩
  · rw [hRoster]
    exact mem_applyTo_include hReached _
  · rw [hRoster]
    exact applyTo_include_exclude hReached _

end Included

end Membership

------------------------------------------------------------
-- Sources Beside A Manifest
------------------------------------------------------------

namespace Storage.Calls

theorem plainNames_plainNames
    (done front back : List OsText) :
    plainNames done (front ++ back) =
      plainNames (plainNames done front) back := by
  induction front generalizing done with
  | nil => rfl
  | cons name front ih =>
      simp only [List.cons_append, plainNames]
      split
      · exact ih _
      · exact ih _

/- A path is one name longer than what it is in, at most. -/
theorem length_spelledLocation_le
    (place : Location)
    (path : Path) :
    (spelledLocation place path).length ≤
      (spelledLocation place path.parent).length + 1 := by
  have hAbsolute : path.parent.isAbsolute = path.isAbsolute :=
    rfl
  unfold spelledLocation
  rw [hAbsolute]
  rcases List.eq_nil_or_concat path.names with
    hNil | ⟨front, last, hNames⟩
  · simp [Path.parent, hNil]
  · have hParent : path.parent.names = front := by
      simp [Path.parent, hNames]
    rw [hParent, hNames, List.concat_eq_append,
      plainNames_plainNames]
    simp only [plainNames]
    split
    · rw [List.length_dropLast]
      omega
    · rw [List.length_append, List.length_singleton]

end Storage.Calls

namespace Workspace

open ScriptWorkspace.Membership

variable {path directory : Path}
variable {binary : Option OsText}

/- The name of a binary is one component, if there is one. -/
def IsBinary (binary : Option OsText) : Prop :=
  ∀ name,
    binary = some name →
      ∀ unit ∈ name, Path.isSeparator unit = false

/- A name with a suffix is a name, and does not lead up. -/
theorem ofText_source
    {name : OsText}
    (hName : ∀ unit ∈ name, Path.isSeparator unit = false) :
    Path.ofText (name ++ (".rs" : OsText)) =
      { anchor := .relative
        names := [name ++ (".rs" : OsText)] } := by
  have hPlain :
      ∀ unit ∈ name ++ (".rs" : OsText),
        Path.isSeparator unit = false := by
    intro unit hMem
    rcases List.mem_append.mp hMem with hStem | hSuffix
    · exact hName unit hStem
    · have hAll :
          ∀ unit ∈ (".rs" : OsText),
            Path.isSeparator unit = false := by
        decide
      exact hAll unit hSuffix
  have hNone :
      (name ++ (".rs" : OsText)).takeWhile Path.isSeparator =
        [] := by
    rw [List.takeWhile_eq_nil_iff]
    intro hLength
    rw [hPlain _ (List.get_mem _ _)]
    exact Bool.false_ne_true
  rw [Path.ofText, Path.pieces_of_no_separator hPlain,
    Path.anchorOf, hNone, List.filter_singleton,
    Path.isName_append name (by decide)]
  rfl

/- The source of a binary is deeper than the manifest. -/
theorem exists_sourceBeside_onward
    (hBinary : IsBinary binary)
    (path : Path) :
    ∃ front last,
      sourceBeside path binary =
          path.parent.onward (front ++ [last]) ∧
        front ≠ [] ∧
        Tree.parentName ∉ front ++ [last] := by
  have hMain :
      ∃ front last,
        (path.parent.join "src").join "main.rs" =
            path.parent.onward (front ++ [last]) ∧
          front ≠ [] ∧
          Tree.parentName ∉ front ++ [last] := by
    refine ⟨["src"], "main.rs", ?_, by simp, by decide⟩
    rw [main_eq_child]
    simp [Path.child, Path.onward]
  cases binary with
  | none => exact hMain
  | some name =>
      unfold sourceBeside
      dsimp only
      split
      case isTrue => exact hMain
      case isFalse =>
        refine
          ⟨["src", "bin"], name ++ (".rs" : OsText), ?_, by simp,
            ?_⟩
        · have hWording :
              wording [name, ".rs"] =
                name ++ (".rs" : OsText) := by
            simp [wording]
          have hBin :
              (path.parent.join "src").join "bin" =
                (path.parent.child "src").child "bin" :=
            rfl
          rw [hWording, hBin, Path.join,
            ofText_source (hBinary name rfl)]
          simp [Path.append, Path.isAbsolute, Path.child,
            Path.onward]
        · have hLast := source_ne_parentName name
          simp only [List.cons_append, List.nil_append,
            List.mem_cons, List.not_mem_nil, or_false, not_or]
          exact ⟨by decide, by decide, hLast.symm⟩

/- So the two are different files. -/
theorem spelledLocation_sourceBeside_ne_self
    (hBinary : IsBinary binary)
    (place : Location)
    (path : Path) :
    spelledLocation place (sourceBeside path binary) ≠
      spelledLocation place path := by
  rcases exists_sourceBeside_onward hBinary path with
    ⟨front, last, hSource, hFront, hNames⟩
  rw [hSource, spelledLocation_onward hNames]
  intro hSame
  have hLength := congrArg List.length hSame
  have hPath := length_spelledLocation_le place path
  have hDeep : 0 < front.length :=
    List.length_pos_iff.mpr hFront
  simp only [List.length_append, List.length_singleton]
    at hLength
  omega

/- The files of a member, and what leads to its source. -/
def sourcesRegion
    (place : Location)
    (path : Path)
    (binary : Option OsText) : Region where
  files location :=
    location = spelledLocation place path ∨
      location =
        spelledLocation place (sourceBeside path binary)
  directories location :=
    ∃ n,
      location =
        spelledLocation place
          ((sourceBeside path binary).parent.upTo n)

/- The files of a member are all that is written to it. -/
theorem changesWithin_of_writeSources
    (hBinary : IsBinary binary)
    (path : Path)
    (manifest script name : Text)
    (session : Session ω) :
    session.tree.ChangesWithin
      (sourcesRegion outside.directory.names path binary)
      ((writeSources path binary manifest script name).perform
        outside session).2.tree := by
  rcases exists_sourceBeside_onward hBinary path with
    ⟨front, last, hSource, _, _⟩
  have hAbove :
      (sourceBeside path binary).parent =
        path.parent.onward front := by
    rw [hSource, Path.parent_onward]
  refine
    staysWithin_writeSources manifest script name ?_ ?_ session
  · refine ⟨.inl rfl, fun n => ?_⟩
    rw [path.parent.upTo_onward front, ← hAbove]
    exact ⟨_, rfl⟩
  · exact ⟨.inr rfl, fun n => ⟨n, rfl⟩⟩

/- They can only fail with a fault of the files. -/
theorem failsOn_writeSources
    (path : Path)
    (binary : Option OsText)
    (manifest script name : Text) :
    FailsOn outside Failure.IsElse
      (writeSources path binary manifest script name) :=
  .bind (Files.failsOn_makeDirectories _) fun _ =>
    .bind (failsOn_writeUnlessCurrent _ _) fun _ =>
      .bind_pure (failsOn_writeUnlessCurrent _ _)

------------------------------------------------------------
-- Registration
------------------------------------------------------------

variable {metadata : Cargo.Metadata}
variable {manifest script name found : Text}
variable {session after : Session ω}

/- The manifest of the member of a name, which is made. -/
def prepareMember
    (metadata : Cargo.Metadata)
    (name : Text) : Action ω Path :=
  match metadata.findMember? name with
  | some member => do
    Action.logInfo
      ["`", name, "` already exists: ", metadata.root.text]
    pure member.manifest
  | none => addPackage metadata.root name false

theorem registerScript_eq
    (metadata : Cargo.Metadata)
    (manifest script : Text)
    (binary : Option OsText) :
    (registerScript metadata manifest script binary false :
        Action ω Text) = (do
      let name ← Action.ofExcept (Manifest.packageName manifest)
      let path ← prepareMember metadata name
      writeSources path binary manifest script name) := by
  unfold registerScript
  refine congrArg (_ >>= ·) (funext fun name => ?_)
  unfold prepareMember
  cases metadata.findMember? name with
  | none => rfl
  | some member =>
      simp only [bind_assoc, pure_bind]
      rfl

/- A script is registered in two steps, for its name. -/
theorem exists_of_registerScript
    (hRun :
      (registerScript metadata manifest script binary
          false).perform outside session =
        (.ok found, after)) :
    ∃ name path between,
      Manifest.packageName manifest = .ok name ∧
        (prepareMember metadata name).perform outside
            session =
          (.ok path, between) ∧
        (writeSources path binary manifest script
            name).perform outside between =
          (.ok found, after) := by
  rw [registerScript_eq] at hRun
  rcases exists_of_perform_bind hRun with
    ⟨name, start, hName, hRest⟩
  rcases exists_of_perform_bind hRest with
    ⟨path, between, hPrepared, hWrite⟩
  rcases eq_of_perform_ofExcept hName with ⟨hGiven, rfl⟩
  exact ⟨name, path, between, hGiven, hPrepared, hWrite⟩

/- A member that is there is only named in the log. -/
theorem prepared_of_member
    {member : Cargo.Package}
    {path : Path}
    (hMember : metadata.findMember? name = some member)
    (hRun :
      (prepareMember metadata name).perform outside session =
        (.ok path, after)) :
    path = member.manifest ∧ after.tree = session.tree := by
  rw [prepareMember, hMember] at hRun
  rcases exists_of_perform_bind hRun with
    ⟨_, between, hLog, hPure⟩
  cases hLog
  cases hPure
  exact ⟨rfl, rfl⟩

/- A new one is made by a change of the members. -/
theorem modifyRun_of_addPackage
    {root path : Path}
    (hRun :
      (addPackage root name false).perform outside session =
        (.ok path, after)) :
    ∃ report asked,
      asked.tree = session.tree ∧
        ModifyRun outside root (.include (root.join name))
          false asked (.ok report) after := by
  rcases exists_of_perform_bind hRun with
    ⟨found, asked, hAsk, hRest⟩
  have hAsks :
      OnlyAsks outside (Files.pathExists (root.join name)) :=
    Files.onlyAsks_pathExists _
  have hAsked := (hAsks session).tree
  rw [hAsk] at hAsked
  split at hRest
  case isTrue => cases hRest
  case isFalse =>
    rcases exists_of_perform_bind hRest with
      ⟨report, later, hModify, hDone⟩
    cases hDone
    exact
      ⟨report, asked, hAsked, modifyRun_of_perform hModify⟩

/- If it cannot be made, all files are as they were. -/
theorem tree_of_prepareMember_failed
    {failure : Failure}
    (hRun :
      (prepareMember metadata name).perform outside session =
        (.error failure, after)) :
    after.tree = session.tree := by
  unfold prepareMember at hRun
  split at hRun
  case h_1 => cases hRun
  case h_2 =>
    have hAsks :
        OnlyAsks outside
          (Files.pathExists (metadata.root.join name)) :=
      Files.onlyAsks_pathExists _
    have hAsked := (hAsks session).tree
    rcases failed_of_perform_bind hRun with
      hFails | ⟨found, asked, hAsk, hRest⟩
    · rw [hFails] at hAsked
      exact hAsked
    · rw [hAsk] at hAsked
      rw [← hAsked]
      split at hRest
      case isTrue =>
        cases hRest
        rfl
      case isFalse =>
        rcases failed_of_perform_bind hRest with
          hModify | ⟨report, later, _, hDone⟩
        · exact
            tree_of_modify_failed (modifyRun_of_perform hModify)
        · cases hDone

/-
  What fails with a fault of a manifest, a path or a workspace
  has left all files as they were.
-/
theorem tree_of_registerScript_failed
    {dryRun : Bool}
    {failure : Failure}
    (hAbout : failure.IsAboutWorkspace)
    (hRun :
      (registerScript metadata manifest script binary
          dryRun).perform outside session =
        (.error failure, after)) :
    after.tree = session.tree := by
  cases dryRun with
  | true =>
      have hDry :
          OnlyAsks outside
            (registerScript metadata manifest script binary
              true) :=
        onlyAsks_registerScript _ _ _ _
      have hTree := (hDry session).tree
      rw [hRun] at hTree
      exact hTree
  | false =>
      rw [registerScript_eq] at hRun
      rcases failed_of_perform_bind hRun with
        hName | ⟨name, start, hName, hRest⟩
      · rw [(eq_of_perform_ofExcept hName).2]
      · rcases eq_of_perform_ofExcept hName with ⟨_, rfl⟩
        rcases failed_of_perform_bind hRest with
          hPrepared | ⟨path, between, _, hWrite⟩
        · exact tree_of_prepareMember_failed hPrepared
        · exact
            absurd hAbout
              (failsOn_writeSources path binary manifest script
                name between failure after hWrite)

/- A new member, and the manifest of its workspace. -/
def includedRegion
    (place : Location)
    (root directory : Path)
    (binary : Option OsText) : Region :=
  { sourcesRegion place (manifestIn directory) binary with
    files := fun location =>
      (sourcesRegion place (manifestIn directory)
          binary).files location ∨
        location = manifestLocation place root }

section Kept

variable (hBinary : IsBinary binary)
variable
  (hRun :
    (registerScript metadata manifest script binary
        false).perform outside session =
      (.ok found, after))

include hBinary hRun

/- A member that is there is brought up to date. -/
theorem kept_of_member
    {member : Cargo.Package}
    (hName : Manifest.packageName manifest = .ok name)
    (hMember : metadata.findMember? name = some member) :
    found = name ∧
      IsKept outside.directory.names after.tree
          member.manifest binary manifest script ∧
        session.tree.ChangesWithin
          (sourcesRegion outside.directory.names
            member.manifest binary)
          after.tree := by
  rcases exists_of_registerScript hRun with
    ⟨given, path, between, hGiven, hPrepared, hWrite⟩
  cases hName.symm.trans hGiven
  rcases prepared_of_member hMember hPrepared with
    ⟨rfl, hSame⟩
  have hApart :=
    spelledLocation_sourceBeside_ne_self hBinary
      outside.directory.names member.manifest
  rcases isKept_of_writeSources hApart hWrite with
    ⟨rfl, hKept⟩
  have hChanges :=
    @changesWithin_of_writeSources ω outside binary hBinary
      member.manifest manifest script found between
  rw [hWrite, hSame] at hChanges
  exact ⟨rfl, hKept, hChanges⟩

/-
  A new member is made by a change of the workspace, and then
  its files are written, which do not touch the manifest of
  the workspace.
-/
theorem modified_of_new
    (hName : Manifest.packageName manifest = .ok name)
    (hComponent : IsComponent name)
    (hMember : metadata.findMember? name = none) :
    found = name ∧
      IsKept outside.directory.names after.tree
          (manifestIn (metadata.root.join name)) binary
          manifest script ∧
        ∃ report asked between,
          asked.tree = session.tree ∧
            ModifyRun outside metadata.root
              (.include (metadata.root.join name)) false asked
              (.ok report) between ∧
            between.tree.ChangesWithin
              (sourcesRegion outside.directory.names
                (manifestIn (metadata.root.join name)) binary)
              after.tree ∧
            Tree.StaysAt
              (manifestLocation outside.directory.names
                metadata.root)
              between.tree after.tree := by
  rcases exists_of_registerScript hRun with
    ⟨given, path, between, hGiven, hPrepared, hWrite⟩
  cases hName.symm.trans hGiven
  rw [prepareMember, hMember] at hPrepared
  cases manifest_of_addPackage hPrepared
  have hApart :=
    spelledLocation_sourceBeside_ne_self hBinary
      outside.directory.names
      (manifestIn (metadata.root.join name))
  rcases isKept_of_writeSources hApart hWrite with
    ⟨rfl, hKept⟩
  rcases modifyRun_of_addPackage hPrepared with
    ⟨report, asked, hAsked, hModify⟩
  have hBack :=
    @changesWithin_of_writeSources ω outside binary hBinary
      (manifestIn (metadata.root.join found)) manifest script
      found between
  rw [hWrite] at hBack
  -- The files of the member are not that of the workspace.
  have hElsewhere :
      ¬ (sourcesRegion outside.directory.names
            (manifestIn (metadata.root.join found))
            binary).files
          (manifestLocation outside.directory.names
            metadata.root) := by
    rw [← spelledLocation_manifestIn]
    rintro (hManifest | hSource)
    · exact
        hComponent.spelledLocation_ne _ _ hManifest.symm
    · exact
        spelledLocation_sourceBeside_ne _ _ _ _ hSource.symm
  exact
    ⟨rfl, hKept, report, asked, between, hAsked, hModify,
      hBack, fun _ => hBack.find?_of_file hElsewhere⟩

variable (hProper : metadata.root.IsProper)
variable (hAbsolute : metadata.root.isAbsolute = true)

include hProper hAbsolute

omit hBinary hRun in
theorem isProper_include (name : Text) :
    (Change.include (metadata.root.join name)).IsProper := by
  refine Listing.forall_iff.mpr ⟨?_, nofun⟩
  rintro _ ⟨⟩
  exact
    ⟨isProper_join name hProper,
      isAbsolute_join name hAbsolute⟩

omit hBinary hRun in
theorem reached_join (name : Text) :
    reached metadata.root (metadata.root.join name) =
      metadata.root.join name :=
  reached_eq _ (isProper_join name hProper)
    (isAbsolute_join name hAbsolute)

/- A new member is made in a directory of its name. -/
theorem kept_of_new
    (hName : Manifest.packageName manifest = .ok name)
    (hComponent : IsComponent name)
    (hMember : metadata.findMember? name = none) :
    found = name ∧
      IsKept outside.directory.names after.tree
          (manifestIn (metadata.root.join name)) binary
          manifest script ∧
        IsIncluded outside.directory.names metadata.root
            (metadata.root.join name) session.tree
            after.tree ∧
          session.tree.ChangesWithin
            (includedRegion outside.directory.names
              metadata.root (metadata.root.join name) binary)
            after.tree := by
  rcases modified_of_new hBinary hRun hName hComponent hMember
    with
    ⟨rfl, hKept, report, asked, between, hAsked, hModify,
      hBack, hStays⟩
  have hBacked :=
    (isProper_include hProper hAbsolute
      found).leadsBack metadata.root
  have hEdited := (isEdited_of_modified hBacked hModify).2
  have hFront := changesWithin_of_modified hBacked hModify
  rw [hAsked] at hEdited hFront
  have hIncluded :
      IsEdited outside.directory.names metadata.root
        (.include (metadata.root.join found)) session.tree
        after.tree := by
    rcases hEdited with
      ⟨original, document, updated, report, hBefore, hParse,
        hEdits, hAfter⟩
    exact
      ⟨original, document, updated, report, hBefore, hParse,
        hEdits, hStays _ hAfter⟩
  refine
    ⟨rfl, hKept,
      isIncluded_of_isEdited
        (reached_join hProper hAbsolute found) hIncluded,
      ?_⟩
  refine .trans (hFront.widen ?_ ?_) (hBack.widen ?_ ?_)
  · exact fun location => .inr
  · exact fun location => False.elim
  · exact fun location => .inl
  · exact fun location => id

/-
  It is read as a member if what is made of the manifest of
  the workspace survives being written and read.
-/
theorem readsIncluded_of_new
    (hName : Manifest.packageName manifest = .ok name)
    (hComponent : IsComponent name)
    (hMember : metadata.findMember? name = none)
    (hReread :
      IsReread outside.directory.names session.tree
        metadata.root
        (.include (metadata.root.join name))) :
    ReadsIncluded outside.directory.names metadata.root
      (metadata.root.join name) session.tree after.tree := by
  rcases modified_of_new hBinary hRun hName hComponent hMember
    with
    ⟨_, _, report, asked, between, hAsked, hModify, _,
      hStays⟩
  rw [← hAsked] at hReread ⊢
  rcases rosterAt_of_written
      (isProper_include hProper hAbsolute name) hReread
      hModify with
    ⟨roster, hBefore, hBetween⟩
  have hReached := reached_join hProper hAbsolute name
  exact
    ⟨roster, _, hBefore, rosterAt_of_keepsFile hStays hBetween,
      rfl, mem_applyTo_include hReached roster,
      applyTo_include_exclude hReached roster⟩

end Kept

/-
  A script is registered, or nothing is changed with a fault
  of a manifest, a path or a workspace. If it is registered,
  then the files of its member hold the manifest and the
  script. A member that is there is found where it is reported
  to be, and only its files are written. A new one is made
  below the root, where its path becomes a member, and its
  first entry that excludes it is gone. That is also what is
  read of the workspace then, if what the edit makes of its
  manifest survives being written and read. Nothing else
  changes, but that directories are made on the way to the
  source. The tree has no links, and writing no faults of a
  device.
-/
theorem registered_script_is_kept
    (outside : Outside ω)
    (session : Session ω)
    (metadata : Cargo.Metadata)
    (manifest script : Text)
    (binary : Option OsText)
    (hProper : metadata.root.IsProper)
    (hAbsolute : metadata.root.isAbsolute = true)
    (hBinary : IsBinary binary) :
    (∀ name found after,
        Manifest.packageName manifest = .ok name →
          IsComponent name →
          (registerScript metadata manifest script binary
              false).perform outside session =
            (.ok found, after) →
          found = name ∧
            (∀ member,
              metadata.findMember? name = some member →
                IsKept outside.directory.names after.tree
                    member.manifest binary manifest script ∧
                  session.tree.ChangesWithin
                      (sourcesRegion outside.directory.names
                        member.manifest binary)
                      after.tree ∧
                    (spelledLocation outside.directory.names
                          member.manifest ≠
                        manifestLocation
                          outside.directory.names
                          metadata.root →
                      Tree.StaysAt
                        (manifestLocation
                          outside.directory.names
                          metadata.root)
                        session.tree after.tree)) ∧
            (metadata.findMember? name = none →
              IsKept outside.directory.names after.tree
                  (manifestIn (metadata.root.join name))
                  binary manifest script ∧
                IsIncluded outside.directory.names
                    metadata.root (metadata.root.join name)
                    session.tree after.tree ∧
                  session.tree.ChangesWithin
                      (includedRegion outside.directory.names
                        metadata.root
                        (metadata.root.join name) binary)
                      after.tree ∧
                    (IsReread outside.directory.names
                        session.tree metadata.root
                        (.include
                          (metadata.root.join name)) →
                      ReadsIncluded outside.directory.names
                        metadata.root
                        (metadata.root.join name)
                        session.tree after.tree))) ∧
      ∀ dryRun failure after,
        (registerScript metadata manifest script binary
            dryRun).perform outside session =
          (.error failure, after) →
        failure.IsAboutWorkspace →
          after.tree = session.tree := by
  constructor
  case left =>
    intro name found after hName hComponent hRun
    cases hMember : metadata.findMember? name with
    | some member =>
        rcases kept_of_member hBinary hRun hName hMember with
          ⟨hFound, hKept⟩
        refine ⟨hFound, ?_, nofun⟩
        rintro _ ⟨⟩
        refine ⟨hKept.1, hKept.2, fun hElsewhere content => ?_⟩
        refine fun hFound => hKept.2.find?_of_file ?_ hFound
        rw [← spelledLocation_manifestIn] at hElsewhere ⊢
        rintro (hManifest | hSource)
        · exact hElsewhere hManifest.symm
        · exact
            spelledLocation_sourceBeside_ne _ _ _ _
              hSource.symm
    | none =>
        rcases kept_of_new hBinary hRun hProper hAbsolute hName
            hComponent hMember with
          ⟨hFound, hKept, hIncluded, hChanges⟩
        have hRead :=
          readsIncluded_of_new hBinary hRun hProper hAbsolute
            hName hComponent hMember
        exact
          ⟨hFound, nofun,
            fun _ => ⟨hKept, hIncluded, hChanges, hRead⟩⟩
  case right =>
    intro dryRun failure after hRun hAbout
    exact tree_of_registerScript_failed hAbout hRun

/- A workspace that excludes the path of a package. -/
def excludingHello : Session Unit :=
  .start
    ⟨[(["ws"], .directory),
      (["ws", "Cargo.toml"],
        .file
          (.text
            ("[workspace]\nexclude = [\"hello\"]\n" :
              String).toList))]⟩
    ()

/- Nothing is known of the members of the workspace. -/
def knowingNothing : Cargo.Metadata :=
  { packages := []
    members := []
    root := Path.ofText ("/ws" : String)
    resolve := none }

/- The manifest of the package. -/
def helloPackage : Text :=
  ("[package]\nname = \"hello\"\n" : String).toList

/- The package is registered, and a second time it exists. -/
theorem registered_script_is_kept_hello :
    ∃ after,
      (registerScript knowingNothing helloPackage [] none
            false).perform Files.surroundings
          excludingHello =
        (.ok ("hello" : String).toList, after) ∧
      IsKept Files.surroundings.directory.names after.tree
        (Path.ofText ("/ws/hello/Cargo.toml" : String)) none
        helloPackage [] ∧
      IsIncluded Files.surroundings.directory.names
        (Path.ofText ("/ws" : String))
        (Path.ofText ("/ws/hello" : String))
        excludingHello.tree after.tree ∧
      ReadsIncluded Files.surroundings.directory.names
        (Path.ofText ("/ws" : String))
        (Path.ofText ("/ws/hello" : String))
        excludingHello.tree after.tree ∧
      ∃ failure later,
        (registerScript knowingNothing helloPackage [] none
              false).perform Files.surroundings after =
            (.error failure, later) ∧
          failure.IsAboutWorkspace ∧
          later.tree = after.tree := by
  have hProper : knowingNothing.root.IsProper :=
    Path.isProper_ofText ("/ws" : String)
  have hAbsolute : knowingNothing.root.isAbsolute = true := by
    decide
  have hBinary : IsBinary none := nofun
  have hName :
      Manifest.packageName helloPackage =
        .ok ("hello" : String).toList := by
    decide +kernel
  have hComponent : IsComponent ("hello" : String).toList :=
    ⟨("hello" : String).toList, by decide, by decide⟩
  have hReread :
      IsReread Files.surroundings.directory.names
        excludingHello.tree knowingNothing.root
        (.include
          (knowingNothing.root.join
            ("hello" : String).toList)) := by
    decide +kernel
  have hFirst :
      ((registerScript knowingNothing helloPackage [] none
              false).perform Files.surroundings
            excludingHello).1 =
        .ok ("hello" : String).toList := by
    decide +kernel
  have hSecond :
      ((registerScript knowingNothing helloPackage [] none
              false).perform Files.surroundings
            ((registerScript knowingNothing helloPackage []
                none false).perform Files.surroundings
              excludingHello).2).1 =
        .error
          (.workspace
            (.directoryExists
              (Path.ofText ("/ws/hello" : String)))) := by
    decide +kernel
  rcases hRun :
      (registerScript knowingNothing helloPackage [] none
          false).perform Files.surroundings excludingHello with
    ⟨result, after⟩
  rw [hRun] at hFirst hSecond
  obtain rfl : result = .ok ("hello" : String).toList := hFirst
  rcases (registered_script_is_kept Files.surroundings
        excludingHello knowingNothing helloPackage [] none
        hProper hAbsolute hBinary).1
      _ _ _ hName hComponent hRun with
    ⟨_, _, hNew⟩
  rcases hNew rfl with ⟨hKept, hIncluded, _, hRead⟩
  rcases hAgain :
      (registerScript knowingNothing helloPackage [] none
          false).perform Files.surroundings after with
    ⟨again, later⟩
  rw [hAgain] at hSecond
  cases hSecond
  exact
    ⟨after, rfl, hKept, hIncluded, hRead hReread, _, later,
      hAgain, True.intro,
      (registered_script_is_kept Files.surroundings after
          knowingNothing helloPackage [] none hProper
          hAbsolute hBinary).2
        _ _ _ hAgain True.intro⟩

end Workspace

end ScriptWorkspace
