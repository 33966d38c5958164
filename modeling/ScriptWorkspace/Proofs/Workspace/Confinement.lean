import ScriptWorkspace.Proofs.Workspace.Rereading
import ScriptWorkspace.Proofs.Workspace.Tasks

/-
  Packages that are named by their scripts.

  A script that is run, imported or cloned becomes a package
  in the directory of its name. All files that are written are
  inside of this directory, but for the manifest of the
  workspace, which is edited as a member is added. The name is
  taken as it is, so the directory itself is where the name
  leads: inside of the workspace if no part of the way to it
  leads out, and anywhere else otherwise.

  Main declarations:
    * `Path.StaysInside`
    * `Membership.IsEdited`
    * `Workspace.IsConfined`
    * `Workspace.isConfined_of_course`
    * `Workspace.Task.UsesDefault`
    * `Workspace.Task.isConfined_run`
    * `Workspace.named_package_is_confined`
-/

namespace ScriptWorkspace

open Storage Storage.Calls

------------------------------------------------------------
-- Paths Inside A Root
------------------------------------------------------------

/-
  The path ends inside of the root. Every part of the way to
  it leads inside as well, or where the way to the root leads.
-/
structure Path.StaysInside
    (path : Path)
    (place : Location)
    (root : Path) : Prop where
  ends :
    Tree.isBelow (spelledLocation place root)
        (spelledLocation place path) =
      true
  way :
    ∀ n,
      (∃ m,
          spelledLocation place (path.upTo n) =
            spelledLocation place (root.upTo m)) ∨
        Tree.isBelow (spelledLocation place root)
            (spelledLocation place (path.upTo n)) =
          true

theorem Path.parent_onward
    (path : Path)
    (names : List OsText)
    (last : OsText) :
    (path.onward (names ++ [last])).parent =
      path.onward names := by
  simp [parent, onward, ← List.append_assoc]

theorem Path.upTo_onward
    (path : Path)
    (names : List OsText)
    (n : Nat) :
    path.upTo n =
      (path.onward names).upTo (min n path.names.length) := by
  simp only [upTo, onward]
  rw [List.take_append_of_le_length (Nat.min_le_right _ _),
    ← List.take_take, List.take_length]

section Paths

variable {place : Location}
variable {root path : Path}
variable {names : List OsText}

theorem isBelow_append
    (hSome : names ≠ [])
    (location : Location) :
    Tree.isBelow location (location ++ names) = true := by
  simp [Tree.isBelow, hSome]

theorem length_lt_of_isBelow
    {location other : Location}
    (hBelow : Tree.isBelow location other = true) :
    location.length < other.length := by
  rw [Tree.isBelow, Bool.and_eq_true,
    List.isPrefixOf_iff_prefix, bne_iff_ne] at hBelow
  rcases hBelow with ⟨hPrefix, hOther⟩
  refine lt_of_le_of_ne hPrefix.length_le fun hLength => ?_
  exact hOther (hPrefix.eq_of_length hLength)

/- Names that do not lead back lead inside of where they begin. -/
theorem staysInside_onward
    (hNames : Tree.parentName ∉ names)
    (hSome : names ≠ []) :
    (path.onward names).StaysInside place path := by
  constructor
  case ends =>
    rw [spelledLocation_onward hNames]
    exact isBelow_append hSome _
  case way =>
    intro n
    rcases Nat.lt_or_ge path.names.length n with
      hLater | hEarly
    · right
      have hPart :
          (path.onward names).upTo n =
            path.onward
              (names.take (n - path.names.length)) := by
        simp [Path.upTo, Path.onward, List.take_append,
          List.take_of_length_le hLater.le]
      rw [hPart,
        spelledLocation_onward fun hMem =>
          hNames (List.mem_of_mem_take hMem)]
      refine isBelow_append ?_ _
      rw [ne_eq, List.take_eq_nil_iff, not_or]
      exact ⟨by omega, hSome⟩
    · left
      refine ⟨n, ?_⟩
      have hPart : (path.onward names).upTo n = path.upTo n := by
        simp [Path.upTo, Path.onward,
          List.take_append_of_le_length hEarly]
      rw [hPart]

/- The name of a package that is no more than names. -/
theorem staysInside_join
    {name : OsText}
    (hRelative : (Path.ofText name).isAbsolute = false)
    (hSome : (Path.ofText name).names ≠ [])
    (hNames : Tree.parentName ∉ (Path.ofText name).names) :
    (root.join name).StaysInside place root := by
  have hJoin :
      root.join name = root.onward (Path.ofText name).names := by
    rw [Path.join, Path.append, hRelative]
    rfl
  rw [hJoin]
  exact staysInside_onward hNames hSome

theorem isProper_join
    (name : OsText)
    (hRoot : root.IsProper) :
    (root.join name).IsProper := by
  have hName := Path.isProper_ofText name
  rw [Path.join, Path.append]
  split
  · exact hName
  · intro part hMem
    exact
      (List.mem_append.mp hMem).elim (hRoot part) (hName part)

theorem isAbsolute_join
    (name : OsText)
    (hRoot : root.isAbsolute = true) :
    (root.join name).isAbsolute = true := by
  rw [Path.join, Path.append]
  split
  case isTrue hName => exact hName
  case isFalse => exact hRoot

end Paths

------------------------------------------------------------
-- Manifests That Are Edited
------------------------------------------------------------

namespace Membership

open Toml.Layout (parse render bodyTable)

/- The manifest of a workspace is edited by a change. -/
def IsEdited
    (place : Location)
    (root : Path)
    (change : Change)
    (tree other : Tree) : Prop :=
  ∃ original document updated report,
    tree.find? (manifestLocation place root) =
        some (.file (.text original)) ∧
      parse original = .ok document ∧
        Edits root change (bodyTable document)
            (bodyTable updated) report ∧
          other.find? (manifestLocation place root) =
            some (.file (.text (render updated)))

theorem spelledLocation_manifestIn
    (place : Location)
    (root : Path) :
    spelledLocation place (Workspace.manifestIn root) =
      manifestLocation place root :=
  spelledLocation_child (by decide) place root

/- The manifest of a workspace, and no directory. -/
def manifestRegion (place : Location) (root : Path) :
    Region where
  files location := location = manifestLocation place root
  directories _ := False

section Runs

variable {ω : Type}
variable {outside : Outside ω}
variable {root : Path}
variable {change : Change}
variable {session after : Session ω}

/-
  A change that succeeds edits the manifest as it asks, and
  sets it at most.
-/
theorem isEdited_of_modified
    {report : Report}
    (hChange : change.LeadsBack root)
    (hRun :
      ModifyRun outside root change false session
        (.ok report) after) :
    (after.tree = session.tree ∨
        ∃ node,
          after.tree =
            session.tree.set
              (manifestLocation outside.directory.names root)
              node) ∧
      IsEdited outside.directory.names root change
        session.tree after.tree := by
  rcases isLeft_of_run hRun with
    ⟨original, progress, hPlan, _, hLeft⟩
  rcases textAt_of_plannedFrom hPlan with
    ⟨hText, hProgress⟩
  rcases manifest_of_textAt hText with ⟨hResolved, hFound⟩
  rcases Toml.bind_eq_ok_iff.mp hProgress with
    ⟨document, hDocument, hPlanned⟩
  have hParse := parse_of_documentOf hDocument
  have hEdits :=
    edits_of_leadsBack (hChange .members) (hChange .exclude)
      (Toml.Layout.isOrderly_parse hParse) hPlanned
  by_cases hSame : progress.text = original
  · have hTree := hLeft.kept (.inl hSame)
    refine
      ⟨.inl hTree, original, document, progress.document,
        progress.report root, hFound, hParse, hEdits, ?_⟩
    rw [hTree, hFound, ← hSame]
    rfl
  · rcases hLeft.written hSame rfl with
      ⟨location, hLocation, hTree⟩
    rw [hResolved] at hLocation
    cases hLocation
    refine
      ⟨.inr ⟨_, hTree⟩, original, document,
        progress.document, progress.report root, hFound,
        hParse, hEdits, ?_⟩
    rw [hTree]
    exact
      Tree.find?_set_self _ _ (manifestLocation_ne_nil _ _)

/- A change that fails leaves all files as they are. -/
theorem tree_of_modify_failed
    {dryRun : Bool}
    {failure : Failure}
    (hRun :
      ModifyRun outside root change dryRun session
        (.error failure) after) :
    after.tree = session.tree := by
  cases hRun with
  | failed hPlan hAfter => rw [hAfter.others]

theorem changesWithin_of_modified
    {report : Report}
    (hChange : change.LeadsBack root)
    (hRun :
      ModifyRun outside root change false session
        (.ok report) after) :
    session.tree.ChangesWithin
      (manifestRegion outside.directory.names root)
      after.tree := by
  rcases (isEdited_of_modified hChange hRun).1 with
    hSame | ⟨node, hSet⟩
  · exact .of_eq hSame
  · rw [hSet]
    exact Tree.changesWithin_set node rfl

/- A change sets the manifest at most, as the change asks. -/
theorem isEdited_of_modifyRun
    {result : Except Failure Report}
    (hChange : change.IsProper)
    (hRun :
      ModifyRun outside root change false session result
        after) :
    after.tree = session.tree ∨
      (∃ node,
          after.tree =
            session.tree.set
              (manifestLocation outside.directory.names root)
              node) ∧
        IsEdited outside.directory.names root change
          session.tree after.tree := by
  cases result with
  | error failure => exact .inl (tree_of_modify_failed hRun)
  | ok report =>
      rcases isEdited_of_modified (hChange.leadsBack root) hRun
        with ⟨hSame | hSet, hEdited⟩
      · exact .inl hSame
      · exact .inr ⟨hSet, hEdited⟩

end Runs

end Membership

namespace Workspace

open ScriptWorkspace.Membership

variable {ω : Type}
variable {outside : Outside ω}
variable {session after : Session ω}
variable {place : Location}
variable {root directory : Path}

------------------------------------------------------------
-- Packages
------------------------------------------------------------

/- Inside of a package, and the directories on the way to it. -/
def packageRegion
    (place : Location)
    (directory : Path) : Region where
  files location :=
    Tree.isBelow (spelledLocation place directory) location =
      true
  directories location :=
    (∃ n,
        location = spelledLocation place (directory.upTo n)) ∨
      Tree.isBelow (spelledLocation place directory) location =
        true

theorem admits_of_staysInside
    {path : Path}
    (hPath : path.StaysInside place directory) :
    (packageRegion place directory).Admits place path where
  file := hPath.ends
  directories n := by
    rw [path.upTo_parent]
    exact hPath.way _

/-
  Nothing outside of a package is changed, but that there can
  be new directories on the way to it, inside of the root, and
  that the manifest of the workspace is edited by a change.
-/
def IsConfined
    (place : Location)
    (root directory : Path)
    (change : Change)
    (tree other : Tree) : Prop :=
  ∀ location,
    ¬ Tree.isBelow (spelledLocation place directory) location =
        true →
      other.find? location = tree.find? location ∨
        (Tree.isBelow (spelledLocation place root) location =
              true ∧
            (∃ n,
              location =
                spelledLocation place (directory.upTo n)) ∧
              tree.find? location = none ∧
                other.find? location = some .directory) ∨
          location = manifestLocation place root ∧
            IsEdited place root change tree other

/- The directories on the way to the root are there already. -/
theorem same_or_made_inside
    {tree other : Tree}
    {location : Location}
    (hInside : directory.StaysInside place root)
    (hRoot : isDirectory tree place root = true)
    (hOutside :
      ¬ (packageRegion place directory).files location)
    (hChanges :
      other.find? location = tree.find? location ∨
        (packageRegion place directory).directories location ∧
          tree.find? location = none ∧
            other.find? location = some .directory) :
    other.find? location = tree.find? location ∨
      Tree.isBelow (spelledLocation place root) location =
            true ∧
          (∃ n,
            location =
              spelledLocation place (directory.upTo n)) ∧
            tree.find? location = none ∧
              other.find? location = some .directory := by
  rcases hChanges with hSame | ⟨hMade, hNone, hDirectory⟩
  · exact .inl hSame
  · rcases hMade with ⟨n, rfl⟩ | hBelow
    · rcases hInside.way n with ⟨m, hSame⟩ | hBelow
      · rcases Files.isDirectory_eq_true_iff.mp hRoot with
          ⟨start, hResolved, hNode⟩
        rw [hSame, find?_upTo_of_resolve hResolved hNode m]
          at hNone
        cases hNone
      · exact .inr ⟨hBelow, ⟨n, rfl⟩, hNone, hDirectory⟩
    · exact absurd hBelow hOutside

/- A course changes the manifest, and what it keeps to. -/
theorem Course.changesWithin
    {region : Region}
    {change? : Option Change}
    (hChange : ∀ change ∈ change?, change.IsProper)
    (hCourse :
      Course outside root (Tree.ChangesWithin region) change?
        session after) :
    session.tree.ChangesWithin
      { region with
        files := fun location =>
          region.files location ∨
            location =
              manifestLocation outside.directory.names root }
      after.tree := by
  cases hCourse with
  | kept hKept => exact hKept.mono fun _ => .inl
  | @changed change result between later hSome hFront hRun
      hBack =>
      have hModified :=
        isEdited_of_modifyRun (hChange _ hSome) hRun
      refine (hFront.mono fun _ => .inl).trans ?_
      refine .trans ?_ (hBack.mono fun _ => .inl)
      rcases hModified with hTree | ⟨⟨node, hTree⟩, _⟩
      · exact .of_eq hTree
      · rw [hTree]
        exact Tree.changesWithin_set node (.inr rfl)

/- The manifest stays, or it is edited by the change. -/
theorem Course.manifest_edited
    {region : Region}
    {change : Change}
    (hChange : change.IsProper)
    (hCourse :
      Course outside root (Tree.ChangesWithin region)
        (some change) session after)
    (hOutside :
      ¬ region.files
          (manifestLocation outside.directory.names root)) :
    session.tree.ChangesWithin region after.tree ∨
      IsEdited outside.directory.names root change
        session.tree after.tree := by
  cases hCourse with
  | kept hKept => exact .inl hKept
  | @changed change result between later hSome hFront hRun
      hBack =>
      cases hSome
      rcases isEdited_of_modifyRun hChange hRun with
        hTree | ⟨_, hEdited⟩
      · rw [← hTree] at hFront
        exact .inl (hFront.trans hBack)
      · right
        rcases hEdited with
          ⟨original, document, updated, report, hFound, hParse,
            hEdits, hWritten⟩
        have hBefore := hFront.keepsFile hOutside _ hFound
        refine
          ⟨original, document, updated, report, hBefore,
            hParse, hEdits, ?_⟩
        rcases hBack _ hOutside with hSame | ⟨_, hNone, _⟩
        · rw [hSame, hWritten]
        · rw [hWritten] at hNone
          cases hNone

/- What is done around the change stays in the package. -/
theorem isConfined_of_course
    {change : Change}
    (hChange : change.IsProper)
    (hInside :
      directory.StaysInside outside.directory.names root)
    (hRoot :
      isDirectory session.tree outside.directory.names root =
        true)
    (hCourse :
      Course outside root
        (Tree.ChangesWithin
          (packageRegion outside.directory.names directory))
        (some change) session after) :
    IsConfined outside.directory.names root directory change
      session.tree after.tree := by
  have hManifest :
      ¬ (packageRegion outside.directory.names
            directory).files
          (manifestLocation outside.directory.names root) := by
    intro hBelow
    have hDeeper := length_lt_of_isBelow hBelow
    have hDeep := length_lt_of_isBelow hInside.ends
    rw [manifestLocation, List.length_append,
      List.length_singleton] at hDeeper
    omega
  intro location hOutside
  by_cases hPlace :
      location = manifestLocation outside.directory.names root
  · subst hPlace
    rcases hCourse.manifest_edited hChange hManifest with
      hChanges | hEdited
    · exact
        (same_or_made_inside hInside hRoot hOutside
          (hChanges _ hManifest)).imp_right .inl
    · exact .inr (.inr ⟨rfl, hEdited⟩)
  · have hChanges :=
      hCourse.changesWithin fun _ hSome =>
        Option.some.inj hSome ▸ hChange
    exact
      (same_or_made_inside hInside hRoot hOutside
        (hChanges location
          (not_or_intro hOutside hPlace))).imp_right .inl

------------------------------------------------------------
-- Tasks
------------------------------------------------------------

/-
  The task makes a package in the directory of its name at the
  root, if it makes one.
-/
def Task.UsesDefault (root : Path) : Task → Prop
  | .registering metadata manifest _ _ =>
    ∀ name,
      Manifest.packageName manifest = .ok name →
        metadata.findMember? name = none
  | .importing _ directoryFor =>
    ∀ name, directoryFor name = root.join name
  | .cloning _ _ _ directoryFor =>
    ∀ name, directoryFor name = root.join name
  | _ => False

/- The name of the package that a script is, if it is one. -/
def nameIn? (script : Text) : Option Text :=
  (packageIn script).toOption.map Prod.snd

/- The name of the package that a task makes. -/
def Task.packageName?
    (outside : Outside ω)
    (session : Session ω) : Task → Option Text
  | .registering _ manifest _ _ =>
    (Manifest.packageName manifest).toOption
  | .importing script _ => nameIn? script
  | .cloning client gistId _ _ =>
    (remoteScript? outside session client gistId).bind nameIn?
  | _ => none

/- The binary that the script of a task is kept as. -/
def Task.binary? : Task → Option OsText
  | .registering _ _ _ binary => binary
  | _ => none

theorem packageIn_eq_error
    {script : Text}
    (hNone : nameIn? script = none) :
    ∃ failure, packageIn script = .error failure := by
  unfold nameIn? at hNone
  cases hPackage : packageIn script with
  | error failure => exact ⟨failure, rfl⟩
  | ok found =>
      rw [hPackage] at hNone
      cases hNone

theorem scriptEffect_of_name
    {directoryFor : Text → Path}
    {script name : Text}
    (hName : nameIn? script = some name) :
    scriptEffect directoryFor script =
      { files := packagePaths (directoryFor name)
        change? := some (.addMember (directoryFor name)) } := by
  unfold nameIn? at hName
  unfold scriptEffect
  cases hPackage : packageIn script with
  | error failure =>
      rw [hPackage] at hName
      cases hName
  | ok found =>
      rw [hPackage] at hName
      cases hName
      rfl

/- Without a name, a task fails before it changes anything. -/
theorem Task.fails_of_packageName?
    {task : Task}
    (hDefault : task.UsesDefault root)
    (hNone : task.packageName? outside session = none)
    (dryRun : Bool) :
    ∃ failure after,
      (task.run root dryRun).perform outside session =
          (.error failure, after) ∧
        after.tree = session.tree := by
  have hImport
      {script : Text}
      (session : Session ω)
      (directoryFor : Text → Path)
      (hNone : nameIn? script = none) :
      ∃ failure,
        (importScript root script directoryFor dryRun).perform
            outside session =
          (.error failure, session) := by
    rcases packageIn_eq_error hNone with ⟨failure, hFailure⟩
    refine ⟨failure, ?_⟩
    rw [perform_importScript, hFailure]
  cases task with
  | registering metadata manifest script binary =>
      dsimp only [packageName?] at hNone
      cases hName : Manifest.packageName manifest with
      | error failure =>
          refine ⟨failure, session, ?_, rfl⟩
          rw [run, registerScript, hName]
          rfl
      | ok name =>
          rw [hName] at hNone
          cases hNone
  | importing script directoryFor =>
      rcases hImport session directoryFor hNone with
        ⟨failure, hRun⟩
      refine ⟨failure, session, ?_, rfl⟩
      rw [run, Action.perform_bind, hRun]
  | cloning client gistId gistIds directoryFor =>
      have hAsks : (client.retrieve gistId).OnlyAsks outside :=
        client.onlyAsks_retrieve gistId
      have hTree := (hAsks session).tree
      dsimp only [packageName?, remoteScript?] at hNone
      simp only [run, Sync.clone, bind_assoc]
      rw [Action.perform_bind]
      rcases hRun :
          (client.retrieve gistId).perform outside session with
        ⟨result, between⟩
      rw [hRun] at hTree hNone
      cases result with
      | error failure => exact ⟨failure, between, rfl, hTree⟩
      | ok remote =>
          rcases hImport between directoryFor hNone with
            ⟨failure, hFails⟩
          refine ⟨failure, between, ?_, hTree⟩
          dsimp only
          rw [Action.perform_bind, hFails]
  | _ => exact False.elim hDefault

/- With a name, a task makes the package of that name. -/
theorem Task.effect_of_packageName?
    {task : Task}
    {name : Text}
    (hDefault : task.UsesDefault root)
    (hName : task.packageName? outside session = some name) :
    ∃ change,
      (task.effect outside session root).change? =
          some change ∧
        (change = .addMember (root.join name) ∨
            change = .include (root.join name)) ∧
          ∀ path ∈ (task.effect outside session root).files,
            path = manifestIn (root.join name) ∨
              path =
                sourceBeside (manifestIn (root.join name))
                  task.binary? := by
  have hScript
      {script : Text}
      {directoryFor : Text → Path}
      (hDirectory : directoryFor name = root.join name)
      (hName : nameIn? script = some name) :
      (scriptEffect directoryFor script).change? =
          some (.addMember (root.join name)) ∧
        ∀ path ∈ (scriptEffect directoryFor script).files,
          path = manifestIn (root.join name) ∨
            path =
              sourceBeside (manifestIn (root.join name))
                none := by
    rw [scriptEffect_of_name hName, hDirectory, sourceBeside,
      parent_manifestIn]
    exact ⟨rfl, fun path hMem => List.mem_pair.mp hMem⟩
  cases task with
  | registering metadata manifest script binary =>
      dsimp only [packageName?] at hName
      cases hPackage : Manifest.packageName manifest with
      | error failure =>
          rw [hPackage] at hName
          cases hName
      | ok found =>
          rw [hPackage] at hName
          cases hName
          have hNew :
              ({ metadata with root } :
                  Cargo.Metadata).findMember? name =
                none :=
            hDefault name hPackage
          refine
            ⟨.include (root.join name), ?_, .inr rfl, ?_⟩
          · simp only [effect, registerEffect, hPackage, hNew]
          · simp only [effect, registerEffect, hPackage, hNew]
            exact fun path hMem => List.mem_pair.mp hMem
  | importing script directoryFor =>
      rcases hScript (hDefault name) hName with
        ⟨hChange, hFiles⟩
      exact ⟨_, hChange, .inl rfl, hFiles⟩
  | cloning client gistId gistIds directoryFor =>
      rcases Option.bind_eq_some_iff.mp hName with
        ⟨script, hRemote, hNamed⟩
      rcases hScript (hDefault name) hNamed with
        ⟨hChange, hFiles⟩
      simp only [effect, hRemote]
      exact ⟨_, hChange, .inl rfl, hFiles⟩
  | _ => exact False.elim hDefault

/- The files of a package are inside of its directory. -/
theorem staysInside_of_mem_files
    {binary : Option OsText}
    {path : Path}
    (hBinary :
      ∀ found,
        binary = some found →
          (sourceBeside (manifestIn directory)
              (some found)).StaysInside place directory)
    (hPath :
      path = manifestIn directory ∨
        path = sourceBeside (manifestIn directory) binary) :
    path.StaysInside place directory := by
  rcases hPath with rfl | rfl
  · have hManifest :
        (directory.onward [fileName]).StaysInside place
          directory :=
      staysInside_onward (by decide) (by decide)
    exact hManifest
  · cases binary with
    | some found => exact hBinary found rfl
    | none =>
        have hSource :
            (directory.onward ["src", "main.rs"]).StaysInside
              place directory :=
          staysInside_onward (by decide) (by decide)
        have hSame :
            sourceBeside (manifestIn directory) none =
              directory.onward ["src", "main.rs"] := by
          rw [sourceBeside, parent_manifestIn, main_eq_child]
          simp [Path.child, Path.onward]
        rw [hSame]
        exact hSource

/- A task whose files are inside of a package is confined. -/
theorem Task.isConfined_run
    {task : Task}
    {change : Change}
    (hPlace : Tree.parentName ∉ outside.directory.names)
    (hRoot :
      isDirectory session.tree outside.directory.names root =
        true)
    (hInside :
      directory.StaysInside outside.directory.names root)
    (hStays : ∀ removed, task ≠ .removing removed)
    (hFiles :
      ∀ path ∈ (task.effect outside session root).files,
        path.StaysInside outside.directory.names directory)
    (hChange :
      (task.effect outside session root).change? =
        some change)
    (hProper : change.IsProper)
    (dryRun : Bool) :
    IsConfined outside.directory.names root directory change
      session.tree
      ((task.run root dryRun).perform outside
        session).2.tree := by
  cases dryRun with
  | true =>
      have hDry : (task.run root true).OnlyAsks outside :=
        task.onlyAsks_run root
      rw [(hDry session).tree]
      exact fun location _ => .inl rfl
  | false =>
      have hCourse :=
        task.follows_run hPlace hStays fun path hMem =>
          admits_of_staysInside (hFiles path hMem)
      rw [hChange] at hCourse
      exact
        isConfined_of_course hProper hInside hRoot hCourse

/-
  A task that takes the directory of a package from its name
  fails before it changes anything, or it is confined to that
  directory, if this and the binary stay inside. The tree has
  no links that lead out of the directory.
-/
theorem named_package_is_confined
    (outside : Outside ω)
    (session : Session ω)
    (root : Path)
    (task : Task)
    (dryRun : Bool)
    (hPlace : Tree.parentName ∉ outside.directory.names)
    (hProper : root.IsProper)
    (hAbsolute : root.isAbsolute = true)
    (hRoot :
      isDirectory session.tree outside.directory.names root =
        true)
    (hDefault : task.UsesDefault root) :
    ∃ result after,
      (task.run root dryRun).perform outside session =
          (result, after) ∧
        match task.packageName? outside session with
        | none =>
          (∃ failure, result = .error failure) ∧
            after.tree = session.tree
        | some name =>
          (root.join name).StaysInside outside.directory.names
              root →
            (∀ binary,
              task.binary? = some binary →
                (sourceBeside (manifestIn (root.join name))
                    (some binary)).StaysInside
                  outside.directory.names (root.join name)) →
              ∃ change,
                (change = .addMember (root.join name) ∨
                    change = .include (root.join name)) ∧
                  IsConfined outside.directory.names root
                    (root.join name) change session.tree
                    after.tree := by
  cases hName : task.packageName? outside session with
  | none =>
      rcases task.fails_of_packageName? hDefault hName dryRun
        with ⟨failure, after, hRun, hTree⟩
      exact ⟨_, after, hRun, ⟨failure, rfl⟩, hTree⟩
  | some name =>
      rcases task.effect_of_packageName? hDefault hName with
        ⟨change, hChange, hKind, hFiles⟩
      refine
        ⟨_, _, rfl, fun hInside hBinary =>
          ⟨change, hKind, ?_⟩⟩
      have hStays : ∀ removed, task ≠ .removing removed := by
        rintro removed rfl
        exact hDefault
      have hAdded :
          ∀ path,
            some (root.join name) = some path →
              path.IsProper ∧ path.isAbsolute = true := by
        rintro _ ⟨⟩
        exact
          ⟨isProper_join name hProper,
            isAbsolute_join name hAbsolute⟩
      have hChangeProper : change.IsProper := by
        rcases hKind with rfl | rfl
        · exact Listing.forall_iff.mpr ⟨hAdded, nofun⟩
        · exact Listing.forall_iff.mpr ⟨hAdded, nofun⟩
      exact
        task.isConfined_run hPlace hRoot hInside hStays
          (fun path hMem =>
            staysInside_of_mem_files hBinary
              (hFiles path hMem))
          hChange hChangeProper dryRun

/- A script whose package has a name. -/
def scriptNamed (name : String) : Text :=
  ("//! ```cargo\n//! [package]\n//! name = \"" ++ name ++
      "\"\n//! ```\n" :
    String).toList

/- The package of that name is made in a workspace. -/
def importNamed (name : String) : Task :=
  .importing (scriptNamed name) fun name =>
    (Path.ofText ("/ws" : String)).join name

/- A workspace with a member, and with another directory. -/
def besideDirectory : Session Unit :=
  .start
    ⟨[(["ws"], .directory), (["ws", "x"], .directory),
      (["ws", "Cargo.toml"],
        .file
          (.text
            ("[workspace]\nmembers = [\"a\"]\n" : String).toList))]⟩
    ()

/-
  One name leads out of the workspace, and another one to the
  root, where its manifest is written over that of the
  workspace.
-/
theorem package_outside_of_workspace :
    ((((importNamed "../x").run
              (Path.ofText ("/ws" : String)) false).perform
            Files.surroundings besideDirectory).2.tree.find?
          ["x", "Cargo.toml"] ≠
        besideDirectory.tree.find? ["x", "Cargo.toml"] ∧
      ¬ Tree.isBelow ["ws"] ["x", "Cargo.toml"] = true) ∧
      (rosterAt Files.surroundings.directory.names
            (((importNamed "x/..").run
                  (Path.ofText ("/ws" : String)) false).perform
                Files.surroundings besideDirectory).2.tree
            (Path.ofText ("/ws" : String))).map
          (· .members) =
        some [Path.ofText ("/ws/x/.." : String)] := by
  decide +kernel

theorem named_package_is_confined_hello :
    Tree.parentName ∉ Files.surroundings.directory.names ∧
      (Path.ofText ("/ws" : String)).IsProper ∧
      (Path.ofText ("/ws" : String)).isAbsolute = true ∧
      isDirectory Membership.start.tree
          Files.surroundings.directory.names
          (Path.ofText ("/ws" : String)) =
        true ∧
      (importNamed "hello").UsesDefault
        (Path.ofText ("/ws" : String)) ∧
      ∃ done after change,
        ((importNamed "hello").run
              (Path.ofText ("/ws" : String)) false).perform
            Files.surroundings Membership.start =
          (.ok done, after) ∧
        after.tree.find? ["ws", "hello", "Cargo.toml"] =
          some
            (.file
              (.text
                ("[package]\nname = \"hello\"\n" :
                  String).toList)) ∧
        IsConfined Files.surroundings.directory.names
          (Path.ofText ("/ws" : String))
          ((Path.ofText ("/ws" : String)).join
            ("hello" : String).toList)
          change
          Membership.start.tree after.tree := by
  have hPlace :
      Tree.parentName ∉ Files.surroundings.directory.names := by
    decide
  have hProper := Path.isProper_ofText ("/ws" : String)
  have hAbsolute :
      (Path.ofText ("/ws" : String)).isAbsolute = true := by
    decide
  have hRoot :
      isDirectory Membership.start.tree
          Files.surroundings.directory.names
          (Path.ofText ("/ws" : String)) =
        true := by
    decide
  have hDefault :
      (importNamed "hello").UsesDefault
        (Path.ofText ("/ws" : String)) :=
    fun _ => rfl
  have hName :
      (importNamed "hello").packageName? Files.surroundings
          Membership.start =
        some ("hello" : String).toList := by
    decide +kernel
  have hWorks :
      ((importNamed "hello").run
              (Path.ofText ("/ws" : String)) false).perform
            Files.surroundings
            Membership.start |>.1.toOption.isSome = true := by
    decide +kernel
  have hFound :
      (((importNamed "hello").run
              (Path.ofText ("/ws" : String)) false).perform
            Files.surroundings
            Membership.start).2.tree.find?
          ["ws", "hello", "Cargo.toml"] =
        some
          (.file
            (.text
              ("[package]\nname = \"hello\"\n" :
                String).toList)) := by
    decide +kernel
  have hMain :=
    named_package_is_confined Files.surroundings
      Membership.start (Path.ofText ("/ws" : String))
      (importNamed "hello") false hPlace hProper hAbsolute
      hRoot hDefault
  rw [hName] at hMain
  rcases hMain with ⟨result, after, hRun, hEnds⟩
  rw [hRun] at hWorks hFound
  have hInside :
      ((Path.ofText ("/ws" : String)).join
            ("hello" : String).toList).StaysInside
        Files.surroundings.directory.names
        (Path.ofText ("/ws" : String)) :=
    staysInside_join (by decide) (by decide) (by decide)
  rcases hEnds hInside nofun with
    ⟨change, _, hConfined⟩
  cases result with
  | error failure => cases hWorks
  | ok done =>
      exact
        ⟨hPlace, hProper, hAbsolute, hRoot, hDefault, done,
          after, change, hRun, hFound, hConfined⟩

end Workspace

end ScriptWorkspace
