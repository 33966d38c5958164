import ScriptWorkspace.Proofs.Storage.Listing
import ScriptWorkspace.Proofs.Workspace.Confinement

/-
  The copies of a template package.

  The files of a template are listed once, and then they are
  copied one after another into a directory where nothing was
  before. What is copied is below that directory and none of
  what is listed is, so each copy has the content that the
  file had at the start, wherever the directory is.

  Main declarations:
    * `Workspace.IsPart`
    * `Workspace.mem_templateParts_iff`
    * `Workspace.HasCopied`
    * `Workspace.hasCopied_of_copyPart`
    * `Workspace.hasCopied_of_copyTemplate`
-/

namespace ScriptWorkspace

namespace Workspace

open ScriptWorkspace.Action Storage Storage.Calls

variable {ω : Type}
variable {outside : Outside ω}
variable {place : Location}
variable {tree other : Tree}
variable {base directory : Path}
variable {names : List OsText}

------------------------------------------------------------
-- Parts Of A Template
------------------------------------------------------------

/-
  The names lead to a file that a template hands on: not to
  its manifest, and not into a directory that is skipped.
-/
structure IsPart (names : List OsText) : Prop where
  manifest : names ≠ [fileName]
  target : names.head? ≠ some "target"
  versions : names.head? ≠ some ".git"

theorem isTemplatePart_iff :
    isTemplatePart names = true ↔
      names ≠ [] ∧ IsPart names := by
  cases names with
  | nil => simp [isTemplatePart]
  | cons first rest =>
      have hPart :
          isTemplatePart (first :: rest) = true ↔
            (first ≠ "target" ∧ first ≠ ".git") ∧
              first :: rest ≠ [fileName] := by
        rw [isTemplatePart, Bool.and_eq_true,
          Bool.not_eq_true', ← Bool.not_eq_true,
          List.contains_iff_mem, bne_iff_ne,
          skippedDirectories, List.mem_pair, not_or]
        rfl
      rw [hPart]
      constructor
      · rintro ⟨⟨hTarget, hVersions⟩, hManifest⟩
        exact
          ⟨List.cons_ne_nil _ _, hManifest,
            fun hHead => hTarget (Option.some.inj hHead),
            fun hHead => hVersions (Option.some.inj hHead)⟩
      · rintro ⟨_, hManifest, hTarget, hVersions⟩
        exact
          ⟨⟨fun hFirst => hTarget (congrArg some hFirst),
              fun hFirst => hVersions (congrArg some hFirst)⟩,
            hManifest⟩

/- A directory is where its path says. -/
theorem directory_of_isDirectory
    (hBase : isDirectory tree place base = true) :
    tree.resolve place base =
        .ok (spelledLocation place base) ∧
      tree.find? (spelledLocation place base) =
        some .directory := by
  rcases Files.isDirectory_eq_true_iff.mp hBase with
    ⟨location, hResolved, hDirectory⟩
  rw [← spelledLocation_of_resolve hResolved]
  exact ⟨hResolved, hDirectory⟩

/- A file below a directory has a name there. -/
theorem ne_nil_of_find?_file
    {content : Content}
    (hBase : isDirectory tree place base = true)
    (hFound :
      tree.find? (spelledLocation place base ++ names) =
        some (.file content)) :
    names ≠ [] := by
  rintro rfl
  rw [List.append_nil, (directory_of_isDirectory hBase).2]
    at hFound
  cases hFound

/- The parts of a template are the files that it hands on. -/
theorem mem_templateParts_iff
    {source : Path}
    (hSound : tree.IsSound)
    (hBase : isDirectory tree place base = true) :
    (source, names) ∈ templateParts place tree base ↔
      source = base.onward names ∧
        IsPart names ∧
          ∃ content,
            tree.find? (spelledLocation place base ++ names) =
              some (.file content) := by
  have hResolved := (directory_of_isDirectory hBase).1
  have hDrop (names : List OsText) :
      (base.onward names).names.drop base.names.length =
        names :=
    List.drop_left
  unfold templateParts
  rw [List.mem_filter, List.mem_map]
  constructor
  · rintro ⟨⟨file, hFile, hSame⟩, hPart⟩
    cases hSame
    rcases (mem_filesBelow_iff hResolved hSound).mp hFile with
      ⟨names, content, rfl, _, hFound⟩
    rw [hDrop] at hPart ⊢
    exact
      ⟨rfl, (isTemplatePart_iff.mp hPart).2, content, hFound⟩
  · rintro ⟨rfl, hPart, content, hFound⟩
    have hSome := ne_nil_of_find?_file hBase hFound
    refine
      ⟨⟨base.onward names, ?_, ?_⟩,
        isTemplatePart_iff.mpr ⟨hSome, hPart⟩⟩
    · exact
        (mem_filesBelow_iff hResolved hSound).mpr
          ⟨names, content, rfl, hSome, hFound⟩
    · rw [hDrop]

------------------------------------------------------------
-- Copies
------------------------------------------------------------

/-
  Some files below a directory have been copied from below
  another one, and there are no other files.
-/
structure HasCopied
    (place : Location)
    (base directory : Path)
    (isDone : List OsText → Prop)
    (tree other : Tree) : Prop where
  changes :
    tree.ChangesWithin (packageRegion place directory) other
  files :
    ∀ names content,
      other.find? (spelledLocation place directory ++ names) =
          some (.file content) ↔
        isDone names ∧
          tree.find? (spelledLocation place base ++ names) =
            some (.file content)

/- What is done can be told of files that are there. -/
theorem HasCopied.congr
    {isDone others : List OsText → Prop}
    (hCopied : HasCopied place base directory isDone tree other)
    (hSame :
      ∀ names content,
        tree.find? (spelledLocation place base ++ names) =
            some (.file content) →
          (isDone names ↔ others names)) :
    HasCopied place base directory others tree other where
  changes := hCopied.changes
  files names content := by
    rw [hCopied.files]
    exact and_congr_left fun hFound => hSame names content hFound

/- Nothing has been copied to where nothing is. -/
theorem hasCopied_none
    (hSound : tree.IsSound)
    (hNew :
      tree.find? (spelledLocation place directory) = none) :
    HasCopied place base directory (fun _ => False) tree
      tree where
  changes := .refl _ tree
  files names content := by
    rw [hSound.find?_append_eq_none hNew]
    exact ⟨nofun, fun hDone => hDone.1.elim⟩

/- What is there is not below what is missing. -/
theorem not_isBelow_of_find?
    {location : Location}
    {node : Node}
    (hSound : tree.IsSound)
    (hNew :
      tree.find? (spelledLocation place directory) = none)
    (hFound : tree.find? location = some node) :
    ¬ (packageRegion place directory).files location := by
  intro hBelow
  rcases Tree.isBelow_iff.mp hBelow with ⟨names, _, rfl⟩
  rw [hSound.find?_append_eq_none hNew] at hFound
  cases hFound

/- Copy a file of a template. -/
def copyPart
    (directory : Path)
    (part : Path × List OsText) : Action ω Unit := do
  Files.makeDirectories (directory.onward part.2).parent false
  Files.copy part.1 (directory.onward part.2) false

/- Copy some files of a template, one after another. -/
def copyParts
    (directory : Path)
    (parts : List (Path × List OsText)) : Action ω Unit :=
  forIn parts () fun part _ => do
    copyPart directory part
    Pure.pure (ForInStep.yield ())

section Steps

variable {isDone : List OsText → Prop}
variable {content : Content}
variable {session after : Session ω}

/-
  Directories are made and a file is put: the other files that
  begin like it are those that were there.
-/
theorem find?_set_file_iff
    {between : Tree}
    {found : List OsText}
    {wanted : Content}
    (hSome : names ≠ [])
    (hGains : other.GainsDirectories between)
    (start : Location)
    (content : Content) :
    (between.set (start ++ names) (.file content)).find?
          (start ++ found) =
        some (.file wanted) ↔
      if found = names then content = wanted
      else other.find? (start ++ found) = some (.file wanted) := by
  by_cases hFound : found = names
  · subst hFound
    have hNonroot : start ++ found ≠ [] := by
      simp [hSome]
    rw [Tree.find?_set_self _ _ hNonroot]
    simp
  · have hOther : start ++ found ≠ start ++ names :=
      fun hSame => hFound (List.append_cancel_left hSame)
    rw [Tree.find?_set_of_ne _ _ hOther,
      hGains.find?_file_iff, if_neg hFound]

/- A file is put where the names say, with its content. -/
theorem HasCopied.set
    {between : Tree}
    (hSome : names ≠ [])
    (hContent :
      tree.find? (spelledLocation place base ++ names) =
        some (.file content))
    (hMade :
      other.ChangesWithin (packageRegion place directory)
        between)
    (hGains : other.GainsDirectories between)
    (hCopied :
      HasCopied place base directory isDone tree other) :
    HasCopied place base directory
      (fun found => isDone found ∨ found = names) tree
      (between.set (spelledLocation place directory ++ names)
        (.file content)) where
  changes :=
    (hCopied.changes.trans hMade).trans
      (Tree.changesWithin_set _ (isBelow_append hSome _))
  files found wanted := by
    rw [find?_set_file_iff hSome hGains]
    split
    case isTrue hFound =>
      subst hFound
      rw [hContent]
      simp
    case isFalse hFound =>
      rw [hCopied.files]
      simp [hFound]

/- There is a file of a template, and it can be copied. -/
structure IsListed
    (place : Location)
    (tree : Tree)
    (base : Path)
    (part : Path × List OsText)
    (content : Content) : Prop where
  source : part.1 = base.onward part.2
  onward : Tree.parentName ∉ part.2
  some : part.2 ≠ []
  found :
    tree.find? (spelledLocation place base ++ part.2) =
      .some (.file content)

variable (hSound : tree.IsSound)
variable
  (hNew :
    tree.find?
        (spelledLocation outside.directory.names directory) =
      none)

include hSound hNew

/- A file is copied as it was before anything was copied. -/
theorem hasCopied_of_copyPart
    {part : Path × List OsText}
    (hPart :
      IsListed outside.directory.names tree base part content)
    (hCopied :
      HasCopied outside.directory.names base directory isDone
        tree session.tree)
    (hRun :
      (copyPart directory part).perform outside session =
        (.ok (), after)) :
    HasCopied outside.directory.names base directory
      (fun found => isDone found ∨ found = part.2) tree
      after.tree := by
  rcases exists_of_perform_bind hRun with
    ⟨_, between, hMake, hCopy⟩
  have hInside :=
    admits_of_staysInside
      (@staysInside_onward outside.directory.names directory
        part.2 hPart.onward hPart.some)
  have hMade :=
    Files.staysWithin_makeDirectories hInside.directories
      session
  unfold StaysFrom at hMade
  rw [hMake] at hMade
  have hGains := Files.gainsDirectories_of_makeDirectories hMake
  rcases Files.exists_set_of_copy hCopy with
    ⟨found, location, hRead, hTarget, hSet⟩
  rcases Files.readFile_eq_ok_iff.mp hRead with
    ⟨start, hSource, hFound⟩
  have hGoal := spelledLocation_of_resolve hTarget
  rw [spelledLocation_onward hPart.onward] at hGoal
  have hStart := spelledLocation_of_resolve hSource
  rw [hPart.source, spelledLocation_onward hPart.onward]
    at hStart
  subst hGoal hStart
  -- The file is outside of what has been changed so far.
  have hKept :=
    (hCopied.changes.trans hMade).find?_of_file
      (not_isBelow_of_find? hSound hNew hPart.found)
      hPart.found
  rw [hFound] at hKept
  cases hKept
  rw [← hSet]
  exact hCopied.set hPart.some hPart.found hMade hGains

/- So are all files of a list, one after another. -/
theorem hasCopied_of_copyParts
    {parts : List (Path × List OsText)}
    (hParts :
      ∀ part ∈ parts,
        ∃ content,
          IsListed outside.directory.names tree base part
            content)
    (hCopied :
      HasCopied outside.directory.names base directory isDone
        tree session.tree)
    (hRun :
      (copyParts directory parts).perform outside session =
        (.ok (), after)) :
    HasCopied outside.directory.names base directory
      (fun found =>
        isDone found ∨ found ∈ parts.map Prod.snd)
      tree after.tree := by
  induction parts generalizing isDone session with
  | nil =>
      cases hRun
      exact hCopied.congr fun found _ _ => by simp
  | cons part parts ih =>
      rcases List.forall_mem_cons.mp hParts with
        ⟨⟨content, hFirst⟩, hRest⟩
      rw [copyParts, List.forIn_cons] at hRun
      rcases exists_of_perform_bind hRun with
        ⟨next, between, hStep, hLater⟩
      rcases exists_of_perform_bind hStep with
        ⟨_, _, hCopy, hNext⟩
      cases hNext
      have hOne :=
        hasCopied_of_copyPart hSound hNew hFirst hCopied hCopy
      refine (ih hRest hOne hLater).congr fun found _ _ => ?_
      rw [List.map_cons, List.mem_cons, or_assoc]

end Steps

/- Files that are listed first are copied then. -/
theorem perform_copyTemplate
    (outside : Outside ω)
    (session : Session ω)
    (base directory : Path) :
    (copyTemplate base directory false).perform outside
        session =
      (copyParts directory
          (templateParts outside.directory.names session.tree
            base)).perform
        outside session := by
  have hSame :
      (copyTemplate base directory false : Action ω Unit) =
        templateSources base >>= copyParts directory := by
    unfold copyTemplate
    refine congrArg (_ >>= ·) (funext fun parts => ?_)
    simp only [copyParts, copyPart, bind_assoc]
    exact bind_pure_unit
  rw [hSame,
    perform_bind_of_ok _
      (perform_templateSources outside session base)]

/- All files that a template hands on are copied. -/
theorem hasCopied_of_copyTemplate
    {session after : Session ω}
    (hSound : session.tree.IsSound)
    (hNew :
      session.tree.find?
          (spelledLocation outside.directory.names
            directory) =
        none)
    (hBase :
      isDirectory session.tree outside.directory.names base =
        true)
    (hRun :
      (copyTemplate base directory false).perform outside
          session =
        (.ok (), after)) :
    HasCopied outside.directory.names base directory IsPart
      session.tree after.tree := by
  rw [perform_copyTemplate] at hRun
  have hParts :
      ∀ part ∈
          templateParts outside.directory.names session.tree
            base,
        ∃ content,
          IsListed outside.directory.names session.tree base
            part content := by
    rintro ⟨source, names⟩ hMem
    rcases (mem_templateParts_iff hSound hBase).mp hMem with
      ⟨hSource, _, content, hFound⟩
    have hOnward := hSound.parentName_not_mem hFound
    rw [List.mem_append, not_or] at hOnward
    exact
      ⟨content, hSource, hOnward.2,
        ne_nil_of_find?_file hBase hFound, hFound⟩
  refine
    (hasCopied_of_copyParts hSound hNew hParts
        (hasCopied_none hSound hNew) hRun).congr
      fun names content hFound => ?_
  rw [false_or, List.mem_map]
  constructor
  · rintro ⟨⟨source, names⟩, hMem, rfl⟩
    exact ((mem_templateParts_iff hSound hBase).mp hMem).2.1
  · intro hPart
    exact
      ⟨(base.onward names, names),
        (mem_templateParts_iff hSound hBase).mpr
          ⟨rfl, hPart, content, hFound⟩,
        rfl⟩

end Workspace

end ScriptWorkspace
