import ScriptWorkspace.Proofs.Storage.Staging

/-
  Moving staged files to their places.

  A move puts a file where its path leads to, if that is no
  directory, and takes it from what is staged. What is still
  staged is not touched, as no path is named like one of the
  temporary files. So after some moves the tree is the one
  with the files put, but for those that are still staged.

  Main declarations:
    * `Calls.Takes`
    * `Calls.IsStaging.move`
    * `Calls.putFiles`
    * `Calls.find?_putFiles_of_ne`
    * `Calls.find?_putFiles_of_last`
-/

namespace ScriptWorkspace

namespace Storage

namespace Calls

variable {tree : Tree}

------------------------------------------------------------
-- Moving
------------------------------------------------------------

/- A file can be put where the path leads to. -/
structure Takes
    (tree : Tree)
    (place : Location)
    (path : Path)
    (location : Location) : Prop where
  resolved : tree.resolve place path = .ok location
  ends : endsInName path = true
  free : tree.find? location ≠ some .directory

theorem Takes.of_sameDirectories
    {other : Tree}
    {place location : Location}
    {path : Path}
    (hTakes : Takes tree place path location)
    (hSame : tree.SameDirectories other) :
    Takes other place path location where
  resolved := hSame.resolve_eq_ok_iff.mp hTakes.resolved
  ends := hTakes.ends
  free := fun hFound =>
    hTakes.free ((hSame location).mpr hFound)

/- A path that a file was moved to takes it. -/
theorem takes_of_moveFile
    {moved : Tree}
    {place start : Location}
    {node : Node}
    {source target : Path}
    (hStart : tree.resolve place source = .ok start)
    (hNode : tree.find? start = some node)
    (hMove : moveFile tree place source target = .ok moved) :
    ∃ goal,
      Takes tree place target goal ∧
        moved = (tree.erase start).set goal node := by
  unfold moveFile at hMove
  rw [hStart] at hMove
  cases hGoal : tree.resolve place target with
  | error kind =>
      rw [hGoal] at hMove
      cases hMove
  | ok goal =>
      rw [hGoal] at hMove
      dsimp only at hMove
      cases hEnds : endsInName target with
      | false =>
          rw [hEnds] at hMove
          cases hMove
      | true =>
          rw [hEnds, hNode] at hMove
          refine ⟨goal, ⟨hGoal, hEnds, ?_⟩, ?_⟩
          · intro hDirectory
            rw [hDirectory] at hMove
            cases hMove
          · cases hFound : tree.find? goal with
            | none =>
                rw [hFound] at hMove
                cases hMove
                rfl
            | some found =>
                cases found with
                | directory =>
                    rw [hFound] at hMove
                    cases hMove
                | file content =>
                    rw [hFound] at hMove
                    cases hMove
                    rfl

/- A file can be moved to a path that takes it. -/
theorem exists_moveFile_of_takes
    {place start goal : Location}
    {node : Node}
    {source target : Path}
    (hStart : tree.resolve place source = .ok start)
    (hNode : tree.find? start = some node)
    (hTakes : Takes tree place target goal) :
    ∃ moved,
      moveFile tree place source target = .ok moved := by
  unfold moveFile
  rw [hStart, hTakes.resolved]
  dsimp only
  rw [hTakes.ends, hNode]
  have hFree := hTakes.free
  cases hFound : tree.find? goal with
  | none => exact ⟨_, rfl⟩
  | some found =>
      cases found with
      | directory => exact absurd hFound hFree
      | file content => exact ⟨_, rfl⟩

/- No location of the files is that of a path of the name. -/
theorem IsStaging.not_mem_of_name
    {place : Location}
    {base : Tree}
    {files : List StagedFile}
    {name : OsText}
    (hStaging : IsStaging place base files tree)
    (hName :
      ∀ file ∈ files,
        ∀ n, name ≠ temporaryName file.path.name n)
    (parent : Location) :
    parent ++ [name] ∉ files.map (·.location) := by
  intro hMem
  rcases List.mem_map.mp hMem with ⟨file, hFile, hSame⟩
  rcases hStaging.named file hFile with ⟨other, n, hNamed⟩
  rw [hNamed] at hSame
  have hLast := (List.append_inj' hSame rfl).2
  exact hName file hFile n (List.cons.inj hLast).1.symm

/- Files are staged where there was nothing. -/
theorem IsStaging.find?_base
    {place : Location}
    {base : Tree}
    {files : List StagedFile}
    (hStaging : IsStaging place base files tree)
    {location : Location}
    (hMem : location ∈ files.map (·.location)) :
    base.find? location = none := by
  rw [← hStaging.base_eq]
  refine Tree.find?_without_of_mem tree ?_ hMem
  rcases List.mem_map.mp hMem with ⟨file, hFile, rfl⟩
  rcases hStaging.named file hFile with ⟨parent, n, hNamed⟩
  rw [hNamed]
  exact List.append_ne_nil_of_right_ne_nil _
    (List.cons_ne_nil _ _)

/- A staged file that is moved to its path. -/
theorem IsStaging.move
    {place : Location}
    {base moved : Tree}
    {file : StagedFile}
    {files : List StagedFile}
    (hStaging : IsStaging place base (file :: files) tree)
    (hApart :
      ∀ goal,
        Takes base place file.path goal →
          goal ∉ files.map (·.location))
    (hMove :
      moveFile tree place file.temporary file.path =
        .ok moved) :
    ∃ goal,
      Takes base place file.path goal ∧
        IsStaging place (base.set goal (.file file.content))
          files moved := by
  rcases takes_of_moveFile
      (hStaging.resolved file List.mem_cons_self)
      (hStaging.found file List.mem_cons_self) hMove with
    ⟨goal, hTakes, rfl⟩
  have hTail := hStaging.tail
  have hBase :=
    hTakes.of_sameDirectories hStaging.sameDirectories
  refine ⟨goal, hBase, hTail.set ?_ (hApart goal hBase) _⟩
  intro hFound
  exact hBase.free ((hTail.sameDirectories _).mp hFound)

------------------------------------------------------------
-- Putting Files
------------------------------------------------------------

/- The tree with files put where their paths lead to. -/
def putFiles (place : Location) :
    List (Path × Content) → Tree → Tree
  | [], tree => tree
  | (path, content) :: files, tree =>
    match tree.resolve place path with
    | .ok location =>
      putFiles place files (tree.set location (.file content))
    | .error _ => putFiles place files tree

theorem putFiles_cons
    {place goal : Location}
    {path : Path}
    (hTakes : Takes tree place path goal)
    (content : Content)
    (files : List (Path × Content)) :
    putFiles place ((path, content) :: files) tree =
      putFiles place files (tree.set goal (.file content)) := by
  rw [putFiles, hTakes.resolved]

/- A path that takes a file still does after another one. -/
theorem Takes.set
    {place location goal : Location}
    {path other : Path}
    (hTakes : Takes tree place path location)
    (hOther : Takes tree place other goal)
    (content : Content) :
    Takes (tree.set goal (.file content)) place path location :=
  hTakes.of_sameDirectories
    (Tree.sameDirectories_set hOther.free)

theorem Takes.of_set
    {place location goal : Location}
    {path other : Path}
    {content : Content}
    (hOther : Takes tree place other goal)
    (hTakes :
      Takes (tree.set goal (.file content)) place path
        location) :
    Takes tree place path location :=
  hTakes.of_sameDirectories
    (Tree.sameDirectories_set hOther.free).symm

/- Elsewhere nothing is put. -/
theorem find?_putFiles_of_ne
    {place location : Location}
    {files : List (Path × Content)}
    (hTaken :
      ∀ file ∈ files,
        ∃ goal,
          Takes tree place file.1 goal ∧ goal ≠ location) :
    (putFiles place files tree).find? location =
      tree.find? location := by
  induction files generalizing tree with
  | nil => rfl
  | cons file files ih =>
      rcases file with ⟨path, content⟩
      rcases List.forall_mem_cons.mp hTaken with
        ⟨⟨goal, hTakes, hOther⟩, hRest⟩
      rw [putFiles_cons hTakes]
      refine (ih fun file hMem => ?_).trans
        (Tree.find?_set_of_ne tree _ (Ne.symm hOther))
      rcases hRest file hMem with ⟨other, hFile, hNe⟩
      exact ⟨other, hFile.set hTakes content, hNe⟩

/- No directory comes or goes where files are put. -/
theorem sameDirectories_putFiles
    {place : Location}
    {files : List (Path × Content)}
    (hTaken :
      ∀ file ∈ files,
        ∃ goal, Takes tree place file.1 goal) :
    tree.SameDirectories (putFiles place files tree) := by
  induction files generalizing tree with
  | nil => exact fun _ => Iff.rfl
  | cons file files ih =>
      rcases file with ⟨path, content⟩
      rcases List.forall_mem_cons.mp hTaken with
        ⟨⟨goal, hTakes⟩, hRest⟩
      rw [putFiles_cons hTakes]
      have hFirst :
          tree.SameDirectories
            (tree.set goal (.file content)) :=
        Tree.sameDirectories_set hTakes.free
      have hOthers :=
        ih fun file hMem =>
          (hRest file hMem).imp fun _ hFile =>
            hFile.set hTakes content
      exact fun location =>
        (hFirst location).trans (hOthers location)

/-
  A file is found where it was put if none that comes after
  it goes there.
-/
theorem find?_putFiles_of_last
    {place goal : Location}
    {path : Path}
    {content : Content}
    {front back : List (Path × Content)}
    (hTaken :
      ∀ file ∈ front ++ (path, content) :: back,
        ∃ goal, Takes tree place file.1 goal)
    (hGoal : Takes tree place path goal)
    (hLast :
      ∀ file ∈ back, ¬ Takes tree place file.1 goal) :
    (putFiles place (front ++ (path, content) :: back)
          tree).find? goal =
      some (.file content) := by
  induction front generalizing tree with
  | nil =>
      rw [List.nil_append] at hTaken ⊢
      have hRest := (List.forall_mem_cons.mp hTaken).2
      have hNonroot : goal ≠ [] := by
        rintro rfl
        exact hGoal.free rfl
      rw [putFiles_cons hGoal]
      refine
        (find?_putFiles_of_ne fun other hOther => ?_).trans
          (Tree.find?_set_self tree _ hNonroot)
      rcases hRest other hOther with ⟨location, hTakes⟩
      refine ⟨location, hTakes.set hGoal content, ?_⟩
      rintro rfl
      exact hLast other hOther hTakes
  | cons first front ih =>
      rcases first with ⟨before, text⟩
      rw [List.cons_append] at hTaken ⊢
      rcases List.forall_mem_cons.mp hTaken with
        ⟨⟨start, hTakes⟩, hRest⟩
      rw [putFiles_cons hTakes]
      refine ih ?_ (hGoal.set hTakes text) ?_
      · intro file hMem
        rcases hRest file hMem with ⟨location, hFile⟩
        exact ⟨location, hFile.set hTakes text⟩
      · intro file hMem hFile
        exact hLast file hMem (.of_set hTakes hFile)

end Calls

end Storage

end ScriptWorkspace
