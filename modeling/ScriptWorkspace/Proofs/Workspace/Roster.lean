import ScriptWorkspace.Proofs.Workspace.Modification

/-
  The paths that a workspace names.

  Every entry of a list leads to a path from the root, and a
  roster holds the paths of both lists in their order. What a
  change of the members does to a manifest, it does to the
  roster: a path is put at the end if it is not named, and
  then one that names a path is taken out, the first of them.

  Main declarations:
    * `Membership.reached`
    * `Membership.reached_eq`
    * `Membership.Roster`
    * `Membership.rosterOf`
    * `Membership.Change.applyTo`
    * `Membership.Edits.rosterOf_eq`
-/

namespace ScriptWorkspace

namespace Membership

open Toml.Layout

variable {root path : Path}

------------------------------------------------------------
-- Paths Of Entries
------------------------------------------------------------

/- The path that an entry for a path leads to. -/
def reached (root path : Path) : Path :=
  root.join ((path.relativeTo? root).getD path).text

theorem join_eq_reached
    {target : Text}
    (hTarget : relativeToRoot root path = .ok target) :
    root.join target = reached root path := by
  unfold relativeToRoot at hTarget
  simp only at hTarget
  split at hTarget
  case h_1 text hText =>
    cases hTarget
    rw [OsText.eq_of_toText? hText]
    rfl
  case h_2 => cases hTarget

/- An absolute path is what its entry leads to. -/
theorem reached_eq
    (root : Path)
    (hPath : path.IsProper)
    (hAbsolute : path.isAbsolute = true) :
    reached root path = path :=
  Path.join_relativeTo? root hPath hAbsolute

/- The path that a value leads to, if it is a text. -/
def pathOf? (root : Path) (value : Toml) : Option Path :=
  value.text?.map fun (entry : Text) => root.join entry

/- The paths that values lead to. -/
def pathsOf (root : Path) (values : List Toml) : List Path :=
  values.filterMap (pathOf? root)

theorem leadsAs_iff
    {target : Text}
    {value : Toml} :
    LeadsAs root target value ↔
      pathOf? root value = some (root.join target) := by
  unfold LeadsAs isEntryFor isSamePath pathOf?
  cases value.text? with
  | none => simp
  | some entry => simp

theorem mem_pathsOf_iff
    {target : Text}
    {values : List Toml} :
    root.join target ∈ pathsOf root values ↔
      ∃ value ∈ values, LeadsAs root target value := by
  simp only [pathsOf, List.mem_filterMap, leadsAs_iff]

/- A path is named if a value leads to the entry for it. -/
theorem reached_mem_pathsOf_iff
    {target : Text}
    {values : List Toml}
    (hTarget : relativeToRoot root path = .ok target) :
    reached root path ∈ pathsOf root values ↔
      ∃ value ∈ values, LeadsAs root target value := by
  rw [← join_eq_reached hTarget, mem_pathsOf_iff]

theorem reached_not_mem_pathsOf
    {target : Text}
    {values : List Toml}
    (hTarget : relativeToRoot root path = .ok target)
    (hNone : ∀ value ∈ values, ¬ LeadsAs root target value) :
    reached root path ∉ pathsOf root values := by
  rw [reached_mem_pathsOf_iff hTarget]
  rintro ⟨value, hMem, hLeads⟩
  exact hNone value hMem hLeads

/-
  No two of the paths are the same if and only if no value
  leads where a value before it does.
-/
theorem nodup_pathsOf_iff
    {values : List Toml} :
    (pathsOf root values).Nodup ↔
      values.Pairwise fun value other =>
        ∀ entry,
          value.text? = some entry →
            ¬ LeadsAs root entry other := by
  rw [pathsOf, List.nodup_iff_pairwise_ne,
    List.pairwise_filterMap]
  refine ⟨List.Pairwise.imp ?_, List.Pairwise.imp ?_⟩
  · intro value other hApart entry hEntry hLeads
    have hFirst : pathOf? root value = some (root.join entry) :=
      by rw [pathOf?, hEntry]; rfl
    exact hApart _ hFirst _ (leadsAs_iff.mp hLeads) rfl
  · intro value other hApart first hFirst second hSecond
    rcases Option.map_eq_some_iff.mp hFirst with
      ⟨entry, hEntry, rfl⟩
    rintro rfl
    exact hApart entry hEntry (leadsAs_iff.mpr hSecond)

------------------------------------------------------------
-- Changes Of Paths
------------------------------------------------------------

/- The paths with one more, unless it is one of them. -/
def withPath (path : Path) (paths : List Path) : List Path :=
  if path ∈ paths then paths else paths ++ [path]

/- The paths after a path is added, if there is one. -/
def withAdded
    (root : Path)
    (added : Option Path)
    (paths : List Path) : List Path :=
  match added with
  | none => paths
  | some path => withPath (reached root path) paths

/- The paths after a path is removed, if there is one. -/
def withoutRemoved
    (root : Path)
    (removed : Option Path)
    (paths : List Path) : List Path :=
  match removed with
  | none => paths
  | some path => paths.erase (reached root path)

/- What a change of a list makes of its paths. -/
def ListChange.applyTo
    (root : Path)
    (change : ListChange)
    (paths : List Path) : List Path :=
  withoutRemoved root change.remove
    (withAdded root change.add paths)

/- The change of one of the lists. -/
def Change.of (change : Change) : Listing → ListChange
  | .members => change.members
  | .exclude => change.exclude

/- The paths that the lists of a workspace name. -/
abbrev Roster := Listing → List Path

/- What a change makes of a roster. -/
def Change.applyTo
    (root : Path)
    (change : Change)
    (roster : Roster) : Roster :=
  fun listing =>
    (change.of listing).applyTo root (roster listing)

/- The values of a list, none if it is no array. -/
def itemsOf : Option Toml → List Toml
  | some (.array values) => values
  | _ => []

/- The paths that a manifest names. -/
def rosterOf (root : Path) (manifest : Toml.Table) : Roster :=
  fun listing =>
    pathsOf root (itemsOf (inWorkspace listing.key manifest))

theorem itemsOf_array (old : Option (List Toml)) :
    itemsOf (old.map .array) = old.getD [] := by
  cases old <;> rfl

------------------------------------------------------------
-- Edits
------------------------------------------------------------

section Edits

variable {old new : Option (List Toml)}
variable {texts : List Text}

theorem Adds.pathsOf_eq
    {added : Option Path}
    (hAdds : Adds root added old new texts) :
    pathsOf root (new.getD []) =
      withAdded root added (pathsOf root (old.getD [])) := by
  cases hAdds with
  | nothing => rfl
  | @listed path target values hTarget hListed =>
      have hMem :=
        (reached_mem_pathsOf_iff hTarget).mpr hListed
      exact (if_pos hMem).symm
  | @appended path target _ hTarget hNew hJoined =>
      have hNot := reached_not_mem_pathsOf hTarget hNew
      have hLast :
          pathsOf root [.string target] =
            [reached root path] := by
        rw [← join_eq_reached hTarget]
        rfl
      dsimp only [Option.getD_some, withAdded]
      rw [withPath, if_neg hNot, ← hLast]
      exact List.filterMap_append

theorem Removes.pathsOf_eq
    {removed : Option Path}
    (hRemoves : Removes root removed old new texts) :
    pathsOf root (new.getD []) =
      withoutRemoved root removed
        (pathsOf root (old.getD [])) := by
  cases hRemoves with
  | nothing => rfl
  | missing path => rfl
  | @unlisted path target values hTarget hNone =>
      have hNot := reached_not_mem_pathsOf hTarget hNone
      exact (List.erase_of_not_mem hNot).symm
  | @erased path target before after value hTarget hBefore
      hValue =>
      have hNot := reached_not_mem_pathsOf hTarget hBefore
      have hPath := leadsAs_iff.mp hValue
      rw [join_eq_reached hTarget] at hPath
      have hSplit :
          pathsOf root (before ++ value :: after) =
            pathsOf root before ++
              reached root path :: pathsOf root after := by
        rw [pathsOf, List.filterMap_append,
          List.filterMap_cons_some hPath]
        rfl
      dsimp only [Option.getD_some, withoutRemoved]
      rw [hSplit, List.erase_append_right _ hNot,
        List.erase_cons_head]
      exact List.filterMap_append

/- An edited list names what the change makes of its paths. -/
theorem EditsList.pathsOf_eq
    {change : ListChange}
    {before after : Option Toml}
    {added removed : List Text}
    (hEdits :
      EditsList root change before after added removed) :
    pathsOf root (itemsOf after) =
      change.applyTo root (pathsOf root (itemsOf before)) := by
  cases hEdits with
  | untouched hChange hSame =>
      rw [hChange, hSame]
      rfl
  | edited hBefore hAdds hRemoves hAfter =>
      rw [hBefore, hAfter, itemsOf_array, itemsOf_array,
        hRemoves.pathsOf_eq, hAdds.pathsOf_eq]
      rfl

end Edits

/- A manifest is edited as its roster is. -/
theorem Edits.rosterOf_eq
    {change : Change}
    {before after : Toml.Table}
    {report : Report}
    (hEdits : Edits root change before after report) :
    rosterOf root after =
      change.applyTo root (rosterOf root before) := by
  funext listing
  cases listing with
  | members => exact hEdits.members.pathsOf_eq
  | exclude => exact hEdits.exclude.pathsOf_eq

------------------------------------------------------------
-- What A Change Keeps
------------------------------------------------------------

variable {paths : List Path}

theorem mem_withPath_iff
    {other : Path} :
    other ∈ withPath path paths ↔
      other ∈ paths ∨ other = path := by
  unfold withPath
  split
  case isTrue hMem =>
    refine ⟨.inl, ?_⟩
    rintro (hOther | rfl)
    · exact hOther
    · exact hMem
  case isFalse => simp

/- A path that is put is named once, if it was not before. -/
theorem count_withPath_le_one_iff
    {other : Path} :
    (withPath path paths).count other ≤ 1 ↔
      paths.count other ≤ 1 := by
  unfold withPath
  split
  case isTrue => rfl
  case isFalse hNot =>
    rw [List.count_append]
    by_cases hSame : path = other
    · subst hSame
      rw [List.count_eq_zero_of_not_mem hNot]
      simp
    · rw [List.count_singleton, if_neg (by simpa using hSame),
        Nat.add_zero]

theorem not_mem_erase_iff :
    path ∉ paths.erase path ↔ paths.count path ≤ 1 := by
  rw [← List.count_eq_zero, List.count_erase_self]
  omega

/- A path is gone if it was named once at most. -/
theorem not_mem_applyTo_iff
    {change : ListChange}
    (hRemove : change.remove = some path) :
    reached root path ∉ change.applyTo root paths ↔
      paths.count (reached root path) ≤ 1 := by
  rw [ListChange.applyTo, hRemove, withoutRemoved,
    not_mem_erase_iff]
  cases change.add with
  | none => rfl
  | some added => exact count_withPath_le_one_iff

/- A path that is added is named, if none is removed. -/
theorem mem_applyTo_of_add
    {change : ListChange}
    (hAdd : change.add = some path)
    (hRemove : change.remove = none) :
    reached root path ∈ change.applyTo root paths := by
  rw [ListChange.applyTo, hAdd, hRemove]
  exact mem_withPath_iff.mpr (.inr rfl)

/- No path is named that was neither named nor added. -/
theorem mem_of_mem_applyTo
    {change : ListChange}
    {other : Path}
    (hMem : other ∈ change.applyTo root paths) :
    other ∈ paths ∨
      ∃ path,
        change.add = some path ∧ other = reached root path := by
  have hGrown :
      other ∈ withAdded root change.add paths := by
    unfold ListChange.applyTo at hMem
    cases hRemove : change.remove with
    | none =>
        rw [hRemove] at hMem
        exact hMem
    | some path =>
        rw [hRemove] at hMem
        exact List.mem_of_mem_erase hMem
  cases hAdd : change.add with
  | none =>
      rw [hAdd] at hGrown
      exact .inl hGrown
  | some path =>
      rw [hAdd] at hGrown
      exact
        (mem_withPath_iff.mp hGrown).imp id
          fun hOther => ⟨path, rfl, hOther⟩

/- Paths that are all different stay so. -/
theorem nodup_applyTo
    (change : ListChange)
    (hPaths : paths.Nodup) :
    (change.applyTo root paths).Nodup := by
  have hGrown :
      (withAdded root change.add paths).Nodup := by
    cases change.add with
    | none => exact hPaths
    | some path =>
        dsimp only [withAdded, withPath]
        split
        case isTrue => exact hPaths
        case isFalse hNot =>
          rw [← List.concat_eq_append]
          exact hPaths.concat hNot
  unfold ListChange.applyTo
  cases change.remove with
  | none => exact hGrown
  | some path => exact hGrown.erase _

end Membership

end ScriptWorkspace
