import ScriptWorkspace.Proofs.Path.Home
import ScriptWorkspace.Settings.Basic

/-
  Entries of workspaces.

  The entry of a workspace is the first one whose key stands
  for its root. To set it is to change this entry in its
  place, or else to add one: there a new key cannot stand for
  any other root, so no other entry is taken for this one.

  Main declarations:
    * `Settings.SetsEntry`
    * `Settings.exists_withWorkspace?`
    * `Settings.setsEntry_put`
    * `Settings.SetsEntry.workspace?_eq`
    * `Settings.SetsEntry.workspace?_of_ne`
-/

namespace ScriptWorkspace

namespace Settings

variable {settings : Settings}
variable {entries others : List (Text × WorkspaceSettings)}
variable {key : Text}
variable {old new workspace : WorkspaceSettings}
variable {root home : Path}

------------------------------------------------------------
-- Lists Of Entries
------------------------------------------------------------

/- No entry is one for the root. -/
def IsUnknown
    (root home : Path)
    (entries : List (Text × WorkspaceSettings)) : Prop :=
  ∀ entry ∈ entries, Path.expand entry.1 home ≠ root

/-
  The entry for a root is set: the first one that there is,
  or else a new one at the end.
-/
inductive SetsEntry
    (root home : Path)
    (old new : WorkspaceSettings) :
    List (Text × WorkspaceSettings) →
    List (Text × WorkspaceSettings) →
    Prop
  | changed
      {key : Text}
      {front back : List (Text × WorkspaceSettings)}
      (hFront : IsUnknown root home front)
      (hKey : Path.expand key home = root) :
      SetsEntry root home old new
        (front ++ (key, old) :: back)
        (front ++ (key, new) :: back)
  | added
      {key : Text}
      {entries : List (Text × WorkspaceSettings)}
      (hEntries : IsUnknown root home entries)
      (hKey : Path.expand key home = root)
      (hOld : old = .empty) :
      SetsEntry root home old new entries
        (entries ++ [(key, new)])

/- An entry is found after others that are not meant. -/
theorem find?_append_of_isUnknown
    (back : List (Text × WorkspaceSettings))
    (hFront : IsUnknown root home entries) :
    (entries ++ back).find?
        (fun entry => Path.expand entry.1 home == root) =
      back.find?
        (fun entry => Path.expand entry.1 home == root) := by
  have hNone :
      entries.find?
          (fun entry => Path.expand entry.1 home == root) =
        none :=
    List.find?_eq_none.mpr fun entry hMem => by
      simpa using hFront entry hMem
  rw [List.find?_append, hNone, Option.none_or]

namespace SetsEntry

variable {before after : Settings}

/- The entry for the root is the one that was set. -/
theorem workspace?_eq
    (hSets :
      SetsEntry root home old new before.workspaces
        after.workspaces) :
    after.workspace? root home = some new := by
  unfold workspace? entry?
  generalize before.workspaces = entries at hSets
  generalize after.workspaces = others at hSets
  cases hSets with
  | changed hFront hKey =>
      rw [find?_append_of_isUnknown _ hFront]
      simp [hKey]
  | added hEntries hKey _ =>
      rw [find?_append_of_isUnknown _ hEntries]
      simp [hKey]

/- It was changed from what was set before, if anything. -/
theorem old_eq
    (hSets :
      SetsEntry root home old new before.workspaces
        after.workspaces) :
    (before.workspace? root home).getD .empty = old := by
  unfold workspace? entry?
  generalize before.workspaces = entries at hSets
  generalize after.workspaces = others at hSets
  cases hSets with
  | changed hFront hKey =>
      rw [find?_append_of_isUnknown _ hFront]
      simp [hKey]
  | added hEntries _ hOld =>
      rw [← List.append_nil entries,
        find?_append_of_isUnknown [] hEntries, hOld]
      rfl

/- Another root has the entry that it had. -/
theorem workspace?_of_ne
    {other : Path}
    (hSets :
      SetsEntry root home old new before.workspaces
        after.workspaces)
    (hOther : other ≠ root) :
    after.workspace? other home =
      before.workspace? other home := by
  unfold workspace? entry?
  generalize before.workspaces = entries at hSets
  generalize after.workspaces = others at hSets
  cases hSets with
  | changed _ hKey =>
      simp [List.find?_append, hKey, hOther.symm]
  | added _ hKey _ =>
      simp [List.find?_append, hKey, hOther.symm]

/- No key is there twice if none was before. -/
theorem nodup_keys
    (hSets :
      SetsEntry root home old new before.workspaces
        after.workspaces)
    (hNodup : (before.workspaces.map Prod.fst).Nodup) :
    (after.workspaces.map Prod.fst).Nodup := by
  generalize before.workspaces = entries at hSets hNodup
  generalize after.workspaces = others at hSets
  cases hSets with
  | changed _ _ => simpa using hNodup
  | added hEntries hKey _ =>
      rw [List.map_append, List.map_singleton,
        List.nodup_append]
      refine ⟨hNodup, by simp, ?_⟩
      rintro name hMem _ hName rfl
      cases List.mem_singleton.mp hName
      rcases List.mem_map.mp hMem with ⟨entry, hEntry, hSame⟩
      exact hEntries entry hEntry (hSame ▸ hKey)

end SetsEntry

------------------------------------------------------------
-- Setting An Entry
------------------------------------------------------------

theorem putWorkspace_append
    {front : List (Text × WorkspaceSettings)}
    (new : WorkspaceSettings)
    (back : List (Text × WorkspaceSettings))
    (hFront : ∀ entry ∈ front, entry.1 ≠ key) :
    putWorkspace key new (front ++ back) =
      front ++ putWorkspace key new back := by
  induction front with
  | nil => rfl
  | cons entry front ih =>
      rcases List.forall_mem_cons.mp hFront with
        ⟨hEntry, hRest⟩
      rw [List.cons_append, putWorkspace, if_neg hEntry,
        ih hRest, List.cons_append]

/- A key that stands for the root is not among the others. -/
theorem ne_key_of_isUnknown
    (hKey : Path.expand key home = root)
    (hEntries : IsUnknown root home entries) :
    ∀ entry ∈ entries, entry.1 ≠ key := by
  rintro entry hMem rfl
  exact hEntries entry hMem hKey

/- A path that is a text has an entry. -/
theorem exists_withWorkspace?
    (settings : Settings)
    (home : Path)
    (hText : root.text.toText?.isSome = true) :
    ∃ entry, settings.withWorkspace? root home = some entry := by
  rcases Option.isSome_iff_exists.mp hText with
    ⟨text, hText⟩
  unfold withWorkspace?
  cases settings.entry? root home with
  | some entry => exact ⟨_, rfl⟩
  | none =>
      simp [Path.compress?, hText]

/- Only an entry is added, if anything. -/
theorem withWorkspace?_rest
    {entered : Settings}
    (hEntry :
      settings.withWorkspace? root home =
        some (key, old, entered)) :
    entered.default = settings.default ∧
      entered.token = settings.token ∧
        entered.template = settings.template := by
  unfold withWorkspace? at hEntry
  cases hFound : settings.entry? root home with
  | some entry =>
      rw [hFound] at hEntry
      cases hEntry
      exact ⟨rfl, rfl, rfl⟩
  | none =>
      rw [hFound] at hEntry
      rcases Option.bind_eq_some_iff.mp hEntry with
        ⟨form, _, hEntry⟩
      cases hEntry
      exact ⟨rfl, rfl, rfl⟩

/- To put another value for an entry is to set it. -/
theorem setsEntry_put
    {entered : Settings}
    (new : WorkspaceSettings)
    (hRoot : root.IsProper)
    (hHome : home.IsProper)
    (hRootAnchor : root.anchor = .root)
    (hHomeAnchor : home.anchor = .root)
    (hEntry :
      settings.withWorkspace? root home =
        some (key, old, entered)) :
    SetsEntry root home old new settings.workspaces
      (entered.put key new).workspaces := by
  unfold withWorkspace? at hEntry
  cases hFound : settings.entry? root home with
  | some entry =>
      rcases entry with ⟨found, workspace⟩
      simp only [hFound, Option.some.injEq, Prod.mk.injEq]
        at hEntry
      rcases hEntry with ⟨rfl, rfl, rfl⟩
      rcases List.find?_eq_some_iff_append.mp hFound with
        ⟨hKey, front, back, hAll, hOthers⟩
      have hKey : Path.expand found home = root := by
        simpa using hKey
      have hFront : IsUnknown root home front := by
        intro entry hMem
        simpa using hOthers entry hMem
      rw [put, hAll,
        putWorkspace_append new _
          (ne_key_of_isUnknown hKey hFront),
        putWorkspace, if_pos rfl]
      exact .changed hFront hKey
  | none =>
      rw [hFound] at hEntry
      rcases Option.bind_eq_some_iff.mp hEntry with
        ⟨form, hForm, hEntry⟩
      simp only [pure, Option.some.injEq, Prod.mk.injEq]
        at hEntry
      rcases hEntry with ⟨rfl, rfl, rfl⟩
      have hKey : Path.expand form home = root :=
        Path.expand_compress? hRoot hHome hRootAnchor
          hHomeAnchor hForm
      have hNone : IsUnknown root home settings.workspaces := by
        intro entry hMem
        simpa using List.find?_eq_none.mp hFound entry hMem
      have hOthers := ne_key_of_isUnknown hKey hNone
      have hEmpty :
          (settings.put form .empty).workspaces =
            settings.workspaces ++ [(form, .empty)] := by
        have hPut := putWorkspace_append .empty [] hOthers
        rwa [List.append_nil] at hPut
      rw [put, hEmpty, putWorkspace_append new _ hOthers,
        putWorkspace, if_pos rfl]
      exact .added hNone hKey rfl

end Settings

end ScriptWorkspace
