import Mathlib.Data.List.InsertIdx
import ScriptWorkspace.Proofs.Path.Spelling
import ScriptWorkspace.Proofs.Toml.Arrays
import ScriptWorkspace.Proofs.Toml.Lookup
import ScriptWorkspace.Proofs.Workspace.Plan

/-
  What a change does to the lists of a workspace.

  In a list a path is added at the end, unless an entry leads
  to it, and then the first entry that leads to a path is
  removed. All else in the manifest has the value it had.

  Main declarations:
    * `Membership.inWorkspace`
    * `Membership.Adds`
    * `Membership.Removes`
    * `Membership.EditsList`
    * `Membership.SetsList`
    * `Membership.IsOpened`
    * `Membership.isOpened_openList`
    * `Membership.plannedList_edits`
-/

namespace ScriptWorkspace

namespace Membership

open Toml.Layout

------------------------------------------------------------
-- Values
------------------------------------------------------------

/- The value of a key of the workspace in a manifest. -/
def inWorkspace
    (key : Text)
    (manifest : Toml.Table) : Option Toml := do
  let workspace ← Toml.find? "workspace" manifest
  Toml.find? key (← workspace.table?)

/- The values of an array. -/
def valuesOf (groups : List Group) : List Toml :=
  (arrayItems groups).map Item.value

/- The value leads to a path as the text does. -/
abbrev LeadsAs
    (root : Path)
    (target : Text)
    (value : Toml) : Prop :=
  isEntryFor root target value = true

------------------------------------------------------------
-- Edits
------------------------------------------------------------

/- How a path is added to a list, which may be missing. -/
inductive Adds (root : Path) :
    Option Path →
    Option (List Toml) →
    Option (List Toml) →
    List Text →
    Prop
  | nothing (old : Option (List Toml)) :
      Adds root none old old []
  | listed
      {path : Path}
      {target : Text}
      {values : List Toml}
      (hTarget : relativeToRoot root path = .ok target)
      (hListed : ∃ value ∈ values, LeadsAs root target value) :
      Adds root (some path) (some values) (some values) []
  | appended
      {path : Path}
      {target : Text}
      {old : Option (List Toml)}
      (hTarget : relativeToRoot root path = .ok target)
      (hNew :
        ∀ value ∈ old.getD [], ¬ LeadsAs root target value)
      (hJoined : root.join target = path) :
      Adds root (some path) old
        (some (old.getD [] ++ [.string target])) [target]

/- How a path is removed from a list, which may be missing. -/
inductive Removes (root : Path) :
    Option Path →
    Option (List Toml) →
    Option (List Toml) →
    List Text →
    Prop
  | nothing (old : Option (List Toml)) :
      Removes root none old old []
  | missing (path : Path) :
      Removes root (some path) none none []
  | unlisted
      {path : Path}
      {target : Text}
      {values : List Toml}
      (hTarget : relativeToRoot root path = .ok target)
      (hNone : ∀ value ∈ values, ¬ LeadsAs root target value) :
      Removes root (some path) (some values) (some values) []
  | erased
      {path : Path}
      {target : Text}
      {before after : List Toml}
      {value : Toml}
      (hTarget : relativeToRoot root path = .ok target)
      (hBefore :
        ∀ other ∈ before, ¬ LeadsAs root target other)
      (hValue : LeadsAs root target value) :
      Removes root (some path)
        (some (before ++ value :: after))
        (some (before ++ after)) [target]

/-
  How a list of a manifest changes, with the texts that are
  added and removed. It is not even read if nothing is to be
  changed in it.
-/
inductive EditsList
    (root : Path)
    (change : ListChange)
    (before after : Option Toml) :
    (added removed : List Text) →
    Prop
  | untouched
      (hChange : change = .none)
      (hSame : after = before) :
      EditsList root change before after [] []
  | edited
      {old middle new : Option (List Toml)}
      {added removed : List Text}
      (hBefore : before = old.map .array)
      (hAdds : Adds root change.add old middle added)
      (hRemoves :
        Removes root change.remove middle new removed)
      (hAfter : after = new.map .array) :
      EditsList root change before after added removed

------------------------------------------------------------
-- Setting A List
------------------------------------------------------------

/- A manifest in which a list has got other values. -/
structure SetsList
    (listing : Listing)
    (values : List Toml)
    (before after : Toml.Table) : Prop where
  value :
    inWorkspace listing.key after = some (.array values)
  keys :
    ∀ key, key ≠ listing.key →
      inWorkspace key after = inWorkspace key before
  names :
    ∀ name : Text, name ≠ "workspace" →
      Toml.find? name after = Toml.find? name before

/- A key of the workspace in a manifest with a workspace. -/
theorem inWorkspace_of_find?
    {manifest members : Toml.Table}
    (key : Text)
    (hFound :
      Toml.find? "workspace" manifest =
        some (.table members)) :
    inWorkspace key manifest = Toml.find? key members := by
  unfold inWorkspace
  rw [hFound]
  rfl

theorem inWorkspace_of_missing
    {manifest : Toml.Table}
    (key : Text)
    (hMissing : Toml.find? "workspace" manifest = none) :
    inWorkspace key manifest = none := by
  unfold inWorkspace
  rw [hMissing]
  rfl

theorem setsList_of_hasPutIn
    {listing : Listing}
    {values : List Toml}
    {document after : Document}
    (hPut :
      HasPutIn "workspace" listing.key (.array values)
        document after) :
    SetsList listing values (bodyTable document)
      (bodyTable after) := by
  rcases hPut.table with
    ⟨members, changed, hMembers, hChanged, hValues⟩
  constructor
  case value =>
    rw [inWorkspace_of_find? _ hChanged, hValues, if_pos rfl]
  case keys =>
    intro key hKey
    rw [inWorkspace_of_find? _ hChanged,
      inWorkspace_of_find? _ hMembers, hValues, if_neg hKey]
  case names => exact hPut.others

theorem setsList_putList
    {listing : Listing}
    {document : Document}
    (groups : List Group)
    (hCan : CanPut "workspace" listing.key document) :
    SetsList listing (valuesOf groups) (bodyTable document)
      (bodyTable (putList listing groups document)) :=
  setsList_of_hasPutIn (hasPutIn_setIn (.array groups) hCan)

------------------------------------------------------------
-- Opening A List
------------------------------------------------------------

/- The values of a list that is there or is to be made. -/
def Holds (old : Option (List Toml)) (values : List Toml) :
    Prop :=
  old = some values ∨ old = none ∧ values = []

theorem Holds.getD
    {old : Option (List Toml)}
    {values : List Toml}
    (hOld : Holds old values) :
    old.getD [] = values := by
  rcases hOld with rfl | ⟨rfl, rfl⟩ <;> rfl

/-
  A list that was opened in a document: it was found there or
  made in the next one, with a workspace for it.
-/
structure IsOpened
    (listing : Listing)
    (create : Bool)
    (document : Document)
    (old : Option (List Toml))
    (groups : List Group)
    (next : Document) : Prop where
  before :
    inWorkspace listing.key (bodyTable document) =
      old.map .array
  holds : Holds old (valuesOf groups)
  found : create = false → old.isSome = true
  workspace :
    create = false →
      Toml.find? "workspace" (bodyTable document) ≠ none
  orderly : IsOrderly next
  can : CanPut "workspace" listing.key next
  keys :
    ∀ key, key ≠ listing.key →
      inWorkspace key (bodyTable next) =
        inWorkspace key (bodyTable document)
  names :
    ∀ name : Text, name ≠ "workspace" →
      Toml.find? name (bodyTable next) =
        Toml.find? name (bodyTable document)

theorem orClash_eq_ok_iff
    {α : Type}
    {result : Except Clash α}
    {found : α} :
    Manifest.orClash result = .ok found ↔
      result = .ok found := by
  cases result with
  | ok value => simp [Manifest.orClash]
  | error clash => simp [Manifest.orClash]

/- A list that is not there, in a workspace or without one. -/
inductive LacksList (listing : Listing) (document : Document) :
    Prop
  | workspace
      (hMissing :
        Toml.find? "workspace" (bodyTable document) = none)
      (hNew :
        ∀ entry ∈ document,
          entry.isNamed "workspace" = false)
  | list
      {members : Toml.Table}
      (hWorkspace :
        Toml.find? "workspace" (bodyTable document) =
          some (.table members))
      (hMissing : Toml.find? listing.key members = none)
      (hCan : CanPut "workspace" listing.key document)

/- What is known of a list that is looked for. -/
def HasList
    (listing : Listing)
    (document : Document) :
    Option (List Group) → Prop
  | some groups =>
    CanPut "workspace" listing.key document ∧
      inWorkspace listing.key (bodyTable document) =
        some (.array (valuesOf groups))
  | none => LacksList listing document

theorem hasList_groups?
    {listing : Listing}
    {document : Document}
    {found : Option (List Group)}
    (hDocument : IsOrderly document)
    (hGroups : groups? listing document = .ok found) :
    HasList listing document found := by
  unfold groups? at hGroups
  rcases Toml.bind_eq_ok_iff.mp hGroups with
    ⟨workspace, hWorkspace, hRest⟩
  have hLookup := orClash_eq_ok_iff.mp hWorkspace
  split at hRest
  case h_1 =>
    cases hRest
    rcases find?_of_lookup_missing hLookup with
      ⟨hMissing, hNew⟩
    exact .workspace hMissing hNew
  case h_2 =>
    split at hRest
    case isTrue => cases hRest
    case isFalse hTable =>
      have hTarget :=
        leadsTo_lookup hDocument hLookup (by simpa using hTable)
      rcases Toml.bind_eq_ok_iff.mp hRest with
        ⟨list, hList, hRest⟩
      have hFind := orClash_eq_ok_iff.mp hList
      split at hRest
      case h_1 =>
        cases hRest
        rcases hTarget.find?_of_find hFind (.inl rfl) with
          ⟨members, hMembers, hMissing⟩
        exact
          .list hMembers hMissing
            (hTarget.canPut hFind (.inl rfl))
      case h_2 groups =>
        cases hRest
        have hCell :
            Target.cell (.array groups) = .missing ∨
              ∃ cell,
                Target.cell (.array groups) = .cell cell :=
          .inr ⟨_, rfl⟩
        rcases hTarget.find?_of_find hFind hCell with
          ⟨members, hMembers, hValue⟩
        refine ⟨hTarget.canPut hFind hCell, ?_⟩
        rw [inWorkspace_of_find? _ hMembers, hValue]
        rfl
      case h_3 => cases hRest

/- A workspace is made in a document that lacks one. -/
theorem withWorkspace_of_new
    {document : Document}
    (hNew :
      ∀ entry ∈ document,
        entry.isNamed "workspace" = false) :
    withWorkspace document = addTable "workspace" document := by
  unfold withWorkspace
  rw [if_neg]
  simpa using hNew

theorem withWorkspace_of_find?
    {document : Document}
    {value : Toml}
    (hFound :
      Toml.find? "workspace" (bodyTable document) =
        some value) :
    withWorkspace document = document := by
  unfold withWorkspace
  rw [if_pos]
  by_contra hNone
  have hNew :
      ∀ entry ∈ document,
        entry.isNamed "workspace" = false := by
    simpa using hNone
  rw [find?_bodyTable, valueAfter_of_not_named _ hNew]
    at hFound
  cases hFound

theorem LacksList.inWorkspace_eq
    {listing : Listing}
    {document : Document}
    (hLacks : LacksList listing document) :
    inWorkspace listing.key (bodyTable document) = none := by
  cases hLacks with
  | workspace hMissing hNew =>
      exact inWorkspace_of_missing _ hMissing
  | list hWorkspace hMissing hCan =>
      rw [inWorkspace_of_find? _ hWorkspace, hMissing]

/- The list is made in a document that lacks it. -/
theorem isOpened_withList
    {listing : Listing}
    {document : Document}
    (hDocument : IsOrderly document)
    (hLacks : LacksList listing document) :
    IsOpened listing true document none []
      (withList listing (withWorkspace document)) := by
  have hMade
      {between : Document}
      (hOrderly : IsOrderly between)
      (hCan : CanPut "workspace" listing.key between)
      (hKeys :
        ∀ key,
          inWorkspace key (bodyTable between) =
            inWorkspace key (bodyTable document))
      (hNames :
        ∀ name : Text, name ≠ "workspace" →
          Toml.find? name (bodyTable between) =
            Toml.find? name (bodyTable document)) :
      IsOpened listing true document none []
        (withList listing between) := by
    have hSets := setsList_putList [] hCan
    exact
      { before := hLacks.inWorkspace_eq
        holds := .inr ⟨rfl, rfl⟩
        found := nofun
        workspace := nofun
        orderly := isOrderly_setIn _ hOrderly hCan
        can := canPut_setIn _ hCan
        keys := fun key hKey =>
          (hSets.keys key hKey).trans (hKeys key)
        names := fun name hName =>
          (hSets.names name hName).trans (hNames name hName) }
  cases hLacks with
  | workspace hMissing hNew =>
      rw [withWorkspace_of_new hNew]
      refine
        hMade (isOrderly_addTable hDocument hNew)
          (.body (hasTables_addTable hNew).1) ?_
          fun name hName =>
            find?_addTable_of_ne document hName
      intro key
      rw [inWorkspace_of_find? _ (find?_addTable_self hNew),
        inWorkspace_of_missing _ hMissing]
      rfl
  | list hWorkspace hMissing hCan =>
      rw [withWorkspace_of_find? hWorkspace]
      exact
        hMade hDocument hCan (fun _ => rfl) fun _ _ => rfl

theorem isOpened_openList
    {listing : Listing}
    {create : Bool}
    {document next : Document}
    {groups : List Group}
    (hDocument : IsOrderly document)
    (hOpen :
      openList listing create document =
        .ok (some (groups, next))) :
    ∃ old,
      IsOpened listing create document old groups next := by
  rcases Toml.bind_eq_ok_iff.mp hOpen with
    ⟨found, hFound, hRest⟩
  have hList := hasList_groups? hDocument hFound
  cases found with
  | some groups =>
      cases hRest
      rcases hList with ⟨hCan, hValue⟩
      refine
        ⟨some (valuesOf groups),
          { before := hValue
            holds := .inl rfl
            found := fun _ => rfl
            workspace := fun _ hMissing => ?_
            orderly := hDocument
            can := hCan
            keys := fun _ _ => rfl
            names := fun _ _ => rfl }⟩
      rw [inWorkspace_of_missing _ hMissing] at hValue
      cases hValue
  | none =>
      cases create with
      | true =>
          cases hRest
          exact ⟨none, isOpened_withList hDocument hList⟩
      | false => cases hRest

/- Only a list that need not be made stays missing. -/
theorem absent_of_openList
    {listing : Listing}
    {create : Bool}
    {document : Document}
    (hDocument : IsOrderly document)
    (hOpen : openList listing create document = .ok none) :
    create = false ∧
      inWorkspace listing.key (bodyTable document) = none := by
  rcases Toml.bind_eq_ok_iff.mp hOpen with
    ⟨found, hFound, hRest⟩
  have hList := hasList_groups? hDocument hFound
  cases found with
  | some groups => cases hRest
  | none =>
      cases create with
      | true => cases hRest
      | false => exact ⟨rfl, hList.inWorkspace_eq⟩

------------------------------------------------------------
-- Editing A List
------------------------------------------------------------

/- Entries with more texts of one list. -/
def Entries.addAll
    (listing : Listing)
    (texts : List Text)
    (entries : Entries) : Entries :=
  match listing with
  | .members =>
    { entries with members := entries.members ++ texts }
  | .exclude =>
    { entries with exclude := entries.exclude ++ texts }

theorem Entries.addAll_nil
    (listing : Listing)
    (entries : Entries) :
    entries.addAll listing [] = entries := by
  cases listing <;> simp [addAll]

theorem Entries.addAll_singleton
    (listing : Listing)
    (text : Text)
    (entries : Entries) :
    entries.addAll listing [text] =
      entries.add listing text := by
  cases listing <;> rfl

/- Removing the first of some values leaves the others. -/
theorem exists_of_findIdx?
    {α : Type}
    {p : α → Bool}
    {values : List α}
    {index : Nat}
    (hIndex : values.findIdx? p = some index) :
    ∃ before value after,
      values = before ++ value :: after ∧
        (∀ other ∈ before, ¬ p other = true) ∧
          p value = true ∧
            values.eraseIdx index = before ++ after := by
  induction values generalizing index with
  | nil => cases hIndex
  | cons first values ih =>
      rw [List.findIdx?_cons] at hIndex
      split at hIndex
      case isTrue hFirst =>
        cases hIndex
        exact
          ⟨[], first, values, rfl, List.forall_mem_nil _,
            hFirst, rfl⟩
      case isFalse hFirst =>
        rcases Option.map_eq_some_iff.mp hIndex with
          ⟨next, hNext, rfl⟩
        rcases ih hNext with
          ⟨before, value, after, rfl, hBefore, hValue,
            hErased⟩
        refine
          ⟨first :: before, value, after, rfl,
            List.forall_mem_cons.mpr ⟨hFirst, hBefore⟩,
            hValue, ?_⟩
        rw [List.eraseIdx_cons_succ, hErased,
          List.cons_append]

theorem valuesOf_appendItem
    (target : Text)
    (groups : List Group) :
    valuesOf (appendItem (quotedItem target) groups) =
      valuesOf groups ++ [.string target] := by
  rw [valuesOf, arrayItems_appendItem, List.map_append]
  rfl

theorem valuesOf_removeItem
    (index : Nat)
    (groups : List Group) :
    valuesOf (removeItem index groups) =
      (valuesOf groups).eraseIdx index := by
  rw [valuesOf, arrayItems_removeItem, ← List.eraseIdx_map,
    valuesOf]

/- The target of an added path leads back to the path. -/
theorem join_relativeToRoot
    {root path : Path}
    {target : Text}
    (hPath : path.IsProper)
    (hAbsolute : path.isAbsolute = true)
    (hTarget : relativeToRoot root path = .ok target) :
    root.join target = path := by
  unfold relativeToRoot at hTarget
  simp only at hTarget
  split at hTarget
  case h_1 text hText =>
    cases hTarget
    rw [OsText.eq_of_toText? hText]
    exact Path.join_relativeTo? root hPath hAbsolute
  case h_2 => cases hTarget

/- Progress that comes after more was added and removed. -/
structure Progress.Records
    (listing : Listing)
    (before after : Progress)
    (added removed : List Text) : Prop where
  document : after.document = before.document
  added : after.added = before.added.addAll listing added
  removed :
    after.removed = before.removed.addAll listing removed

theorem plannedAdd_adds
    {root path : Path}
    {listing : Listing}
    {groups others : List Group}
    {progress after : Progress}
    {old : Option (List Toml)}
    (hBack :
      ∀ target,
        relativeToRoot root path = .ok target →
          root.join target = path)
    (hOld : Holds old (valuesOf groups))
    (hAdd :
      plannedAdd root listing path groups progress =
        .ok (others, after)) :
    ∃ added,
      Adds root (some path) old (some (valuesOf others))
          added ∧
        progress.Records listing after added [] := by
  unfold plannedAdd at hAdd
  rcases Toml.bind_eq_ok_iff.mp hAdd with
    ⟨target, hTarget, hRest⟩
  cases hIndex : indexOf? root target groups with
  | some index =>
      rw [hIndex] at hRest
      cases hRest
      rcases exists_of_findIdx? hIndex with
        ⟨before, value, rest, hValues, _, hValue, _⟩
      have hMem : value ∈ valuesOf groups := by
        rw [valuesOf, hValues]
        simp
      have hSome : old = some (valuesOf groups) := by
        rcases hOld with hSome | ⟨_, hNil⟩
        · exact hSome
        · rw [hNil] at hMem
          cases hMem
      rw [hSome]
      exact
        ⟨[], .listed hTarget ⟨value, hMem, hValue⟩,
          rfl, (Entries.addAll_nil _ _).symm,
          (Entries.addAll_nil _ _).symm⟩
  | none =>
      rw [hIndex] at hRest
      cases hRest
      have hNew :
          ∀ value ∈ old.getD [],
            ¬ LeadsAs root target value := by
        rw [hOld.getD]
        intro value hMem hLeads
        have hNot :=
          List.findIdx?_eq_none_iff.mp hIndex value hMem
        exact Bool.false_ne_true (hNot.symm.trans hLeads)
      have hAdds :=
        Adds.appended hTarget hNew (hBack target hTarget)
      rw [hOld.getD] at hAdds
      rw [valuesOf_appendItem]
      exact
        ⟨[target], hAdds, rfl,
          (Entries.addAll_singleton _ _ _).symm,
          (Entries.addAll_nil _ _).symm⟩

theorem plannedRemove_removes
    {root path : Path}
    {listing : Listing}
    {groups others : List Group}
    {progress after : Progress}
    (hRemove :
      plannedRemove root listing path groups progress =
        .ok (others, after)) :
    ∃ removed,
      Removes root (some path) (some (valuesOf groups))
          (some (valuesOf others)) removed ∧
        progress.Records listing after [] removed := by
  unfold plannedRemove at hRemove
  rcases Toml.bind_eq_ok_iff.mp hRemove with
    ⟨target, hTarget, hRest⟩
  cases hIndex : indexOf? root target groups with
  | none =>
      rw [hIndex] at hRest
      cases hRest
      have hNone :
          ∀ value ∈ valuesOf groups,
            ¬ LeadsAs root target value := by
        intro value hMem hLeads
        have hNot :=
          List.findIdx?_eq_none_iff.mp hIndex value hMem
        exact Bool.false_ne_true (hNot.symm.trans hLeads)
      exact
        ⟨[], .unlisted hTarget hNone, rfl,
          (Entries.addAll_nil _ _).symm,
          (Entries.addAll_nil _ _).symm⟩
  | some index =>
      rw [hIndex] at hRest
      cases hRest
      rcases exists_of_findIdx? hIndex with
        ⟨before, value, rest, hValues, hBefore, hValue,
          hErased⟩
      rw [valuesOf_removeItem, valuesOf, hErased, hValues]
      exact
        ⟨[target], .erased hTarget hBefore hValue, rfl,
          (Entries.addAll_nil _ _).symm,
          (Entries.addAll_singleton _ _ _).symm⟩

------------------------------------------------------------
-- Changing A List
------------------------------------------------------------

/- The paths to be added are absolute and can be spelled. -/
def ListChange.IsProper (change : ListChange) : Prop :=
  ∀ path, change.add = some path →
    path.IsProper ∧ path.isAbsolute = true

/- The entries for the paths to be added lead back to them. -/
def ListChange.LeadsBack
    (root : Path)
    (change : ListChange) : Prop :=
  ∀ path, change.add = some path →
    ∀ target,
      relativeToRoot root path = .ok target →
        root.join target = path

theorem ListChange.IsProper.leadsBack
    {change : ListChange}
    (hChange : change.IsProper)
    (root : Path) :
    change.LeadsBack root := by
  intro path hPath target hTarget
  rcases hChange path hPath with ⟨hProper, hAbsolute⟩
  exact join_relativeToRoot hProper hAbsolute hTarget

/-
  Progress after one list was changed: the list is edited and
  reported, and all else has the value it had.
-/
structure HasEdited
    (root : Path)
    (listing : Listing)
    (change : ListChange)
    (added removed : List Text)
    (before after : Progress) : Prop where
  orderly : IsOrderly after.document
  reportsAdded :
    after.added = before.added.addAll listing added
  reportsRemoved :
    after.removed = before.removed.addAll listing removed
  edits :
    EditsList root change
      (inWorkspace listing.key (bodyTable before.document))
      (inWorkspace listing.key (bodyTable after.document))
      added removed
  keys :
    ∀ key, key ≠ listing.key →
      inWorkspace key (bodyTable after.document) =
        inWorkspace key (bodyTable before.document)
  names :
    ∀ name : Text, name ≠ "workspace" →
      Toml.find? name (bodyTable after.document) =
        Toml.find? name (bodyTable before.document)
  made :
    Toml.find? "workspace" (bodyTable before.document) =
        none →
      change.add = none →
        Toml.find? "workspace" (bodyTable after.document) =
          none
  kept :
    Toml.find? "workspace" (bodyTable before.document) ≠
        none →
      Toml.find? "workspace" (bodyTable after.document) ≠ none

/- Nothing is done to a list. -/
theorem hasEdited_of_same
    {root : Path}
    {listing : Listing}
    {change : ListChange}
    {progress : Progress}
    (hDocument : IsOrderly progress.document)
    (hEdits :
      EditsList root change
        (inWorkspace listing.key
          (bodyTable progress.document))
        (inWorkspace listing.key
          (bodyTable progress.document))
        [] []) :
    HasEdited root listing change [] [] progress progress where
  orderly := hDocument
  reportsAdded := (Entries.addAll_nil _ _).symm
  reportsRemoved := (Entries.addAll_nil _ _).symm
  edits := hEdits
  keys _ _ := rfl
  names _ _ := rfl
  made hMissing _ := hMissing
  kept hFound := hFound

theorem forPath_plannedAdd
    {root : Path}
    {listing : Listing}
    {change : ListChange}
    {groups others : List Group}
    {progress after : Progress}
    {old : Option (List Toml)}
    (hChange : change.LeadsBack root)
    (hOld : Holds old (valuesOf groups))
    (hFound : change.add.isSome = false → old.isSome = true)
    (hAdd :
      forPath (plannedAdd root listing) change.add groups
          progress =
        .ok (others, after)) :
    ∃ added,
      Adds root change.add old (some (valuesOf others))
          added ∧
        progress.Records listing after added [] := by
  cases hPath : change.add with
  | none =>
      rw [hPath] at hAdd hFound
      cases hAdd
      rcases hOld with rfl | ⟨rfl, _⟩
      · exact
          ⟨[], .nothing _, rfl,
            (Entries.addAll_nil _ _).symm,
            (Entries.addAll_nil _ _).symm⟩
      · cases hFound rfl
  | some path =>
      rw [hPath] at hAdd
      exact plannedAdd_adds (hChange path hPath) hOld hAdd

theorem forPath_plannedRemove
    {root : Path}
    {listing : Listing}
    {path : Option Path}
    {groups others : List Group}
    {progress after : Progress}
    (hRemove :
      forPath (plannedRemove root listing) path groups
          progress =
        .ok (others, after)) :
    ∃ removed,
      Removes root path (some (valuesOf groups))
          (some (valuesOf others)) removed ∧
        progress.Records listing after [] removed := by
  cases path with
  | none =>
      cases hRemove
      exact
        ⟨[], .nothing _, rfl,
          (Entries.addAll_nil _ _).symm,
          (Entries.addAll_nil _ _).symm⟩
  | some path => exact plannedRemove_removes hRemove

/- A missing list stays missing if nothing is added. -/
theorem editsList_absent
    {root : Path}
    {change : ListChange}
    (hAdd : change.add.isSome = false) :
    EditsList root change none none [] [] := by
  rcases change with ⟨add, remove⟩
  cases add with
  | some path => cases hAdd
  | none =>
      have hRemoves : Removes root remove none none [] := by
        cases remove with
        | none => exact .nothing none
        | some path => exact .missing path
      exact .edited rfl (.nothing none) hRemoves rfl

/- A list is edited as it was planned. -/
theorem plannedList_edits
    {root : Path}
    {listing : Listing}
    {change : ListChange}
    {progress after : Progress}
    (hChange : change.LeadsBack root)
    (hDocument : IsOrderly progress.document)
    (hPlan :
      plannedList root listing change progress =
        .ok after) :
    ∃ added removed,
      HasEdited root listing change added removed progress
        after := by
  unfold plannedList at hPlan
  split at hPlan
  case isTrue hNone =>
    cases hPlan
    exact
      ⟨[], [],
        hasEdited_of_same hDocument (.untouched hNone rfl)⟩
  case isFalse =>
    rcases Toml.bind_eq_ok_iff.mp hPlan with
      ⟨opened, hOpen, hRest⟩
    rcases opened with _ | ⟨groups, next⟩
    · cases hRest
      rcases absent_of_openList hDocument hOpen with
        ⟨hAdd, hMissing⟩
      refine
        ⟨[], [], hasEdited_of_same hDocument ?_⟩
      rw [hMissing]
      exact editsList_absent hAdd
    · rcases isOpened_openList hDocument hOpen with
        ⟨old, hOpened⟩
      rcases Toml.bind_eq_ok_iff.mp hRest with
        ⟨⟨others, between⟩, hAdd, hRest⟩
      rcases Toml.bind_eq_ok_iff.mp hRest with
        ⟨⟨final, last⟩, hRemove, hSame⟩
      cases hSame
      rcases forPath_plannedAdd hChange hOpened.holds
          hOpened.found hAdd with
        ⟨added, hAdds, hRecords⟩
      rcases forPath_plannedRemove hRemove with
        ⟨removed, hRemoves, hErased⟩
      have hLast : last.document = next := by
        rw [hErased.document, hRecords.document]
      have hSets := setsList_putList final hOpened.can
      refine ⟨added, removed, ?_⟩
      rw [hLast]
      exact
        { orderly := isOrderly_setIn _ hOpened.orderly hOpened.can
          reportsAdded := by
            rw [hErased.added, hRecords.added]
            exact Entries.addAll_nil _ _
          reportsRemoved := by
            rw [hErased.removed, hRecords.removed,
              Entries.addAll_nil]
          edits :=
            .edited hOpened.before hAdds hRemoves hSets.value
          keys := fun key hKey =>
            (hSets.keys key hKey).trans (hOpened.keys key hKey)
          names := fun name hName =>
            (hSets.names name hName).trans
              (hOpened.names name hName)
          made := fun hMissing hAdd => by
            rw [hAdd] at hOpened
            exact absurd hMissing (hOpened.workspace rfl)
          kept := fun _ hMissing => by
            have hValue := hSets.value
            rw [inWorkspace_of_missing _ hMissing] at hValue
            cases hValue }

end Membership

end ScriptWorkspace
