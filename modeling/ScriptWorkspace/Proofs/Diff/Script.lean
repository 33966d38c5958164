import Mathlib.Data.List.Chain
import ScriptWorkspace.Proofs.Diff.Matching

/-
  A line diff as an edit script.

  The entries of a diff tell both lists, each without a line
  lost or shown twice. They are found by matching the first
  of the longest runs, and then what lies before it and what
  lies after it in the same way. Between two matches the
  removed lines come first.

  Main declarations:
    * `Diff.IsScript`
    * `Diff.IsScript.unique`
    * `Diff.isScript_entries`
    * `Diff.IsScript.isOrdered`
    * `Diff.IsScript.forall_isSame_iff`
    * `Diff.IsFaithful`
    * `Diff.lines_tell_both_texts`
-/

namespace ScriptWorkspace

namespace Diff

variable {α : Type}
variable {olds news : List α}
variable {script : List (Entry α)}

------------------------------------------------------------
-- Edit Scripts
------------------------------------------------------------

/-
  The entries that the matching of two lists comes to. Lists
  that share nothing are not matched any further. There is no
  element that counts as too frequent to be matched.
-/
inductive IsScript :
    List α → List α → List (Entry α) → Prop
  | apart
      {olds news : List α}
      (hApart : ∀ x ∈ olds, x ∉ news) :
      IsScript olds news
        (olds.map .removed ++ news.map .added)
  | matched
      {olds news : List α}
      {run : Run}
      {before after : List (Entry α)}
      (hRun : run.IsFirstLongest olds news)
      (hLength : 0 < run.length)
      (hBefore :
        IsScript (olds.take run.old) (news.take run.new)
          before)
      (hAfter :
        IsScript (olds.drop (run.old + run.length))
          (news.drop (run.new + run.length)) after) :
      IsScript olds news
        (before ++
          ((olds.drop run.old).take run.length).map .same ++
            after)

/- The matching of two lists comes to one script only. -/
theorem IsScript.unique
    {other : List (Entry α)}
    (hScript : IsScript olds news script)
    (hOther : IsScript olds news other) :
    script = other := by
  induction hScript generalizing other with
  | apart hApart =>
      cases hOther with
      | apart _ => rfl
      | matched hRun hLength _ _ =>
          rcases hRun.common.exists_mem hLength with
            ⟨x, hOld, hNew⟩
          exact absurd hNew (hApart x hOld)
  | matched hRun hLength _ _ ihBefore ihAfter =>
      cases hOther with
      | apart hApart =>
          rcases hRun.common.exists_mem hLength with
            ⟨x, hOld, hNew⟩
          exact absurd hNew (hApart x hOld)
      | matched hOtherRun hOtherLength hBefore hAfter =>
          obtain rfl :=
            hOtherRun.unique hRun hOtherLength hLength
          rw [ihBefore hBefore, ihAfter hAfter]

------------------------------------------------------------
-- Entries
------------------------------------------------------------

section Entries

variable [DecidableEq α]

/-
  The entries are what the matching comes to. Each run takes
  an old element, so there are no more runs than elements.
-/
theorem isScript_entriesFrom
    {fuel : Nat}
    (hFuel : olds.length ≤ fuel) :
    IsScript olds news (entriesFrom fuel olds news) := by
  induction fuel generalizing olds news with
  | zero =>
      obtain rfl : olds = [] :=
        List.eq_nil_of_length_eq_zero (Nat.le_zero.mp hFuel)
      exact .apart nofun
  | succ fuel ih =>
      have hRun := isFirstLongest_longestRun olds news
      have hEnd := hRun.common.old
      rw [entriesFrom]
      split
      case isTrue hLength =>
        exact .apart (length_longestRun_eq_zero_iff.mp hLength)
      case isFalse hLength =>
        refine
          .matched hRun (Nat.pos_of_ne_zero hLength) (ih ?_)
            (ih ?_)
        · rw [List.length_take]
          omega
        · rw [List.length_drop]
          omega

theorem isScript_entries (olds news : List α) :
    IsScript olds news (entries olds news) :=
  isScript_entriesFrom (Nat.le_refl _)

end Entries

------------------------------------------------------------
-- Both Lists
------------------------------------------------------------

namespace Entry

/- What an entry tells of the old list. -/
def old? : Entry α → Option α
  | same x => some x
  | removed x => some x
  | added _ => none

/- What an entry tells of the new list. -/
def new? : Entry α → Option α
  | same x => some x
  | removed _ => none
  | added x => some x

/- The entry is in both lists. -/
def isSame : Entry α → Bool
  | same _ => true
  | _ => false

/- The entry is in the old list only. -/
def isRemoved : Entry α → Bool
  | removed _ => true
  | _ => false

/- The entry is in the new list only. -/
def isAdded : Entry α → Bool
  | added _ => true
  | _ => false

end Entry

/- A list is cut around a run. -/
theorem take_append_run
    (list : List α)
    (start length : Nat) :
    list.take start ++ (list.drop start).take length ++
        list.drop (start + length) =
      list := by
  rw [List.append_assoc, ← List.drop_drop,
    List.take_append_drop, List.take_append_drop]

/- The entries without the added ones are the old list. -/
theorem IsScript.filterMap_old?
    (hScript : IsScript olds news script) :
    script.filterMap Entry.old? = olds := by
  induction hScript with
  | apart _ =>
      simp [List.filterMap_append, List.filterMap_map,
        Function.comp_def, Entry.old?]
  | @matched olds news run before after _ _ _ _ ihBefore
      ihAfter =>
      rw [List.filterMap_append, List.filterMap_append,
        ihBefore, ihAfter, List.filterMap_map]
      simp only [Function.comp_def, Entry.old?,
        List.filterMap_some]
      exact take_append_run olds run.old run.length

/- The entries without the removed ones are the new list. -/
theorem IsScript.filterMap_new?
    (hScript : IsScript olds news script) :
    script.filterMap Entry.new? = news := by
  induction hScript with
  | apart _ =>
      simp [List.filterMap_append, List.filterMap_map,
        Function.comp_def, Entry.new?]
  | @matched olds news run before after hRun _ _ _ ihBefore
      ihAfter =>
      rw [List.filterMap_append, List.filterMap_append,
        ihBefore, ihAfter, List.filterMap_map,
        hRun.common.same]
      simp only [Function.comp_def, Entry.new?,
        List.filterMap_some]
      exact take_append_run news run.new run.length

------------------------------------------------------------
-- Removals Before Additions
------------------------------------------------------------

/- No entry that is removed follows one that is added. -/
def IsOrdered (script : List (Entry α)) : Prop :=
  script.IsChain fun entry next =>
    entry.isAdded = true → next.isRemoved = false

theorem isOrdered_of_not_added
    (hScript : ∀ entry ∈ script, entry.isAdded = false) :
    IsOrdered script := by
  apply List.Pairwise.isChain
  apply List.pairwise_of_forall_mem_list
  intro entry hMem _ _ hAdded
  rw [hScript entry hMem] at hAdded
  cases hAdded

theorem isOrdered_of_not_removed
    (hScript : ∀ entry ∈ script, entry.isRemoved = false) :
    IsOrdered script := by
  apply List.Pairwise.isChain
  apply List.pairwise_of_forall_mem_list
  exact fun _ _ next hNext _ => hScript next hNext

/- Two ordered parts, unless they meet in the wrong order. -/
theorem IsOrdered.append
    {front back : List (Entry α)}
    (hFront : IsOrdered front)
    (hBack : IsOrdered back)
    (hMeet :
      (∀ entry ∈ front.getLast?, entry.isAdded = false) ∨
        ∀ entry ∈ back.head?, entry.isRemoved = false) :
    IsOrdered (front ++ back) := by
  refine List.isChain_append.mpr ⟨hFront, hBack, ?_⟩
  intro last hLast first hFirst hAdded
  rcases hMeet with hFrontEnd | hBackStart
  · rw [hFrontEnd last hLast] at hAdded
    cases hAdded
  · exact hBackStart first hFirst

/- All that is removed comes before what is added. -/
theorem IsScript.isOrdered
    (hScript : IsScript olds news script) :
    IsOrdered script := by
  induction hScript with
  | @apart olds news _ =>
      have hRemoved :
          ∀ entry ∈ olds.map Entry.removed,
            entry.isAdded = false :=
        List.forall_mem_map.mpr fun _ _ => rfl
      have hAdded :
          ∀ entry ∈ news.map Entry.added,
            entry.isRemoved = false :=
        List.forall_mem_map.mpr fun _ _ => rfl
      apply IsOrdered.append
      · exact isOrdered_of_not_added hRemoved
      · exact isOrdered_of_not_removed hAdded
      · left
        intro entry hLast
        exact hRemoved entry (List.mem_of_getLast? hLast)
  | @matched olds news run before after hRun hLength _ _
      ihBefore ihAfter =>
      have hSame :
          ∀ entry ∈
              ((olds.drop run.old).take run.length).map
                Entry.same,
            entry.isAdded = false ∧ entry.isRemoved = false :=
        List.forall_mem_map.mpr fun _ _ => ⟨rfl, rfl⟩
      have hNonempty :
          ((olds.drop run.old).take run.length).map
              Entry.same ≠
            [] := by
        have hEnd := hRun.common.old
        apply List.ne_nil_of_length_pos
        rw [List.length_map, List.length_take,
          List.length_drop]
        omega
      -- A match stands between what is before and after it.
      apply IsOrdered.append
      · apply ihBefore.append
        · apply isOrdered_of_not_added
          exact fun entry hMem => (hSame entry hMem).1
        · right
          intro entry hFirst
          exact (hSame entry (List.mem_of_head? hFirst)).2
      · exact ihAfter
      · left
        intro entry hLast
        rw [List.getLast?_append_of_ne_nil _ hNonempty]
          at hLast
        exact (hSame entry (List.mem_of_getLast? hLast)).1

/- Changed entries in a row, first those that are removed. -/
theorem IsOrdered.exists_parts
    (hScript : IsOrdered script)
    (hChanged : ∀ entry ∈ script, entry.isSame = false) :
    ∃ removals additions : List α,
      script =
        removals.map Entry.removed ++
          additions.map Entry.added := by
  induction script with
  | nil => exact ⟨[], [], rfl⟩
  | cons entry script ih =>
      rcases List.forall_mem_cons.mp hChanged with
        ⟨hEntry, hRest⟩
      rcases ih hScript.tail hRest with
        ⟨removals, additions, rfl⟩
      cases entry with
      | same x => cases hEntry
      | removed x => exact ⟨x :: removals, additions, rfl⟩
      | added x =>
          cases removals with
          | nil => exact ⟨[], x :: additions, rfl⟩
          | cons y removals =>
              have hNext := hScript.rel
              cases hNext rfl

------------------------------------------------------------
-- Equal Lists
------------------------------------------------------------

/- The first longest run of a list and itself is all of it. -/
theorem Run.IsFirstLongest.eq_of_same
    {run : Run}
    (hRun : run.IsFirstLongest olds olds)
    (hLength : 0 < run.length) :
    run = { old := 0, new := 0, length := olds.length } := by
  have hEnd := hRun.common.old
  have hWhole :
      Run.IsCommon
        { old := 0, new := 0, length := olds.length } olds
        olds :=
    ⟨by simp, by simp, rfl⟩
  have hPositive : 0 < olds.length := by omega
  have hBest := hRun.best _ hWhole hPositive
  have hNew := hRun.common.new
  rcases run with ⟨old, new, length⟩
  simp only [Run.Outdoes] at hBest hEnd hNew
  simp only [Run.mk.injEq]
  omega

/- All entries are in both lists if the lists are the same. -/
theorem IsScript.forall_isSame_iff
    (hScript : IsScript olds news script) :
    (∀ entry ∈ script, entry.isSame = true) ↔ olds = news := by
  constructor
  · intro hAll
    rw [← hScript.filterMap_old?, ← hScript.filterMap_new?]
    apply List.filterMap_congr
    intro entry hMem
    cases entry with
    | same x => rfl
    | removed x => cases hAll _ hMem
    | added x => cases hAll _ hMem
  · intro hSame
    induction hScript with
    | @apart olds news hApart =>
        subst hSame
        cases olds with
        | nil => exact List.forall_mem_nil _
        | cons x olds =>
            exact
              absurd List.mem_cons_self
                (hApart x List.mem_cons_self)
    | @matched olds news run before after hRun hLength _ _
        ihBefore ihAfter =>
        subst hSame
        obtain rfl := hRun.eq_of_same hLength
        intro entry hMem
        simp only [List.mem_append, List.mem_map] at hMem
        rcases hMem with (hBefore | ⟨x, _, rfl⟩) | hAfter
        · exact ihBefore rfl entry hBefore
        · rfl
        · exact ihAfter rfl entry hAfter

------------------------------------------------------------
-- Lines
------------------------------------------------------------

/- The line begins with one of the marks. -/
def isMarked (marks : List Char) (line : Text) : Bool :=
  line.head?.any marks.contains

/- The lines with one of the marks, and without it. -/
def markedLines
    (marks : List Char)
    (diff : List Text) : List Text :=
  (diff.filter (isMarked marks)).map List.tail

/- What the lines of a diff tell about two lists of lines. -/
structure IsFaithful (olds news diff : List Text) : Prop where
  marks : ∀ line ∈ diff, isMarked [' ', '-', '+'] line = true
  olds : markedLines [' ', '-'] diff = olds
  news : markedLines [' ', '+'] diff = news
  ordered :
    ∀ front changed back,
      diff = front ++ changed ++ back →
        (∀ line ∈ changed, isMarked ['-', '+'] line = true) →
          ∃ removals additions : List Text,
            changed =
              removals.map (fun line => '-' :: line) ++
                additions.map fun line => '+' :: line

theorem markedLines_old (script : List (Entry Text)) :
    markedLines [' ', '-'] (script.map Entry.render) =
      script.filterMap Entry.old? := by
  induction script with
  | nil => rfl
  | cons entry script ih =>
      cases entry <;>
        simpa [markedLines, isMarked, Entry.render,
          Entry.old?, List.filterMap_cons] using ih

theorem markedLines_new (script : List (Entry Text)) :
    markedLines [' ', '+'] (script.map Entry.render) =
      script.filterMap Entry.new? := by
  induction script with
  | nil => rfl
  | cons entry script ih =>
      cases entry <;>
        simpa [markedLines, isMarked, Entry.render,
          Entry.new?, List.filterMap_cons] using ih

theorem isMarked_same_iff (entry : Entry Text) :
    isMarked [' '] entry.render = entry.isSame := by
  cases entry <;> rfl

theorem isMarked_changed_iff (entry : Entry Text) :
    isMarked ['-', '+'] entry.render = !entry.isSame := by
  cases entry <;> rfl

/- A script that is written is faithful. -/
theorem IsScript.isFaithful
    {olds news : List Text}
    {script : List (Entry Text)}
    (hScript : IsScript olds news script) :
    IsFaithful olds news (script.map Entry.render) where
  marks := by
    intro line hMem
    rcases List.mem_map.mp hMem with ⟨entry, _, rfl⟩
    cases entry <;> rfl
  olds := by
    rw [markedLines_old]
    exact hScript.filterMap_old?
  news := by
    rw [markedLines_new]
    exact hScript.filterMap_new?
  ordered := by
    intro front changed back hParts hChanged
    rcases List.map_eq_append_iff.mp hParts with
      ⟨before, after, rfl, hBefore, rfl⟩
    rcases List.map_eq_append_iff.mp hBefore with
      ⟨first, middle, rfl, rfl, rfl⟩
    have hOrdered : IsOrdered middle := by
      unfold IsOrdered
      exact
        hScript.isOrdered.infix
          (List.infix_append first middle after)
    have hMiddle :
        ∀ entry ∈ middle, entry.isSame = false := by
      intro entry hMem
      have hMark :=
        hChanged entry.render (List.mem_map_of_mem hMem)
      rwa [isMarked_changed_iff, Bool.not_eq_true'] at hMark
    rcases hOrdered.exists_parts hMiddle with
      ⟨removals, additions, rfl⟩
    refine ⟨removals, additions, ?_⟩
    rw [List.map_append, List.map_map, List.map_map]
    rfl

/-
  The lines of a diff tell both texts, and those that are
  removed come before those that are added wherever lines are
  changed. They are all unmarked only if the texts have the
  same lines. Which lines are matched is told by the first of
  the longest runs.
-/
theorem lines_tell_both_texts (old new : Text) :
    IsFaithful old.boundaryLines new.boundaryLines
        (lines old new) ∧
      ((∀ line ∈ lines old new, isMarked [' '] line = true) ↔
        old.boundaryLines = new.boundaryLines) ∧
      ∃ script,
        IsScript old.boundaryLines new.boundaryLines script ∧
          lines old new = script.map Entry.render := by
  have hScript :=
    isScript_entries old.boundaryLines new.boundaryLines
  refine ⟨hScript.isFaithful, ?_, _, hScript, rfl⟩
  rw [← hScript.forall_isSame_iff, lines,
    List.forall_mem_map]
  simp only [isMarked_same_iff]

end Diff

end ScriptWorkspace
