import Mathlib.Data.List.Basic
import ScriptWorkspace.Diff

/-
  The longest run that two lists share.

  The search looks at all pairs of places, place by place in
  the old list and then in the new one, and keeps the longest
  run so far. So in the end no run that both lists share is
  longer, and those that are as long begin later.

  Main declarations:
    * `Diff.le_commonLength_iff`
    * `Diff.Run.IsCommon`
    * `Diff.Run.IsCommon.exists_mem`
    * `Diff.Run.IsFirstLongest`
    * `Diff.Run.IsFirstLongest.unique`
    * `Diff.isFirstLongest_longestRun`
-/

namespace ScriptWorkspace

namespace Diff

variable {α : Type}
variable {olds news : List α}

------------------------------------------------------------
-- Runs
------------------------------------------------------------

namespace Run

/- Both lists have the same elements where the run is. -/
structure IsCommon (run : Run) (olds news : List α) :
    Prop where
  old : run.old + run.length ≤ olds.length
  new : run.new + run.length ≤ news.length
  same :
    (olds.drop run.old).take run.length =
      (news.drop run.new).take run.length

/- The run begins earlier: first in the old list counts. -/
def Precedes (run other : Run) : Prop :=
  run.old < other.old ∨
    run.old = other.old ∧ run.new ≤ other.new

/- The run is longer, or it is as long and begins earlier. -/
def Outdoes (run other : Run) : Prop :=
  other.length < run.length ∨
    other.length = run.length ∧ run.Precedes other

/- The first of the longest runs that two lists share. -/
structure IsFirstLongest (run : Run) (olds news : List α) :
    Prop where
  common : run.IsCommon olds news
  best :
    ∀ other : Run, other.IsCommon olds news →
      0 < other.length → run.Outdoes other

/- A run that is not empty begins with a shared element. -/
theorem IsCommon.exists_mem
    {run : Run}
    (hRun : run.IsCommon olds news)
    (hLength : 0 < run.length) :
    ∃ x ∈ olds, x ∈ news := by
  have hOld : run.old < olds.length := by
    have hEnd := hRun.old
    omega
  have hNew : run.new < news.length := by
    have hEnd := hRun.new
    omega
  have hSame := hRun.same
  rw [List.drop_eq_getElem_cons hOld,
    List.drop_eq_getElem_cons hNew, List.take_cons hLength,
    List.take_cons hLength, List.cons.injEq] at hSame
  refine ⟨_, List.getElem_mem hOld, ?_⟩
  rw [hSame.1]
  exact List.getElem_mem hNew

/- There is one first longest run at most. -/
theorem IsFirstLongest.unique
    {run other : Run}
    (hRun : run.IsFirstLongest olds news)
    (hOther : other.IsFirstLongest olds news)
    (hRunLength : 0 < run.length)
    (hOtherLength : 0 < other.length) :
    run = other := by
  have hLeft := hRun.best other hOther.common hOtherLength
  have hRight := hOther.best run hRun.common hRunLength
  unfold Outdoes Precedes at hLeft hRight
  rcases run with ⟨old, new, length⟩
  rcases other with ⟨otherOld, otherNew, otherLength⟩
  simp only [mk.injEq]
  dsimp only at hLeft hRight
  omega

end Run

------------------------------------------------------------
-- Common Lengths
------------------------------------------------------------

section CommonLength

variable [DecidableEq α]

/- Lists agree up to their common length and no further. -/
theorem le_commonLength_iff
    (n : Nat)
    (xs ys : List α) :
    n ≤ commonLength xs ys ↔
      n ≤ xs.length ∧ n ≤ ys.length ∧ xs.take n = ys.take n := by
  induction xs generalizing n ys with
  | nil =>
      simp only [commonLength, List.length_nil]
      constructor
      · intro hLength
        obtain rfl : n = 0 := Nat.le_zero.mp hLength
        simp
      · exact And.left
  | cons x xs ih =>
      cases ys with
      | nil =>
          simp only [commonLength, List.length_nil]
          constructor
          · intro hLength
            obtain rfl : n = 0 := Nat.le_zero.mp hLength
            simp
          · exact fun hAll => hAll.2.1
      | cons y ys =>
          cases n with
          | zero => simp
          | succ n =>
              by_cases hSame : x = y
              · subst hSame
                simp [commonLength, ih]
              · simp [commonLength, hSame]

/- The lists share a run of their common length. -/
theorem isCommon_commonLength
    {old new : Nat}
    (hOld : old ≤ olds.length)
    (hNew : new ≤ news.length) :
    Run.IsCommon
      { old, new
        length :=
          commonLength (olds.drop old) (news.drop new) }
      olds news := by
  rcases (le_commonLength_iff _ (olds.drop old)
      (news.drop new)).mp (Nat.le_refl _) with
    ⟨hOlds, hNews, hSame⟩
  rw [List.length_drop] at hOlds hNews
  constructor
  case old =>
    dsimp only
    omega
  case new =>
    dsimp only
    omega
  case same => exact hSame

/- A run of two lists is not longer than what is common. -/
theorem Run.IsCommon.length_le
    {run : Run}
    (hRun : run.IsCommon olds news) :
    run.length ≤
      commonLength (olds.drop run.old) (news.drop run.new) := by
  have hOld := hRun.old
  have hNew := hRun.new
  refine (le_commonLength_iff _ _ _).mpr ⟨?_, ?_, hRun.same⟩
  · rw [List.length_drop]
    omega
  · rw [List.length_drop]
    omega

------------------------------------------------------------
-- The Search
------------------------------------------------------------

/-
  A run that is the best of those that begin before a pair of
  places, where it begins not later itself.
-/
structure Run.IsBestBefore
    (olds news : List α)
    (old new : Nat)
    (run : Run) : Prop where
  common : run.IsCommon olds news
  earlier : run.old < old ∨ run.old = old ∧ run.new ≤ new
  best :
    ∀ other : Run, other.IsCommon olds news →
      0 < other.length →
        other.old < old ∨
            other.old = old ∧ other.new < new →
          run.Outdoes other

/- The run at a pair of places is looked at. -/
theorem Run.IsBestBefore.longer
    {old new : Nat}
    {best : Run}
    (hBest : best.IsBestBefore olds news old new)
    (hOld : old ≤ olds.length)
    (hNew : new ≤ news.length) :
    (best.longer
        { old, new
          length :=
            commonLength (olds.drop old)
              (news.drop new) }).IsBestBefore
      olds news old (new + 1) := by
  have hEarlier := hBest.earlier
  unfold Run.longer
  split
  case isTrue hLonger =>
    refine ⟨isCommon_commonLength hOld hNew, ?_, ?_⟩
    · exact .inr ⟨rfl, Nat.le_succ new⟩
    · intro other hOther hLength hPlace
      by_cases hHere : other.old = old ∧ other.new = new
      · have hMost := hOther.length_le
        rw [hHere.1, hHere.2] at hMost
        unfold Run.Outdoes Run.Precedes
        dsimp only
        omega
      · have hBefore :=
          hBest.best other hOther hLength (by omega)
        unfold Run.Outdoes at hBefore ⊢
        dsimp only at hLonger ⊢
        omega
  case isFalse hShorter =>
    refine ⟨hBest.common, by omega, ?_⟩
    intro other hOther hLength hPlace
    by_cases hHere : other.old = old ∧ other.new = new
    · have hMost := hOther.length_le
      rw [hHere.1, hHere.2] at hMost
      unfold Run.Outdoes Run.Precedes
      dsimp only at hShorter
      omega
    · exact hBest.best other hOther hLength (by omega)

/- All places of the new list are looked at for an old one. -/
theorem Run.IsBestBefore.longestFrom
    {old new : Nat}
    {rest : List α}
    {best : Run}
    (hBest : best.IsBestBefore olds news old new)
    (hOld : old ≤ olds.length)
    (hRest : rest = news.drop new) :
    (Diff.longestFrom (olds.drop old) old new rest
        best).IsBestBefore
      olds news (old + 1) 0 := by
  induction rest generalizing new best with
  | nil =>
      have hEnd : news.length ≤ new :=
        List.drop_eq_nil_iff.mp hRest.symm
      have hEarlier := hBest.earlier
      rw [Diff.longestFrom]
      refine ⟨hBest.common, by omega, ?_⟩
      intro other hOther hLength hPlace
      -- A run that is not empty begins inside the new list.
      have hNew := hOther.new
      exact hBest.best other hOther hLength (by omega)
  | cons y rest ih =>
      have hNext : rest = news.drop (new + 1) := by
        rw [← List.tail_drop, ← hRest, List.tail_cons]
      have hNew : new ≤ news.length := by
        by_contra hBeyond
        rw [List.drop_of_length_le (by omega)] at hRest
        cases hRest
      rw [Diff.longestFrom, hRest]
      exact ih (hBest.longer hOld hNew) hNext

/- All places of the old list are looked at. -/
theorem Run.IsBestBefore.longestRunFrom
    {old : Nat}
    {rest : List α}
    {best : Run}
    (hBest : best.IsBestBefore olds news old 0)
    (hRest : rest = olds.drop old) :
    (Diff.longestRunFrom news old rest
        best).IsFirstLongest
      olds news := by
  induction rest generalizing old best with
  | nil =>
      have hEnd : olds.length ≤ old :=
        List.drop_eq_nil_iff.mp hRest.symm
      rw [Diff.longestRunFrom]
      refine ⟨hBest.common, fun other hOther hLength => ?_⟩
      have hOld := hOther.old
      exact hBest.best other hOther hLength (by omega)
  | cons x rest ih =>
      have hNext : rest = olds.drop (old + 1) := by
        rw [← List.tail_drop, ← hRest, List.tail_cons]
      have hOld : old ≤ olds.length := by
        by_contra hBeyond
        rw [List.drop_of_length_le (by omega)] at hRest
        cases hRest
      rw [Diff.longestRunFrom, hRest]
      refine ih ?_ hNext
      exact hBest.longestFrom hOld rfl

/- The search finds the first of the longest runs. -/
theorem isFirstLongest_longestRun (olds news : List α) :
    (longestRun olds news).IsFirstLongest olds news := by
  have hStart :
      Run.IsBestBefore olds news 0 0
        { old := 0, new := 0, length := 0 } := by
    constructor
    case common => exact ⟨by simp, by simp, by simp⟩
    case earlier => exact .inr ⟨rfl, Nat.le_refl 0⟩
    case best =>
      intro other _ _ hPlace
      omega
  exact hStart.longestRunFrom rfl

/- Lists that share no element share no run. -/
theorem length_longestRun_eq_zero_iff :
    (longestRun olds news).length = 0 ↔
      ∀ x ∈ olds, x ∉ news := by
  have hRun := isFirstLongest_longestRun olds news
  constructor
  · intro hLength x hOld hNew
    rcases List.getElem_of_mem hOld with ⟨old, hOldPlace, hx⟩
    rcases List.getElem_of_mem hNew with
      ⟨new, hNewPlace, hSame⟩
    have hSingle :
        Run.IsCommon { old, new, length := 1 } olds news := by
      refine ⟨hOldPlace, hNewPlace, ?_⟩
      rw [List.drop_eq_getElem_cons hOldPlace,
        List.drop_eq_getElem_cons hNewPlace, hx, hSame]
      rfl
    have hBest := hRun.best _ hSingle Nat.one_pos
    unfold Run.Outdoes at hBest
    dsimp only at hBest
    omega
  · intro hApart
    by_contra hLength
    rcases hRun.common.exists_mem
        (Nat.pos_of_ne_zero hLength) with
      ⟨x, hOld, hNew⟩
    exact hApart x hOld hNew

end CommonLength

end Diff

end ScriptWorkspace
