import ScriptWorkspace.Text.Blank

/-
  Line diffs.

  The matching part of two lists is found by taking the
  longest run that both share, the earliest one in the old
  list and then in the new list, and then matching what lies
  before it and what lies after it. Between the matches the
  removed lines come before the added ones.

  Key definitions include:
    * `Diff.Run`
    * `Diff.longestRun`
    * `Diff.Entry`
    * `Diff.entriesFrom`
    * `Diff.entries`
    * `Diff.lines`
-/

namespace ScriptWorkspace

namespace Diff

variable {α : Type} [DecidableEq α]

------------------------------------------------------------
-- The Longest Common Run
------------------------------------------------------------

/- A run of elements at an index of the old and new list. -/
structure Run where
  old : Nat
  new : Nat
  length : Nat
deriving DecidableEq, Repr

/- How many elements two lists have in common in front. -/
def commonLength : List α → List α → Nat
  | x :: xs, y :: ys =>
    if x = y then commonLength xs ys + 1 else 0
  | _, _ => 0

/- The longer of two runs, the first one if they are equal. -/
def Run.longer (best run : Run) : Run :=
  if best.length < run.length then run else best

/- The longest run that begins with the given old list. -/
def longestFrom
    (olds : List α)
    (old : Nat) :
    (new : Nat) →
    List α →
    Run →
    Run
  | _, [], best => best
  | new, y :: ys, best =>
    longestFrom olds old (new + 1) ys
      (best.longer
        { old, new
          length := commonLength olds (y :: ys) })

/- The longest run from an index of the old list on. -/
def longestRunFrom
    (news : List α) :
    (old : Nat) →
    List α →
    Run →
    Run
  | _, [], best => best
  | old, x :: xs, best =>
    longestRunFrom news (old + 1) xs
      (longestFrom (x :: xs) old 0 news best)

/-
  The longest run that two lists share: the earliest one in
  the old list, and of those the earliest in the new list.
-/
def longestRun (olds news : List α) : Run :=
  longestRunFrom news 0 olds
    { old := 0, new := 0, length := 0 }

------------------------------------------------------------
-- Entries
------------------------------------------------------------

/- A line of a diff. -/
inductive Entry (α : Type)
  | same (line : α)
  | removed (line : α)
  | added (line : α)
deriving DecidableEq, Repr

/-
  The entries that turn one list into another, with at most
  `fuel` runs to be found.
-/
def entriesFrom :
    (fuel : Nat) →
    List α →
    List α →
    List (Entry α)
  | 0, olds, news =>
    olds.map .removed ++ news.map .added
  | fuel + 1, olds, news =>
    let run := longestRun olds news
    if run.length = 0 then
      olds.map .removed ++ news.map .added
    else
      entriesFrom fuel
          (olds.take run.old) (news.take run.new) ++
        ((olds.drop run.old).take run.length).map .same ++
        entriesFrom fuel
          (olds.drop (run.old + run.length))
          (news.drop (run.new + run.length))

/- The entries that turn one list into another. -/
def entries (olds news : List α) : List (Entry α) :=
  entriesFrom olds.length olds news

/- An entry as a line with a mark in front. -/
def Entry.render : Entry Text → Text
  | .same line => ' ' :: line
  | .removed line => '-' :: line
  | .added line => '+' :: line

/- The line diff of two texts. -/
def lines (old new : Text) : List Text :=
  (entries old.boundaryLines new.boundaryLines).map
    Entry.render

end Diff

end ScriptWorkspace
