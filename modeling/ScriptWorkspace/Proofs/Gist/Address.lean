import ScriptWorkspace.Gist.Client
import ScriptWorkspace.Proofs.Text.RawLines

/-
  The addresses of gists.

  The ids that a store gives are made of letters and digits,
  which stand in an address as they are. So different ids
  have different addresses.

  Main declarations:
    * `GistClient.addressOf`
    * `Address.IsPlain`
    * `GistClient.addressOf_of_isPlain`
    * `GistClient.addressOf_injective`
-/

namespace ScriptWorkspace

------------------------------------------------------------
-- Plain Texts
------------------------------------------------------------

namespace Address

/- What is escaped in a path, or begins another part. -/
def pathMarks : String := " \"#<>?\x60\x7b\x7d"

/- The marks that mean something in the path of an address. -/
def marks : Text := '.' :: '/' :: pathMarks.toList

/- The text stands in a path as it is, and as one segment. -/
def IsPlain (text : Text) : Prop :=
  ∀ c ∈ text, isVisible c = true ∧ c ∉ marks

instance (text : Text) : Decidable (IsPlain text) :=
  inferInstanceAs (Decidable (∀ c ∈ text, _))

example : IsPlain "aa5a315d61ae9438b18d" := by decide

/- Nothing is escaped if nothing has to be. -/
theorem escaped_eq_self
    {reserved : String}
    {text : Text}
    (hText :
      ∀ c ∈ text,
        isVisible c = true ∧ c ∉ reserved.toList) :
    escaped reserved text = text := by
  induction text with
  | nil => rfl
  | cons c rest ih =>
      rcases List.forall_mem_cons.mp hText with
        ⟨⟨hVisible, hChar⟩, hRest⟩
      have hTail := ih hRest
      unfold escaped at hTail ⊢
      rw [List.flatMap_cons, hTail]
      simp [hVisible, hChar]

theorem splitAt?_of_not_mem
    {separator : Char}
    {text : Text}
    (hText : separator ∉ text) :
    splitAt? separator text = (text, none) := by
  have hSplit : Text.splitFirst? separator text = none := by
    induction text with
    | nil => rfl
    | cons c rest ih =>
        rw [List.mem_cons, not_or] at hText
        rw [Text.splitFirst?, if_neg (Ne.symm hText.1),
          ih hText.2]
        rfl
  rw [splitAt?, hSplit]

/- A text that is a path and nothing else. -/
theorem read?_eq_some
    {text : Text}
    (hText :
      ∀ c ∈ text,
        isVisible c = true ∧ c ∉ pathMarks.toList) :
    read? text =
      some
        { path := text, query := none
          fragment := none } := by
  have hControl : text.any isControl = false := by
    rw [List.any_eq_false]
    intro c hMem
    have hVisible := (hText c hMem).1
    simp only [isVisible, decide_eq_true_eq] at hVisible
    simp only [isControl, decide_eq_true_eq]
    omega
  have hHash : '#' ∉ text :=
    fun hMem => (hText _ hMem).2 (by decide)
  have hMark : '?' ∉ text :=
    fun hMem => (hText _ hMem).2 (by decide)
  unfold read?
  rw [hControl, splitAt?_of_not_mem hHash]
  dsimp only
  rw [splitAt?_of_not_mem hMark]
  have hEscaped : escapedPath text = text :=
    escaped_eq_self hText
  simp [hEscaped]

theorem splitOn_of_not_mem
    {separator : Char}
    {text : Text}
    (hText : separator ∉ text) :
    Text.splitOn separator text = [text] := by
  induction text with
  | nil => rfl
  | cons c rest ih =>
      rw [List.mem_cons, not_or] at hText
      rw [Text.splitOn, if_neg (Ne.symm hText.1), ih hText.2]

/- A segment that is not one of dots is not followed. -/
theorem plainPath_append
    {segment : Text}
    (hSlash : '/' ∉ segment)
    (hDots : '.' ∉ segment) :
    plainPath ("/gists/" ++ segment : Text) =
      ("/gists/" ++ segment : Text) := by
  have hOne : segment ≠ ['.'] := by
    rintro rfl
    exact hDots List.mem_cons_self
  have hTwo : segment ≠ ['.', '.'] := by
    rintro rfl
    exact hDots List.mem_cons_self
  have hSplit :
      Text.splitOn '/' ("/gists/" ++ segment : Text) =
        [[], "gists", segment] := by
    rw [← splitOn_of_not_mem hSlash]
    exact
      (Text.splitOn_append_separator List.not_mem_nil
          ("gists".toList ++ '/' :: segment)).trans
        (congrArg ([] :: ·)
          (Text.splitOn_append_separator
            (by decide : '/' ∉ "gists".toList) segment))
  unfold plainPath
  rw [hSplit]
  simp [hOne, hTwo, Text.joinWith]

end Address

------------------------------------------------------------
-- Gists
------------------------------------------------------------

namespace GistClient

/- The address of the gist of an id, if it has one. -/
def addressOf (gistId : Text) : Option Text :=
  (Address.read? (pathOf gistId)).map Address.requested

theorem addressOf_of_isPlain
    {gistId : Text}
    (hPlain : Address.IsPlain gistId) :
    addressOf gistId =
      some
        (Address.base ++ ("/gists/" ++ gistId : Text)) := by
  have hPath :
      ∀ c ∈ pathOf gistId,
        Address.isVisible c = true ∧
          c ∉ Address.pathMarks.toList := by
    intro c hMem
    rcases List.mem_append.mp hMem with hMem | hMem
    · exact
        (by decide :
          ∀ c ∈ "gists/".toList,
            Address.isVisible c = true ∧
              c ∉ Address.pathMarks.toList)
          c hMem
    · refine ⟨(hPlain c hMem).1, fun hMark => ?_⟩
      exact
        (hPlain c hMem).2
          (List.mem_cons_of_mem _
            (List.mem_cons_of_mem _ hMark))
  have hSlash : '/' ∉ gistId :=
    fun hMem => (hPlain _ hMem).2 (by decide)
  have hDots : '.' ∉ gistId :=
    fun hMem => (hPlain _ hMem).2 (by decide)
  have hPlainPath := Address.plainPath_append hSlash hDots
  rw [addressOf, Address.read?_eq_some hPath]
  simp only [Option.map_some, Address.requested,
    List.append_nil, Option.some.injEq]
  exact congrArg (Address.base ++ ·) hPlainPath

/- Plain ids are told apart by their addresses. -/
theorem addressOf_injective
    {gistId other : Text}
    (hPlain : Address.IsPlain gistId)
    (hOther : Address.IsPlain other)
    (hSame : addressOf gistId = addressOf other) :
    gistId = other := by
  rw [addressOf_of_isPlain hPlain,
    addressOf_of_isPlain hOther, Option.some.injEq] at hSame
  exact
    List.append_cancel_left (List.append_cancel_left hSame)

end GistClient

end ScriptWorkspace
