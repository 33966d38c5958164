import Mathlib.Data.List.Induction
import ScriptWorkspace.Proofs.Session.Perform

/-
  Operations that are run one after another.

  Each one begins in the session that the one before it left,
  whether that one succeeded or failed. What holds at first and
  is kept by every operation holds throughout.

  Main declarations:
    * `Session.afterSteps`
    * `Session.forall_prefix_of_step`
    * `Session.forall_step_iff`
-/

namespace ScriptWorkspace

namespace Session

variable {ω σ : Type}
variable {outside : Outside ω}
variable {run : σ → Action ω Unit}

/- The session after some steps, in turn. -/
def afterSteps
    (outside : Outside ω)
    (run : σ → Action ω Unit)
    (steps : List σ)
    (session : Session ω) : Session ω :=
  steps.foldl
    (fun session step => ((run step).perform outside session).2)
    session

theorem afterSteps_concat
    (steps : List σ)
    (step : σ)
    (session : Session ω) :
    afterSteps outside run (steps ++ [step]) session =
      ((run step).perform outside
        (afterSteps outside run steps session)).2 := by
  rw [afterSteps, List.foldl_append]
  rfl

/- What every step keeps holds after each of them. -/
theorem forall_prefix_of_step
    (Holds : Session ω → Prop)
    {session : Session ω}
    {steps : List σ}
    (hStart : Holds session)
    (hStep :
      ∀ front step,
        front ++ [step] <+: steps →
          Holds (afterSteps outside run front session) →
            Holds
              ((run step).perform outside
                (afterSteps outside run front session)).2) :
    ∀ front,
      front <+: steps →
        Holds (afterSteps outside run front session) := by
  intro front hFront
  induction front using List.reverseRecOn with
  | nil => exact hStart
  | append_singleton front step ih =>
      have hBefore : front <+: steps :=
        (List.prefix_append front [step]).trans hFront
      rw [afterSteps_concat]
      exact hStep front step hFront (ih hBefore)

/- What holds of every step in turn holds of each by number. -/
theorem forall_step_iff
    {p : List σ → σ → Prop}
    {steps : List σ} :
    (∀ front step,
        front ++ [step] <+: steps → p front step) ↔
      ∀ n (hLength : n < steps.length),
        p (steps.take n) steps[n] := by
  constructor
  · intro hAll n hLength
    refine hAll _ _ ?_
    rw [← List.take_succ_eq_append_getElem hLength]
    exact List.take_prefix _ _
  · rintro hAll front step ⟨back, rfl⟩
    have hStep :=
      hAll front.length (by simp)
    simpa using hStep

end Session

end ScriptWorkspace
