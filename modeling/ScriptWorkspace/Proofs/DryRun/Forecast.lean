import ScriptWorkspace.Proofs.Session.Perform

/-
  Forecasts.

  A dry operation is a forecast of a real one if it succeeds
  whenever the real one does, and their results belong
  together. The two begin in sessions that belong together,
  and end in such sessions, so forecasts of the steps are a
  forecast of the whole. What both do alike is a forecast of
  itself.

  Main declarations:
    * `Action.Forecasts`
    * `Action.Forecasts.refl`
    * `Action.Forecasts.bind`
    * `Action.Forecasts.alike_bind`
    * `Action.Forecasts.exists_shown`
-/

namespace ScriptWorkspace

namespace Action

variable {ω α β γ δ : Type}
variable {outside : Outside ω}

/-
  If the real operation succeeds then so does the dry one.
  What belongs together is told of the sessions before and
  after and of the results, the dry one first.
-/
def Forecasts
    (outside : Outside ω)
    (before : Session ω → Session ω → Prop)
    (dry : Action ω α)
    (real : Action ω β)
    (agree : α → β → Prop)
    (after : Session ω → Session ω → Prop) : Prop :=
  ∀ early session result done,
    before early session →
      real.perform outside session = (.ok result, done) →
        ∃ foretold left,
          dry.perform outside early = (.ok foretold, left) ∧
            agree foretold result ∧
              after left done

namespace Forecasts

variable {before between after : Session ω → Session ω → Prop}

/- From the same session, an operation forecasts itself. -/
theorem refl (action : Action ω α) :
    Forecasts outside Eq action action Eq Eq := by
  rintro early session result done rfl hRun
  exact ⟨result, done, hRun, rfl, rfl⟩

theorem pure
    {agree : α → β → Prop}
    {foretold : α}
    {result : β}
    (hAgree : agree foretold result) :
    Forecasts outside before (Pure.pure foretold)
      (Pure.pure result) agree before := by
  intro early session found done hBefore hRun
  cases hRun
  exact ⟨foretold, early, rfl, hAgree, hBefore⟩

/- An operation that fails has every forecast. -/
theorem throw
    {agree : α → β → Prop}
    (dry : Action ω α)
    (failure : Failure) :
    Forecasts outside before dry
      (MonadExcept.throw failure) agree after := by
  intro early session result done _ hRun
  cases hRun

/- A forecast of the steps is a forecast of the whole. -/
theorem bind
    {dry : Action ω α}
    {real : Action ω β}
    {dryNext : α → Action ω γ}
    {realNext : β → Action ω δ}
    {agree : α → β → Prop}
    {agreeNext : γ → δ → Prop}
    (hFirst :
      Forecasts outside before dry real agree between)
    (hNext :
      ∀ foretold result,
        agree foretold result →
          Forecasts outside between (dryNext foretold)
            (realNext result) agreeNext after) :
    Forecasts outside before (dry >>= dryNext)
      (real >>= realNext) agreeNext after := by
  intro early session result done hBefore hRun
  rcases exists_of_perform_bind hRun with
    ⟨found, step, hReal, hRest⟩
  rcases hFirst early session found step hBefore hReal with
    ⟨foretold, left, hDry, hAgree, hBetween⟩
  rcases hNext foretold found hAgree left step result done
      hBetween hRest with
    ⟨foretoldNext, leftNext, hDryNext, hEnd⟩
  refine ⟨foretoldNext, leftNext, ?_, hEnd⟩
  rw [perform_bind, hDry]
  exact hDryNext

/- What both runs do alike does not part them. -/
theorem alike_bind
    {dryNext : α → Action ω γ}
    {realNext : α → Action ω δ}
    {agree : γ → δ → Prop}
    (action : Action ω α)
    (hNext :
      ∀ result,
        Forecasts outside Eq (dryNext result)
          (realNext result) agree after) :
    Forecasts outside Eq (action >>= dryNext)
      (action >>= realNext) agree after := by
  refine (refl action).bind fun foretold result hSame => ?_
  subst hSame
  exact hNext foretold

/- A forecast from fewer pairs of sessions. -/
theorem weaken
    {earlier : Session ω → Session ω → Prop}
    {dry : Action ω α}
    {real : Action ω β}
    {agree : α → β → Prop}
    (hForecast :
      Forecasts outside before dry real agree after)
    (hBefore :
      ∀ early session,
        earlier early session → before early session) :
    Forecasts outside earlier dry real agree after :=
  fun early session result done hEarlier =>
    hForecast early session result done
      (hBefore early session hEarlier)

/- What is shown of both results is foretold. -/
theorem exists_shown
    {agree : α → β → Prop}
    {dry : Action ω α}
    {real : Action ω β}
    {foretold : α → γ}
    {shown : β → γ}
    {session done : Session ω}
    {result : γ}
    (hForecast : Forecasts outside Eq dry real agree after)
    (hShown :
      ∀ first second,
        agree first second → foretold first = shown second)
    (hRun :
      (real >>= fun found => Pure.pure (shown found)).perform
          outside session =
        (.ok result, done)) :
    ∃ left,
      (dry >>= fun found => Pure.pure (foretold found)).perform
          outside session =
        (.ok result, left) := by
  rcases exists_of_perform_bind hRun with
    ⟨second, between, hReal, hResult⟩
  cases hResult
  rcases hForecast session session second done rfl hReal with
    ⟨first, left, hDry, hAgree, _⟩
  refine ⟨left, ?_⟩
  rw [perform_bind, hDry]
  dsimp only
  rw [hShown first second hAgree, perform_pure]

/- A dry operation that always succeeds is a forecast. -/
theorem of_succeeds
    {dry : Action ω α}
    (real : Action ω β)
    (hSucceeds :
      ∀ early,
        ∃ foretold left,
          dry.perform outside early = (.ok foretold, left)) :
    Forecasts outside before dry real (fun _ _ => True)
      fun _ _ => True := by
  intro early session result done _ _
  rcases hSucceeds early with ⟨foretold, left, hDry⟩
  exact ⟨foretold, left, hDry, trivial, trivial⟩

end Forecasts

end Action

end ScriptWorkspace
