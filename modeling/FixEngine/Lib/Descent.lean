import Mathlib.Logic.Relation
import Mathlib.Data.Nat.Init
import Mathlib.Order.WellFounded

/-!
# Runs that come to an end

Under an invariant every state that is not done has a step to a state of smaller measure: then a done
state is reached. Where moreover the steps leave no choice, every run leads there, and where every
step takes from the measure no run goes on for ever.
-/

namespace FixEngine

namespace Descent

open Relation (ReflTransGen)

variable {σ : Type*} {step : σ → σ → Prop} {Inv Done : σ → Prop} {first last middle : σ}

theorem exists_done (measure : σ → ℕ)
    (progress : ∀ state, Inv state → ¬Done state →
      ∃ next, step state next ∧ Inv next ∧ measure next < measure state)
    (init : Inv first) : ∃ last, ReflTransGen step first last ∧ Inv last ∧ Done last := by
  induction size : measure first using Nat.strong_induction_on generalizing first with
  | _ size_eq ih =>
      by_cases done : Done first
      · exact ⟨first, .refl, init, done⟩
      · rcases progress first init done with ⟨next, taken, still, smaller⟩
        rcases ih (measure next) (by omega) still rfl with ⟨last, run, inv, done⟩
        exact ⟨last, .head taken run, inv, done⟩

theorem no_infinite_run (measure : σ → ℕ)
    (closed : ∀ state next, Inv state → step state next → Inv next)
    (descends : ∀ state next, Inv state → step state next → measure next < measure state)
    (init : Inv first) :
    ¬∃ states : ℕ → σ, states 0 = first ∧ ∀ index, step (states index) (states (index + 1)) := by
  rintro ⟨states, starts_at, follows_steps⟩
  have inv : ∀ index, Inv (states index) := by
    intro index
    induction index with
    | zero => rwa [starts_at]
    | succ index ih => exact closed _ _ ih (follows_steps index)
  rcases WellFounded.not_rel_apply_succ (r := (· < ·)) fun index => measure (states index) with
    ⟨index, stays⟩
  exact stays (descends _ _ (inv index) (follows_steps index))

/-- A run can only be one on the way to the end. -/
theorem continues (closed : ∀ state next, Inv state → step state next → Inv next)
    (unique : ∀ state next other, Inv state → step state next → step state other → next = other)
    (ended : ∀ next, ¬step last next) (init : Inv first) (run : ReflTransGen step first last)
    (other : ReflTransGen step first middle) : ReflTransGen step middle last := by
  induction other with
  | refl => exact run
  | @tail before after steps taken ih =>
      have inv : Inv before := by
        clear ih taken
        induction steps with
        | refl => exact init
        | tail _ taken ih => exact closed _ _ ih taken
      rcases ReflTransGen.cases_head ih with rfl | ⟨next, here, rest⟩
      · exact absurd taken (ended after)
      · rw [unique before after next inv taken here]
        exact rest

end Descent

end FixEngine
