import FixEngine.Lib.Runs

/-!
# Data refinement

An implementation and a specification take the same inputs, each from a state of its own, and
answer them. `Refines` says that one legal input leads related states to related states and to the
same answer; whether an input is legal depends on the specification alone. It follows that they
give the same answers along every legal run and end in related states.
-/

namespace FixEngine

namespace Refinement

variable {σ τ ι ρ : Type}

/-- The step without its answer. -/
def advance (step : σ → ι → σ × ρ) (state : σ) (input : ι) : σ := (step state input).1

/-- The state after a run. -/
def final (step : σ → ι → σ × ρ) (state : σ) (inputs : List ι) : σ :=
  inputs.foldl (advance step) state

/-- The answers of a run. -/
def answers (step : σ → ι → σ × ρ) (state : σ) : List ι → List ρ
  | [] => []
  | input :: rest => (step state input).2 :: answers step (advance step state input) rest

theorem answers_append (step : σ → ι → σ × ρ) (state : σ) (inputs more : List ι) :
    answers step state (inputs ++ more) =
      answers step state inputs ++ answers step (final step state inputs) more := by
  induction inputs generalizing state with
  | nil => rfl
  | cons input rest ih =>
      simp only [List.cons_append, answers, ih]
      rfl

/-- Related states stay related under every legal input, and give the same answers. -/
structure Refines (impl : σ → ι → σ × ρ) (spec : τ → ι → τ × ρ) (legal : τ → ι → Prop)
    (related : σ → τ → Prop) : Prop where
  state : ∀ {concrete abstract input}, related concrete abstract → legal abstract input →
    related (impl concrete input).1 (spec abstract input).1
  answer : ∀ {concrete abstract input}, related concrete abstract → legal abstract input →
    (impl concrete input).2 = (spec abstract input).2

variable {impl : σ → ι → σ × ρ} {spec : τ → ι → τ × ρ} {legal : τ → ι → Prop}
  {related : σ → τ → Prop}

/-- Related states stay related along every legal run. -/
theorem Refines.final_related (refines : Refines impl spec legal related) {concrete : σ}
    {abstract : τ} {inputs : List ι} (init : related concrete abstract)
    (meets : Runs.Meets (advance spec) legal abstract inputs) :
    related (final impl concrete inputs) (final spec abstract inputs) := by
  induction inputs generalizing concrete abstract with
  | nil => exact init
  | cons input rest ih =>
      rcases meets with ⟨allowed, remaining⟩
      apply ih
      · exact refines.state init allowed
      · exact remaining

/-- Related states give the same answers along every legal run. -/
theorem Refines.answers_eq (refines : Refines impl spec legal related) {concrete : σ}
    {abstract : τ} {inputs : List ι} (init : related concrete abstract)
    (meets : Runs.Meets (advance spec) legal abstract inputs) :
    answers impl concrete inputs = answers spec abstract inputs := by
  induction inputs generalizing concrete abstract with
  | nil => rfl
  | cons input rest ih =>
      rcases meets with ⟨allowed, remaining⟩
      have same := refines.answer init allowed
      have later := ih (refines.state init allowed) remaining
      simp only [answers, same]
      congr 1

end Refinement

end FixEngine
