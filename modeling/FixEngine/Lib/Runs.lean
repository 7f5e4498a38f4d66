import Mathlib.Data.List.Basic

/-!
# Runs of a transition function

A run feeds a list of inputs to a step function. `Meets` says that every step of a run meets a
condition on the state before it and its input; invariants that one step preserves under the
condition hold at the end of every such run, so in every state such a run reaches.
-/

namespace FixEngine

namespace Runs

variable {σ ι : Type} {step : σ → ι → σ} {condition : σ → ι → Prop} {state : σ}

/-- Every step of the run from `state` meets the condition. -/
def Meets (step : σ → ι → σ) (condition : σ → ι → Prop) (state : σ) : List ι → Prop
  | [] => True
  | input :: rest => condition state input ∧ Meets step condition (step state input) rest

theorem meets_append {inputs more : List ι} :
    Meets step condition state (inputs ++ more) ↔
      Meets step condition state inputs ∧
        Meets step condition (inputs.foldl step state) more := by
  induction inputs generalizing state with
  | nil => simp [Meets]
  | cons input rest ih => simp [Meets, ih, and_assoc]

theorem Meets.and {other : σ → ι → Prop} {inputs : List ι} (meets : Meets step condition state inputs)
    (also : Meets step other state inputs) :
    Meets step (fun state input => condition state input ∧ other state input) state inputs := by
  induction inputs generalizing state with
  | nil => trivial
  | cons input rest ih => exact ⟨⟨meets.1, also.1⟩, ih meets.2 also.2⟩

/-- A run that does not meet the condition has a first step that does not. -/
theorem exists_of_not_meets {inputs : List ι} (fails : ¬Meets step condition state inputs) :
    ∃ earlier input later, inputs = earlier ++ input :: later ∧
      Meets step condition state earlier ∧ ¬condition (earlier.foldl step state) input := by
  induction inputs generalizing state with
  | nil => exact absurd trivial fails
  | cons input rest ih =>
      by_cases here : condition state input
      · have further : ¬Meets step condition (step state input) rest :=
          fun meets => fails ⟨here, meets⟩
        rcases ih further with ⟨earlier, first, later, split, meets, breaks⟩
        exact ⟨input :: earlier, first, later, by rw [split]; rfl, ⟨here, meets⟩, breaks⟩
      · exact ⟨[], input, rest, rfl, trivial, here⟩

/-- The invariant rule. -/
theorem Meets.invariant {Inv : σ → Prop} {inputs : List ι}
    (meets : Meets step condition state inputs) (init : Inv state)
    (preserved : ∀ state input, Inv state → condition state input → Inv (step state input)) :
    Inv (inputs.foldl step state) := by
  induction inputs generalizing state with
  | nil => exact init
  | cons input rest ih => exact ih meets.2 (preserved state input init meets.1)

end Runs

end FixEngine
