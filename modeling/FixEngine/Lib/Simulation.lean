import Mathlib.Logic.Relation

/-!
# Weak simulation

An implementation may take several steps where the specification takes one, and the specification
several, or none, for one of the implementation. `Simulates` says that a step of the implementation
from related states is matched by a run of the specification to related states; then every run is,
and what holds in all states the specification reaches holds, through the relation, in all states the
implementation reaches.
-/

namespace FixEngine

namespace Simulation

open Relation (ReflTransGen)

variable {σ τ : Type} {impl : σ → σ → Prop} {spec : τ → τ → Prop} {related : σ → τ → Prop}

/-- Every step of the implementation is matched by a run of the specification. -/
def Simulates (impl : σ → σ → Prop) (spec : τ → τ → Prop) (related : σ → τ → Prop) : Prop :=
  ∀ concrete next abstract, related concrete abstract → impl concrete next →
    ∃ later, ReflTransGen spec abstract later ∧ related next later

/-- Every run of the implementation is matched by a run of the specification. -/
theorem Simulates.run (simulates : Simulates impl spec related) {concrete next : σ} {abstract : τ}
    (init : related concrete abstract) (steps : ReflTransGen impl concrete next) :
    ∃ later, ReflTransGen spec abstract later ∧ related next later := by
  induction steps with
  | refl => exact ⟨abstract, .refl, init⟩
  | tail _ step ih =>
      rcases ih with ⟨reached, before, here⟩
      rcases simulates _ _ _ here step with ⟨later, after, there⟩
      exact ⟨later, before.trans after, there⟩

/-- The invariant rule for the runs of one relation. -/
theorem invariant {step : τ → τ → Prop} {Inv : τ → Prop} {first last : τ} (init : Inv first)
    (preserved : ∀ {before after}, Inv before → step before after → Inv after)
    (steps : ReflTransGen step first last) : Inv last := by
  induction steps with
  | refl => exact init
  | tail _ step ih => exact preserved ih step

end Simulation

end FixEngine
