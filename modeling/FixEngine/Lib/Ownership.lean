import Mathlib.Logic.Function.Basic
import Mathlib.Tactic.Common

/-!
# Exclusive ownership

Names own resources, each at most one. `Exclusive` says that no two names own the same one.
Acquiring a resource that nobody owns, handing one over to another name and giving one up keep
that, and change the resources in use as one expects.
-/

namespace FixEngine

namespace Ownership

variable {ν ρ : Type} {owned : ν → Option ρ} {name source : ν} {resource other : ρ}

/-- No resource has two owners. -/
def Exclusive (owned : ν → Option ρ) : Prop :=
  ∀ ⦃first second resource⦄, owned first = some resource → owned second = some resource →
    first = second

/-- Some name owns the resource. -/
def InUse (owned : ν → Option ρ) (resource : ρ) : Prop := ∃ name, owned name = some resource

theorem exclusive_none : Exclusive (fun _ : ν => (none : Option ρ)) := by
  intro first second resource holds
  cases holds

theorem not_inUse_none : ¬InUse (fun _ : ν => none) resource := by
  rintro ⟨name, holds⟩
  cases holds

variable [DecidableEq ν]

section Acquire

theorem Exclusive.acquire (exclusive : Exclusive owned) (unused : ¬InUse owned resource) :
    Exclusive (Function.update owned name (some resource)) := by
  intro first second thing holdsFirst holdsSecond
  by_cases isFirst : first = name
  · by_cases isSecond : second = name
    · rw [isFirst, isSecond]
    · rw [isFirst, Function.update_self, Option.some.injEq] at holdsFirst
      rw [Function.update_of_ne isSecond, ← holdsFirst] at holdsSecond
      exact absurd ⟨second, holdsSecond⟩ unused
  · rw [Function.update_of_ne isFirst] at holdsFirst
    by_cases isSecond : second = name
    · rw [isSecond, Function.update_self, Option.some.injEq] at holdsSecond
      rw [← holdsSecond] at holdsFirst
      exact absurd ⟨first, holdsFirst⟩ unused
    · rw [Function.update_of_ne isSecond] at holdsSecond
      exact exclusive holdsFirst holdsSecond

theorem inUse_acquire (free : owned name = none) :
    InUse (Function.update owned name (some resource)) other ↔
      other = resource ∨ InUse owned other := by
  constructor
  · rintro ⟨holder, holds⟩
    by_cases isName : holder = name
    · rw [isName, Function.update_self, Option.some.injEq] at holds
      exact .inl holds.symm
    · rw [Function.update_of_ne isName] at holds
      exact .inr ⟨holder, holds⟩
  · rintro (rfl | ⟨holder, holds⟩)
    · exact ⟨name, Function.update_self ..⟩
    · refine ⟨holder, ?_⟩
      rw [Function.update_of_ne]
      · exact holds
      · rintro rfl
        rw [free] at holds
        cases holds

end Acquire

section Release

theorem Exclusive.release (exclusive : Exclusive owned) (name : ν) :
    Exclusive (Function.update owned name none) := by
  have kept : ∀ {holder thing}, Function.update owned name none holder = some thing →
      owned holder = some thing := by
    intro holder thing holds
    by_cases isName : holder = name
    · rw [isName, Function.update_self] at holds
      cases holds
    · rwa [Function.update_of_ne isName] at holds
  intro first second thing holdsFirst holdsSecond
  exact exclusive (kept holdsFirst) (kept holdsSecond)

theorem inUse_release (exclusive : Exclusive owned) (name : ν) :
    InUse (Function.update owned name none) other ↔ InUse owned other ∧ owned name ≠ some other := by
  constructor
  · rintro ⟨holder, holds⟩
    by_cases isName : holder = name
    · rw [isName, Function.update_self] at holds
      cases holds
    · rw [Function.update_of_ne isName] at holds
      refine ⟨⟨holder, holds⟩, ?_⟩
      intro own
      exact isName (exclusive holds own)
  · rintro ⟨⟨holder, holds⟩, gone⟩
    refine ⟨holder, ?_⟩
    rw [Function.update_of_ne]
    · exact holds
    · rintro rfl
      exact gone holds

end Release

section Transfer

/-- What `source` owns goes to `name`, which owns nothing. -/
def transfer (owned : ν → Option ρ) (name source : ν) : ν → Option ρ :=
  Function.update (Function.update owned name (owned source)) source none

theorem transfer_eq (owned : ν → Option ρ) (differs : name ≠ source) :
    transfer owned name source =
      Function.update (Function.update owned source none) name (owned source) := by
  rw [transfer, Function.update_comm differs]

theorem Exclusive.transfer (exclusive : Exclusive owned) (differs : name ≠ source) :
    Exclusive (transfer owned name source) := by
  rw [transfer_eq owned differs]
  have released := exclusive.release source
  cases holds : owned source with
  | none => exact released.release name
  | some resource =>
      apply released.acquire
      rw [inUse_release exclusive]
      rintro ⟨_, gone⟩
      exact gone holds

theorem inUse_transfer (exclusive : Exclusive owned) (differs : name ≠ source)
    (free : owned name = none) : InUse (transfer owned name source) other ↔ InUse owned other := by
  have freeStill : Function.update owned source none name = none := by
    rw [Function.update_of_ne differs]
    exact free
  rw [transfer_eq owned differs]
  cases holds : owned source with
  | none =>
      rw [Function.update_eq_self_iff.mpr freeStill.symm, inUse_release exclusive, holds]
      simp
  | some resource =>
      rw [inUse_acquire freeStill, inUse_release exclusive, holds]
      constructor
      · rintro (rfl | ⟨used, _⟩)
        · exact ⟨source, holds⟩
        · exact used
      · intro used
        by_cases same : other = resource
        · exact .inl same
        · refine .inr ⟨used, ?_⟩
          rintro ⟨⟩
          exact same rfl

end Transfer

end Ownership

end FixEngine
