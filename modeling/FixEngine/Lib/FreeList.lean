import Mathlib.Data.List.Nodup
import Mathlib.Logic.Function.Basic

/-!
# Intrusive free lists

Blocks that are not in use are threaded into a list by links, which a head begins and a sentinel
ends. The list is determined by the head and the links, so no block is on it twice; and links of
blocks that are not on it do not matter. Taking the first block and putting a block in front are
the two operations.
-/

namespace FixEngine

namespace FreeList

variable {β : Type} {link other : β → β} {stop head block : β} {free : List β}

/-- From `head` the links lead through the blocks of the list to `stop`. -/
def Chain (link : β → β) (stop : β) : β → List β → Prop
  | head, [] => head = stop
  | head, block :: rest => block = head ∧ head ≠ stop ∧ Chain link stop (link head) rest

theorem Chain.unique {others : List β} (chain : Chain link stop head free)
    (same : Chain link stop head others) : free = others := by
  induction free generalizing head others with
  | nil =>
      cases others with
      | nil => rfl
      | cons block rest => exact absurd chain same.2.1
  | cons block rest ih =>
      rcases chain with ⟨rfl, inside, further⟩
      cases others with
      | nil => exact absurd same inside
      | cons first others =>
          rcases same with ⟨rfl, _, furtherToo⟩
          rw [ih further furtherToo]

/-- From any block on the list the rest of it is a chain of its own. -/
theorem Chain.suffix {front : List β} (chain : Chain link stop head (front ++ block :: free)) :
    Chain link stop block (block :: free) := by
  induction front generalizing head with
  | nil =>
      rcases chain with ⟨rfl, inside, further⟩
      exact ⟨rfl, inside, further⟩
  | cons first front ih => exact ih chain.2.2

/-- The links do not run in a circle. -/
theorem Chain.nodup (chain : Chain link stop head free) : free.Nodup := by
  induction free generalizing head with
  | nil => exact List.nodup_nil
  | cons block rest ih =>
      refine List.nodup_cons.mpr ⟨?_, ih chain.2.2⟩
      intro again
      rcases List.append_of_mem again with ⟨front, back, split⟩
      have whole : Chain link stop block (block :: rest) := by
        rcases chain with ⟨rfl, inside, further⟩
        exact ⟨rfl, inside, further⟩
      have shorter : Chain link stop block (block :: back) := by
        rw [split] at chain
        exact chain.2.2.suffix
      have lengths := congrArg List.length (whole.unique shorter)
      rw [split] at lengths
      simp only [List.length_cons, List.length_append] at lengths
      omega

/-- Only the links of the blocks on the list matter. -/
theorem Chain.congr (chain : Chain link stop head free)
    (agree : ∀ block ∈ free, other block = link block) : Chain other stop head free := by
  induction free generalizing head with
  | nil => exact chain
  | cons block rest ih =>
      rcases chain with ⟨rfl, inside, further⟩
      refine ⟨rfl, inside, ?_⟩
      rw [agree block List.mem_cons_self]
      apply ih further
      intro later mem
      exact agree later (List.mem_cons_of_mem _ mem)

theorem Chain.push (chain : Chain link stop head free) (inside : block ≠ stop)
    (linked : other block = head) (fresh : block ∉ free)
    (agree : ∀ b, b ≠ block → other b = link b) : Chain other stop block (block :: free) := by
  refine ⟨rfl, inside, ?_⟩
  rw [linked]
  apply chain.congr
  intro b mem
  apply agree
  intro same
  exact fresh (same ▸ mem)

/-- The list is empty exactly when the head is the sentinel; otherwise it begins with the head. -/
theorem Chain.cases (chain : Chain link stop head free) :
    (head = stop ∧ free = []) ∨
      (head ≠ stop ∧ ∃ rest, free = head :: rest ∧ Chain link stop (link head) rest) := by
  cases free with
  | nil => exact .inl ⟨chain, rfl⟩
  | cons block rest =>
      rcases chain with ⟨rfl, inside, further⟩
      exact .inr ⟨inside, rest, rfl, further⟩

end FreeList

end FixEngine
