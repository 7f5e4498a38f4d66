import Mathlib.Data.List.Basic
import Mathlib.Data.List.Range
import Mathlib.Logic.Function.Basic
import Mathlib.Tactic.Common

/-!
# The ring

`Ring<T, Capacity, MinGrowSize, Policy>` of `core/Ring.hpp`: a circular buffer with a head, a
tail, a size and a capacity that only the `Grow` policy changes. The template arguments and the
two static assertions about them are a `RingSpec`.

`Ring.toList` is the queue a ring stands for, and `Ring.Valid` the invariant that ties the two
indices and the size together. Every operation keeps the invariant and acts on the list.
-/

namespace FixEngine

/-- `RingPolicy`, what `push` does with a full ring. -/
inductive RingPolicy
  | grow
  | reject
  | overwrite
  deriving DecidableEq, Repr

/-- The template arguments of a ring, with the static assertions of the source. -/
structure RingSpec where
  capacity : ℕ
  minGrowSize : ℕ
  policy : RingPolicy
  capacity_pos : 0 < capacity
  legal : (policy = .grow ∧ 0 < minGrowSize) ∨ (policy = .overwrite ∧ minGrowSize = 0) ∨
    (policy = .reject ∧ minGrowSize = 0)

/-- `Ring<T, StartCapacity, MinGrowSize, Policy>`. -/
structure Ring (α : Type) (spec : RingSpec) where
  head : ℕ
  tail : ℕ
  capacity : ℕ
  size : ℕ
  /-- The allocated cells; a cell that was never written holds the default value. -/
  buffer : ℕ → α

namespace Ring

variable {α : Type} {spec : RingSpec}

/-- The constructor. -/
def new [Inhabited α] : Ring α spec where
  head := 0
  tail := 0
  capacity := spec.capacity
  size := 0
  buffer := fun _ => default

/-- `empty()`. -/
def empty (ring : Ring α spec) : Bool := ring.size == 0

/-- `full()`. -/
def full (ring : Ring α spec) : Bool := ring.size == ring.capacity

/-- The index after `idx`, around the end. -/
def next (ring : Ring α spec) (idx : ℕ) : ℕ := (idx + 1) % ring.capacity

/-- The index before `idx`, around the start. -/
def prev (ring : Ring α spec) (idx : ℕ) : ℕ := if idx = 0 then ring.capacity - 1 else idx - 1

/-- Room is made (`Grow`, `Overwrite`) or the item refused (`Reject`) when the ring is full. -/
def makeRoom [Inhabited α] (ring : Ring α spec) : Option (Ring α spec) :=
  match spec.policy with
  | .grow => some
      { head := 0
        tail := ring.size
        capacity := ring.capacity + spec.minGrowSize
        size := ring.size
        buffer := fun k =>
          if k < ring.size then ring.buffer ((ring.head + k) % ring.capacity) else default }
  | .overwrite => some { ring with head := ring.next ring.head, size := ring.size - 1 }
  | .reject => none

/-- Write the item at the tail. -/
def put (ring : Ring α spec) (item : α) : Ring α spec :=
  { ring with
    buffer := Function.update ring.buffer ring.tail item
    tail := ring.next ring.tail
    size := ring.size + 1 }

/-- `push`, with whether the item was taken. -/
def push [Inhabited α] (ring : Ring α spec) (item : α) : Ring α spec × Bool :=
  if ring.full then
    match ring.makeRoom with
    | some roomy => (roomy.put item, true)
    | none => (ring, false)
  else (ring.put item, true)

/-- `front()`. -/
def front (ring : Ring α spec) : α := ring.buffer ring.head

/-- `back()`. -/
def back (ring : Ring α spec) : α := ring.buffer (ring.prev ring.tail)

/-- `pop_front`. -/
def popFront (ring : Ring α spec) : Ring α spec :=
  { ring with head := ring.next ring.head, size := ring.size - 1 }

/-- `pop_back`. -/
def popBack (ring : Ring α spec) : Ring α spec :=
  { ring with tail := ring.prev ring.tail, size := ring.size - 1 }

/-- The element destructors run by `clear` are trivial for the element types used here. -/
def clear (ring : Ring α spec) : Ring α spec := { ring with head := 0, tail := 0, size := 0 }

/-- The queue a ring stands for, from head to tail. -/
def toList (ring : Ring α spec) : List α :=
  (List.range ring.size).map fun k => ring.buffer ((ring.head + k) % ring.capacity)

/-- The indices are in range and the tail lies `size` cells after the head. -/
structure Valid (ring : Ring α spec) : Prop where
  head_lt : ring.head < ring.capacity
  size_le : ring.size ≤ ring.capacity
  tail_eq : ring.tail = (ring.head + ring.size) % ring.capacity
  /-- A ring never shrinks. -/
  capacity_le : spec.capacity ≤ ring.capacity

section Refinement

variable {ring : Ring α spec}

@[simp]
theorem length_toList : ring.toList.length = ring.size := by simp [toList]

theorem valid_new [Inhabited α] : (new : Ring α spec).Valid where
  head_lt := spec.capacity_pos
  size_le := Nat.zero_le _
  tail_eq := by simp [new]
  capacity_le := Nat.le_refl _

@[simp]
theorem toList_new [Inhabited α] : (new : Ring α spec).toList = [] := by simp [toList, new]

theorem Valid.clear (valid : ring.Valid) : ring.clear.Valid where
  head_lt := by have := valid.head_lt; simp only [Ring.clear]; omega
  size_le := Nat.zero_le _
  tail_eq := by simp [Ring.clear]
  capacity_le := valid.capacity_le

@[simp]
theorem toList_clear : ring.clear.toList = [] := by simp [toList, clear]

/-- Cells at different distances below the capacity are different cells. -/
theorem index_ne {capacity head i j : ℕ} (lt : i < j) (le : j ≤ i + (capacity - 1))
    (pos : 0 < capacity) : (head + i) % capacity ≠ (head + j) % capacity := by
  intro same
  have gap : (head + j - (head + i)) % capacity = 0 :=
    Nat.sub_mod_eq_zero_of_mod_eq same.symm
  rw [Nat.add_sub_add_left, Nat.mod_eq_of_lt (by omega)] at gap
  omega

theorem Valid.put (valid : ring.Valid) (notFull : ring.size < ring.capacity) (item : α) :
    (ring.put item).Valid where
  head_lt := valid.head_lt
  size_le := notFull
  tail_eq := by simp [Ring.put, next, valid.tail_eq, Nat.add_assoc]
  capacity_le := valid.capacity_le

theorem toList_put (valid : ring.Valid) (notFull : ring.size < ring.capacity) (item : α) :
    (ring.put item).toList = ring.toList ++ [item] := by
  simp only [toList, put, List.range_succ, List.map_append, List.map_cons, List.map_nil]
  congr 1
  · apply List.map_congr_left
    intro k mem
    have lt : k < ring.size := List.mem_range.mp mem
    apply Function.update_of_ne
    rw [valid.tail_eq]
    exact index_ne lt (by omega) (by omega)
  · simp [valid.tail_eq]

theorem Valid.popFront (valid : ring.Valid) (nonempty : 0 < ring.size) :
    ring.popFront.Valid where
  head_lt := Nat.mod_lt _ (Nat.zero_lt_of_lt valid.head_lt)
  size_le := by have := valid.size_le; simp only [Ring.popFront]; omega
  tail_eq := by
    simp only [Ring.popFront, next, Nat.mod_add_mod, valid.tail_eq]
    congr 1
    omega
  capacity_le := valid.capacity_le

/-- Popping removes the front, which is the first element of the queue. -/
theorem toList_eq_front_cons (valid : ring.Valid) (nonempty : 0 < ring.size) :
    ring.toList = ring.front :: ring.popFront.toList := by
  obtain ⟨n, size_eq⟩ : ∃ n, ring.size = n + 1 := ⟨ring.size - 1, by omega⟩
  simp only [toList, popFront, front, next, size_eq, List.range_succ_eq_map, List.map_cons,
    List.map_map, Nat.add_zero, Nat.add_sub_cancel, Nat.mod_eq_of_lt valid.head_lt]
  congr 1
  apply List.map_congr_left
  intro k _
  simp only [Function.comp_apply, Nat.mod_add_mod]
  congr 2
  omega

end Refinement

end Ring

end FixEngine
