import FixEngine.Core.Ring
import FixEngine.Lib.Refinement

/-!
# The ring is a deque

A deque is a list with a capacity. The three policies differ in what a push does to a full one:
it grows, refuses the item, or loses its front. A ring answers every sequence of operations as the
deque does, whatever the position of its head, and the list between head and tail is the deque's.
-/

namespace FixEngine

/-- A bounded list that is pushed at its end and popped at both. -/
structure Deque (α : Type) where
  items : List α
  capacity : ℕ

namespace Ring

variable {α : Type} {spec : RingSpec}

/-- The operations of the ring. -/
inductive Op (α : Type)
  | push (item : α)
  | popFront
  | popBack
  | front
  | back
  | clear
  deriving DecidableEq, Repr

/-- What they return. -/
inductive Answer (α : Type)
  | pushed (accepted : Bool)
  | item (value : α)
  | done
  deriving DecidableEq, Repr

/-- The ring after an operation, and its answer. -/
def step [Inhabited α] (ring : Ring α spec) : Op α → Ring α spec × Answer α
  | .push item => ((ring.push item).1, .pushed (ring.push item).2)
  | .popFront => (ring.popFront, .done)
  | .popBack => (ring.popBack, .done)
  | .front => (ring, .item ring.front)
  | .back => (ring, .item ring.back)
  | .clear => (ring.clear, .done)

end Ring

namespace Deque

variable {α : Type}

/-- The empty deque of a ring. -/
def new (spec : RingSpec) : Deque α := ⟨[], spec.capacity⟩

/-- At the capacity the policy decides. -/
def push (spec : RingSpec) (deque : Deque α) (item : α) : Deque α × Bool :=
  if deque.items.length < deque.capacity then
    ({ deque with items := deque.items ++ [item] }, true)
  else
    match spec.policy with
    | .grow => (⟨deque.items ++ [item], deque.capacity + spec.minGrowSize⟩, true)
    | .reject => (deque, false)
    | .overwrite => ({ deque with items := deque.items.tail ++ [item] }, true)

/-- The deque after an operation, and its answer. -/
def step [Inhabited α] (spec : RingSpec) (deque : Deque α) : Ring.Op α → Deque α × Ring.Answer α
  | .push item => ((deque.push spec item).1, .pushed (deque.push spec item).2)
  | .popFront => ({ deque with items := deque.items.tail }, .done)
  | .popBack => ({ deque with items := deque.items.dropLast }, .done)
  | .front => (deque, .item (deque.items.head?.getD default))
  | .back => (deque, .item (deque.items.getLast?.getD default))
  | .clear => ({ deque with items := [] }, .done)

/-- The source asserts that a deque that is popped or read is not empty. -/
def Legal (deque : Deque α) : Ring.Op α → Prop
  | .push _ => True
  | .clear => True
  | _ => deque.items ≠ []

end Deque

namespace Ring

variable {α : Type} {spec : RingSpec} {ring : Ring α spec}

/-- The cell before the next one is the one itself. -/
theorem prev_next (valid : ring.Valid) (idx : ℕ) :
    ring.prev ((idx + 1) % ring.capacity) = idx % ring.capacity := by
  have pos : 0 < ring.capacity := Nat.zero_lt_of_lt valid.head_lt
  have lt : idx % ring.capacity < ring.capacity := Nat.mod_lt idx pos
  rw [prev, ← Nat.mod_add_mod]
  rcases Nat.lt_or_ge (idx % ring.capacity + 1) ring.capacity with inside | last
  · rw [Nat.mod_eq_of_lt inside, if_neg (by omega)]
    omega
  · have wraps : idx % ring.capacity + 1 = ring.capacity := by omega
    rw [wraps, Nat.mod_self, if_pos rfl]
    omega

theorem Valid.popBack (valid : ring.Valid) (nonempty : 0 < ring.size) : ring.popBack.Valid where
  head_lt := valid.head_lt
  size_le := by have := valid.size_le; simp only [Ring.popBack]; omega
  tail_eq := by
    have tail := valid.tail_eq
    have before := prev_next valid (ring.head + (ring.size - 1))
    have one : ring.head + (ring.size - 1) + 1 = ring.head + ring.size := by omega
    simp only [Ring.popBack, tail]
    rw [one] at before
    exact before
  capacity_le := valid.capacity_le

/-- Popping at the back removes the last element of the queue. -/
theorem toList_eq_popBack_append (valid : ring.Valid) (nonempty : 0 < ring.size) :
    ring.toList = ring.popBack.toList ++ [ring.back] := by
  have before := prev_next valid (ring.head + (ring.size - 1))
  have one : ring.head + (ring.size - 1) + 1 = ring.head + ring.size := by omega
  have last : ring.size = ring.size - 1 + 1 := by omega
  rw [one, ← valid.tail_eq] at before
  simp only [toList, popBack, back, before]
  conv_lhs => rw [last]
  rw [List.range_succ, List.map_append, List.map_singleton]

section MakeRoom

variable [Inhabited α] {roomy : Ring α spec}

/-- Growing moves the queue to the front of a larger allocation. -/
theorem makeRoom_grow (policy : spec.policy = .grow) (valid : ring.Valid)
    (made : ring.makeRoom = some roomy) :
    roomy.Valid ∧ roomy.toList = ring.toList ∧ roomy.capacity = ring.capacity + spec.minGrowSize ∧
      roomy.size < roomy.capacity := by
  have grows : 0 < spec.minGrowSize := by
    rcases spec.legal with ⟨_, pos⟩ | ⟨other, _⟩ | ⟨other, _⟩
    · exact pos
    · simp [policy] at other
    · simp [policy] at other
  have sizeLe := valid.size_le
  have capacityLe := valid.capacity_le
  have specPos := spec.capacity_pos
  simp only [makeRoom, policy, Option.some.injEq] at made
  subst made
  refine ⟨⟨?_, ?_, ?_, ?_⟩, ?_, rfl, ?_⟩
  · show 0 < ring.capacity + spec.minGrowSize
    omega
  · show ring.size ≤ ring.capacity + spec.minGrowSize
    omega
  · show ring.size = (0 + ring.size) % (ring.capacity + spec.minGrowSize)
    rw [Nat.zero_add, Nat.mod_eq_of_lt (by omega)]
  · show spec.capacity ≤ ring.capacity + spec.minGrowSize
    omega
  · simp only [toList]
    apply List.map_congr_left
    intro k mem
    have below : k < ring.size := List.mem_range.mp mem
    rw [Nat.zero_add, Nat.mod_eq_of_lt (by omega), if_pos below]
  · show ring.size < ring.capacity + spec.minGrowSize
    omega

/-- Overwriting gives the cell of the front away. -/
theorem makeRoom_overwrite (policy : spec.policy = .overwrite)
    (made : ring.makeRoom = some roomy) : roomy = ring.popFront := by
  simp only [makeRoom, policy, Option.some.injEq] at made
  exact made.symm

theorem makeRoom_reject (policy : spec.policy = .reject) : ring.makeRoom = none := by
  simp [makeRoom, policy]

end MakeRoom

/-- A ring stands for a deque when it is well formed and they hold the same list and capacity. -/
structure Represents (ring : Ring α spec) (deque : Deque α) : Prop where
  valid : ring.Valid
  items : ring.toList = deque.items
  capacity : ring.capacity = deque.capacity

namespace Represents

variable {deque : Deque α}

theorem new [Inhabited α] : (Ring.new : Ring α spec).Represents (Deque.new spec) :=
  ⟨valid_new, toList_new, rfl⟩

theorem size_eq (rep : ring.Represents deque) : ring.size = deque.items.length := by
  rw [← rep.items, length_toList]

theorem size_pos (rep : ring.Represents deque) (nonempty : deque.items ≠ []) : 0 < ring.size := by
  rw [rep.size_eq]
  exact List.length_pos_of_ne_nil nonempty

theorem full_eq (rep : ring.Represents deque) :
    ring.full = decide (deque.items.length = deque.capacity) := by
  rw [Ring.full, rep.size_eq, rep.capacity]
  rfl

theorem empty_eq (rep : ring.Represents deque) : ring.empty = deque.items.isEmpty := by
  rw [Ring.empty, rep.size_eq]
  cases deque.items <;> rfl

theorem put (rep : ring.Represents deque) (notFull : ring.size < ring.capacity) (item : α) :
    (ring.put item).Represents { deque with items := deque.items ++ [item] } := by
  refine ⟨rep.valid.put notFull item, ?_, rep.capacity⟩
  rw [toList_put rep.valid notFull, rep.items]

theorem popFront (rep : ring.Represents deque) (nonempty : deque.items ≠ []) :
    ring.popFront.Represents { deque with items := deque.items.tail } := by
  refine ⟨rep.valid.popFront (rep.size_pos nonempty), ?_, rep.capacity⟩
  rw [← rep.items, toList_eq_front_cons rep.valid (rep.size_pos nonempty), List.tail_cons]

theorem popBack (rep : ring.Represents deque) (nonempty : deque.items ≠ []) :
    ring.popBack.Represents { deque with items := deque.items.dropLast } := by
  refine ⟨rep.valid.popBack (rep.size_pos nonempty), ?_, rep.capacity⟩
  rw [← rep.items, toList_eq_popBack_append rep.valid (rep.size_pos nonempty),
    List.dropLast_concat]

theorem clear (rep : ring.Represents deque) :
    ring.clear.Represents { deque with items := [] } :=
  ⟨rep.valid.clear, toList_clear, rep.capacity⟩

/-- A full ring treats the pushed item as its policy says. -/
theorem push_full [Inhabited α] (rep : ring.Represents deque) (full : ring.size = ring.capacity)
    (item : α) :
    (ring.push item).1.Represents (deque.push spec item).1 ∧
      (ring.push item).2 = (deque.push spec item).2 := by
  have bound : ¬ deque.items.length < deque.capacity := by
    rw [← rep.size_eq, ← rep.capacity]
    omega
  have nonempty : deque.items ≠ [] := by
    have pos := Nat.zero_lt_of_lt rep.valid.head_lt
    apply List.ne_nil_of_length_pos
    rw [← rep.size_eq]
    omega
  have isFull : ring.full = true := by simp [Ring.full, full]
  simp only [Ring.push, isFull, if_true, Deque.push, bound, if_false]
  cases policy : spec.policy with
  | grow =>
      cases made : ring.makeRoom with
      | none => simp [makeRoom, policy] at made
      | some roomy =>
          rcases makeRoom_grow policy rep.valid made with ⟨valid, same, capacity, fits⟩
          have grown : roomy.Represents ⟨deque.items, deque.capacity + spec.minGrowSize⟩ :=
            ⟨valid, same.trans rep.items, by rw [capacity, rep.capacity]⟩
          exact ⟨grown.put fits item, rfl⟩
  | reject =>
      rw [makeRoom_reject policy]
      exact ⟨rep, rfl⟩
  | overwrite =>
      cases made : ring.makeRoom with
      | none => simp [makeRoom, policy] at made
      | some roomy =>
          have popped := rep.popFront nonempty
          have fits : ring.popFront.size < ring.popFront.capacity := by
            show ring.size - 1 < ring.capacity
            have := rep.size_pos nonempty
            omega
          rw [makeRoom_overwrite policy made]
          exact ⟨popped.put fits item, rfl⟩

theorem push [Inhabited α] (rep : ring.Represents deque) (item : α) :
    (ring.push item).1.Represents (deque.push spec item).1 ∧
      (ring.push item).2 = (deque.push spec item).2 := by
  rcases Nat.lt_or_ge ring.size ring.capacity with notFull | full
  · have bound : deque.items.length < deque.capacity := by
      rw [← rep.size_eq, ← rep.capacity]
      exact notFull
    have isFull : ring.full = false := by
      simp only [Ring.full, beq_eq_false_iff_ne]
      omega
    simp only [Ring.push, isFull, Bool.false_eq_true, if_false, Deque.push, bound, if_true]
    exact ⟨rep.put notFull item, trivial⟩
  · exact rep.push_full (Nat.le_antisymm rep.valid.size_le full) item

theorem front_eq [Inhabited α] (rep : ring.Represents deque) (nonempty : deque.items ≠ []) :
    ring.front = deque.items.head?.getD default := by
  rw [← rep.items, toList_eq_front_cons rep.valid (rep.size_pos nonempty)]
  rfl

theorem back_eq [Inhabited α] (rep : ring.Represents deque) (nonempty : deque.items ≠ []) :
    ring.back = deque.items.getLast?.getD default := by
  rw [← rep.items, toList_eq_popBack_append rep.valid (rep.size_pos nonempty)]
  simp

end Represents

/-- One operation, on both sides. -/
theorem refines_deque [Inhabited α] (spec : RingSpec) :
    Refinement.Refines (step : Ring α spec → Op α → Ring α spec × Answer α) (Deque.step spec)
      Deque.Legal Represents where
  state := by
    intro ring deque op rep legal
    cases op with
    | push item => exact (rep.push item).1
    | popFront => exact rep.popFront legal
    | popBack => exact rep.popBack legal
    | front => exact rep
    | back => exact rep
    | clear => exact rep.clear
  answer := by
    intro ring deque op rep legal
    cases op with
    | push item => exact congrArg Answer.pushed (rep.push item).2
    | popFront => rfl
    | popBack => rfl
    | front => exact congrArg Answer.item (rep.front_eq legal)
    | back => exact congrArg Answer.item (rep.back_eq legal)
    | clear => rfl

/-- Every run of a ring is the run of a deque of its policy: the operations answer alike, and in
the end the list, its length, emptiness and fullness are the deque's. -/
theorem run_deque [Inhabited α] (spec : RingSpec) (ops : List (Op α))
    (legal : Runs.Meets (Refinement.advance (Deque.step spec)) Deque.Legal (Deque.new spec) ops) :
    Refinement.answers step (new : Ring α spec) ops =
        Refinement.answers (Deque.step spec) (Deque.new spec) ops ∧
      (Refinement.final step (new : Ring α spec) ops).toList =
        (Refinement.final (Deque.step spec) (Deque.new spec) ops).items ∧
      (Refinement.final step (new : Ring α spec) ops).size =
        (Refinement.final (Deque.step spec) (Deque.new spec) ops).items.length ∧
      (Refinement.final step (new : Ring α spec) ops).empty =
        (Refinement.final (Deque.step spec) (Deque.new spec) ops).items.isEmpty ∧
      (Refinement.final step (new : Ring α spec) ops).full =
        decide ((Refinement.final (Deque.step spec) (Deque.new spec) ops).items.length =
          (Refinement.final (Deque.step spec) (Deque.new spec) ops).capacity) := by
  have rep := (refines_deque (α := α) spec).final_related Represents.new legal
  have same := (refines_deque (α := α) spec).answers_eq Represents.new legal
  exact ⟨same, rep.items, rep.size_eq, rep.empty_eq, rep.full_eq⟩

/-- A full ring of three cells that overwrites loses its front, wherever its head is. -/
theorem run_deque_overwrite :
    Refinement.answers step (new : Ring ℕ ⟨3, 0, .overwrite, by decide, by decide⟩)
        [.push 1, .push 2, .push 3, .popFront, .push 4, .push 5, .front, .popBack, .back] =
      [.pushed true, .pushed true, .pushed true, .done, .pushed true, .pushed true, .item 3,
        .done, .item 4] :=
  (run_deque ⟨3, 0, .overwrite, by decide, by decide⟩
    [.push 1, .push 2, .push 3, .popFront, .push 4, .push 5, .front, .popBack, .back]
    (by simp [Runs.Meets, Refinement.advance, Deque.Legal, Deque.step, Deque.push, Deque.new])).1

end Ring

end FixEngine
