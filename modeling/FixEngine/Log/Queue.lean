import FixEngine.Core.MpscRing
import FixEngine.Lib.Refinement
import Mathlib.Data.List.Basic

/-!
# The log ring is a queue until a `try_push` fails

One operation after the other, the ring is a queue of 1024 places, across any number of rounds of
its cells and of its 64-bit tickets. But `try_push` takes its ticket before it looks at the cell,
and a ticket that was not used is never filled: the next item goes to the cell after it, which is
still occupied when the queue has room again.
-/

namespace FixEngine

namespace MpscRing

variable {α : Type}

/-- The operations of the queue. -/
inductive Op (α : Type)
  | push (data : α)
  | tryPush (data : α)
  | pop
  deriving DecidableEq, Repr

/-- What they return. -/
inductive Answer (α : Type)
  | pushed (returned : Bool)
  | popped (data : Option α)
  deriving DecidableEq, Repr

/-- The ring after an operation, and its answer. -/
def step (leftover : α → α) (ring : MpscRing α) : Op α → MpscRing α × Answer α
  | .push data => ((ring.push data).1, .pushed (ring.push data).2)
  | .tryPush data => ((ring.tryPush data).1, .pushed (ring.tryPush data).2)
  | .pop => ((ring.pop leftover).1, .popped (ring.pop leftover).2)

/-- A FIFO queue of 1024 places. -/
def queueStep (queue : List α) : Op α → List α × Answer α
  | .push data =>
      if queue.length < capacity then (queue ++ [data], .pushed true) else (queue, .pushed false)
  | .tryPush data =>
      if queue.length < capacity then (queue ++ [data], .pushed true) else (queue, .pushed false)
  | .pop => (queue.tail, .popped queue.head?)

/-- `push` waits for room, so it is called when there is some. -/
def Legal (queue : List α) : Op α → Prop
  | .push _ => queue.length < capacity
  | .tryPush _ => True
  | .pop => True

/-- No `try_push` is made while the queue is full. -/
def Spares (queue : List α) : Op α → Prop
  | .push _ => True
  | .tryPush _ => queue.length < capacity
  | .pop => True

theorem offer_occupied {ring : MpscRing α}
    (occupied : ring.fetchAdd.2.loadEpoch ring.fetchAdd.1 ≠ ring.fetchAdd.1) (data : α) :
    ring.offer data = (ring.fetchAdd.2, false) := by
  simp only [offer, if_pos occupied.symm]

/-- The ring has taken out `popped` items and holds those of the queue: the cells of the next 1024
tickets are filled, from the front of the queue on, or vacant. -/
structure Represents (ring : MpscRing α) (popped : ℕ) (queue : List α) : Prop where
  head : ring.head = (popped + queue.length) % word64
  tail : ring.tail = popped % word64
  length_le : queue.length ≤ capacity
  filled : ∀ place, (inside : place < queue.length) →
    (ring.buff ((popped + place) % capacity)).epoch = (popped + place + 1) % word64 ∧
      (ring.buff ((popped + place) % capacity)).data = queue[place]
  vacant : ∀ place, queue.length ≤ place → place < capacity →
    (ring.buff ((popped + place) % capacity)).epoch = (popped + place) % word64

namespace Represents

variable {ring : MpscRing α} {popped : ℕ} {queue : List α}

theorem new [Inhabited α] : (MpscRing.new : MpscRing α).Represents 0 [] where
  head := rfl
  tail := rfl
  length_le := Nat.zero_le _
  filled := by
    intro place inside
    cases inside
  vacant := by
    intro place _ inside
    simp only [MpscRing.new, Nat.zero_add]
    rw [Nat.mod_eq_of_lt inside, Nat.mod_eq_of_lt]
    simp only [capacity, word64] at *
    omega

/-- The cell of the next ticket is vacant as long as there is room, and only then. -/
theorem loadEpoch_eq (rep : ring.Represents popped queue) :
    ring.fetchAdd.2.loadEpoch ring.fetchAdd.1 = ring.fetchAdd.1 ↔ queue.length < capacity := by
  have cell : cellOf ring.head = (popped + queue.length) % capacity := by
    rw [rep.head, cellOf_mod]
  simp only [fetchAdd, loadEpoch, cell]
  rcases Nat.lt_or_eq_of_le rep.length_le with room | full
  · rw [rep.vacant queue.length (Nat.le_refl _) room, rep.head]
    simp [room]
  · have first := (rep.filled 0 (by rw [full]; decide)).1
    have around : (popped + queue.length) % capacity = (popped + 0) % capacity := by
      rw [full, Nat.add_mod_right, Nat.add_zero]
    rw [around, first, rep.head, full]
    simp only [capacity, word64]
    omega

/-- Filling the next cell appends to the queue. -/
theorem fill (rep : ring.Represents popped queue) (room : queue.length < capacity) (data : α) :
    (ring.fetchAdd.2.fill ring.fetchAdd.1 data).Represents popped (queue ++ [data]) := by
  have cell : cellOf ring.head = (popped + queue.length) % capacity := by
    rw [rep.head, cellOf_mod]
  have stored : (ring.fetchAdd.2.fill ring.fetchAdd.1 data).buff =
      Function.update ring.buff ((popped + queue.length) % capacity)
        ⟨(popped + queue.length + 1) % word64, data⟩ := by
    funext place
    by_cases same : place = (popped + queue.length) % capacity
    · simp [MpscRing.fill, fetchAdd, storeEpoch, storeData, cellOf_mod, same, rep.head]
    · simp [MpscRing.fill, fetchAdd, storeEpoch, storeData, cell, same]
  have others : ∀ place, place < capacity → place ≠ queue.length →
      (ring.fetchAdd.2.fill ring.fetchAdd.1 data).buff ((popped + place) % capacity) =
        ring.buff ((popped + place) % capacity) := by
    intro place inside differs
    rw [stored]
    apply Function.update_of_ne
    exact cell_ne (Nat.le_add_right popped _) (by omega) (Nat.le_add_right popped _) (by omega)
      (by omega)
  refine ⟨?_, rep.tail, ?_, ?_, ?_⟩
  · show (ring.head + 1) % word64 = _
    rw [rep.head, Nat.mod_add_mod, List.length_append, List.length_singleton, Nat.add_assoc]
  · rw [List.length_append, List.length_singleton]
    exact room
  · intro place inside
    rw [List.length_append, List.length_singleton] at inside
    by_cases last : place = queue.length
    · subst last
      rw [stored, Function.update_self]
      simp
    · have before : place < queue.length := by omega
      rw [others place (by omega) last, List.getElem_append_left before]
      exact rep.filled place before
  · intro place after inside
    rw [List.length_append, List.length_singleton] at after
    rw [others place inside (by omega)]
    exact rep.vacant place (by omega) inside

theorem offer_room (rep : ring.Represents popped queue) (room : queue.length < capacity)
    (data : α) :
    (ring.offer data).1.Represents popped (queue ++ [data]) ∧ (ring.offer data).2 = true := by
  have vacant := rep.loadEpoch_eq.mpr room
  simp only [offer, vacant, ne_eq, not_true, if_false]
  exact ⟨rep.fill room data, trivial⟩

/-- A ring with a full queue only takes the ticket. -/
theorem offer_full (rep : ring.Represents popped queue) (full : queue.length = capacity)
    (data : α) : ring.offer data = (ring.fetchAdd.2, false) := by
  apply offer_occupied
  intro vacant
  have room := rep.loadEpoch_eq.mp vacant
  omega

/-- The next item is in the cell of the tail. -/
theorem loadEpoch_tail (rep : ring.Represents popped queue) :
    ring.loadEpoch ring.tail = (ring.tail + 1) % word64 ↔ queue ≠ [] := by
  have cell : cellOf ring.tail = popped % capacity := by rw [rep.tail, cellOf_mod]
  rw [loadEpoch, cell, rep.tail, Nat.mod_add_mod]
  cases queue with
  | nil =>
      have vacant := rep.vacant 0 (Nat.le_refl _) (by decide)
      rw [Nat.add_zero] at vacant
      rw [vacant]
      simp only [word64, ne_eq, not_true, iff_false]
      omega
  | cons first rest =>
      have filled := (rep.filled 0 (by simp)).1
      rw [Nat.add_zero] at filled
      simp [filled]

/-- What a pop leaves: the cell of the tail is vacant for the ticket 1024 further on. -/
theorem buff_pop (rep : ring.Represents popped queue) (leftover : α → α) (nonempty : queue ≠ []) :
    (ring.pop leftover).1.buff = Function.update ring.buff (popped % capacity)
      ⟨(popped + capacity) % word64, leftover (ring.buff (popped % capacity)).data⟩ := by
  have cell : cellOf ring.tail = popped % capacity := by rw [rep.tail, cellOf_mod]
  simp only [pop, rep.loadEpoch_tail.mpr nonempty, ne_eq, not_true, if_false]
  funext place
  by_cases same : place = popped % capacity
  · simp [advanceTail, storeEpoch, moveData, storeData, cellOf_mod, same, rep.tail]
  · simp [advanceTail, storeEpoch, moveData, storeData, cell, same]

theorem pop_empty (rep : ring.Represents popped []) (leftover : α → α) :
    ring.pop leftover = (ring, none) := by
  have vacant : ring.loadEpoch ring.tail ≠ (ring.tail + 1) % word64 := by
    intro filled
    exact rep.loadEpoch_tail.mp filled rfl
  simp only [pop, if_pos vacant]

theorem pop_cons {first : α} {rest : List α} (rep : ring.Represents popped (first :: rest))
    (leftover : α → α) :
    (ring.pop leftover).1.Represents (popped + 1) rest ∧
      (ring.pop leftover).2 = some first ∧ (ring.pop leftover).1.head = ring.head := by
  have nonempty : first :: rest ≠ [] := List.cons_ne_nil first rest
  have stored := rep.buff_pop leftover nonempty
  have lengthLe := rep.length_le
  rw [List.length_cons] at lengthLe
  have others : ∀ place, place + 1 < capacity →
      (ring.pop leftover).1.buff ((popped + 1 + place) % capacity) =
        ring.buff ((popped + (place + 1)) % capacity) := by
    intro place inside
    rw [stored, Nat.add_assoc, Nat.add_comm 1 place]
    apply Function.update_of_ne
    exact cell_ne (Nat.le_add_right popped _) (by omega) (Nat.le_refl popped) (by omega) (by omega)
  have front := (rep.filled 0 (by simp)).2
  rw [Nat.add_zero] at front
  have cell : cellOf ring.tail = popped % capacity := by rw [rep.tail, cellOf_mod]
  have taken := rep.loadEpoch_tail.mpr nonempty
  refine ⟨⟨?_, ?_, by omega, ?_, ?_⟩, ?_, ?_⟩
  · simp only [pop, taken, ne_eq, not_true, if_false]
    show ring.head = _
    rw [rep.head, List.length_cons]
    congr 1
    omega
  · simp only [pop, taken, ne_eq, not_true, if_false]
    show (ring.tail + 1) % word64 = _
    rw [rep.tail, Nat.mod_add_mod]
  · intro place inside
    have before := rep.filled (place + 1) (by rw [List.length_cons]; omega)
    rw [others place (by omega), before.1, before.2]
    refine ⟨?_, by simp⟩
    congr 1
    omega
  · intro place after inside
    by_cases last : place + 1 = capacity
    · have around : popped + 1 + place = popped + capacity := by omega
      rw [around, Nat.add_mod_right, stored, Function.update_self]
    · rw [others place (by omega), rep.vacant (place + 1) (by rw [List.length_cons]; omega)
        (by omega)]
      congr 1
      omega
  · simp only [pop, taken, ne_eq, not_true, if_false, moveData, cell]
    rw [front]
    rfl
  · simp only [pop, taken, ne_eq, not_true, if_false]
    rfl

end Represents

section Runs

variable {leftover : α → α}

/-- The ring behaves as the queue. -/
def Behaves (ring : MpscRing α) (queue : List α) : Prop := ∃ popped, ring.Represents popped queue

theorem behaves_offer {ring : MpscRing α} {queue : List α} (behaves : ring.Behaves queue)
    (room : queue.length < capacity) (data : α) :
    (ring.offer data).1.Behaves (queue ++ [data]) ∧ (ring.offer data).2 = true := by
  rcases behaves with ⟨popped, rep⟩
  have offered := rep.offer_room room data
  exact ⟨⟨popped, offered.1⟩, offered.2⟩

theorem behaves_pop {ring : MpscRing α} {queue : List α} (behaves : ring.Behaves queue)
    (leftover : α → α) :
    (ring.pop leftover).1.Behaves queue.tail ∧ (ring.pop leftover).2 = queue.head? := by
  rcases behaves with ⟨popped, rep⟩
  cases queue with
  | nil =>
      rw [rep.pop_empty leftover]
      exact ⟨⟨popped, rep⟩, rfl⟩
  | cons first rest =>
      have taken := rep.pop_cons leftover
      exact ⟨⟨popped + 1, taken.1⟩, taken.2.1⟩

/-- One operation, on both sides, when no `try_push` is made on a full queue. -/
theorem refines_queue (leftover : α → α) :
    Refinement.Refines (step leftover) queueStep (fun queue op => Legal queue op ∧ Spares queue op)
      Behaves where
  state := by
    intro ring queue op behaves legal
    cases op with
    | push data =>
        have room : queue.length < capacity := legal.1
        simp only [queueStep, if_pos room]
        exact (behaves_offer behaves room data).1
    | tryPush data =>
        have room : queue.length < capacity := legal.2
        simp only [queueStep, if_pos room]
        exact (behaves_offer behaves room data).1
    | pop => exact (behaves_pop behaves leftover).1
  answer := by
    intro ring queue op behaves legal
    cases op with
    | push data =>
        have room : queue.length < capacity := legal.1
        simp only [queueStep, if_pos room]
        exact congrArg Answer.pushed (behaves_offer behaves room data).2
    | tryPush data =>
        have room : queue.length < capacity := legal.2
        simp only [queueStep, if_pos room]
        exact congrArg Answer.pushed (behaves_offer behaves room data).2
    | pop => exact congrArg Answer.popped (behaves_pop behaves leftover).2

/-- After a `try_push` that failed, an item is popped and there is room again; but the next ticket
names a cell that is still occupied. -/
theorem answers_failed {ring : MpscRing α} {queue : List α} (behaves : ring.Behaves queue)
    (full : queue.length = capacity) (leftover : α → α) (refused next : α) :
    Refinement.answers (step leftover) ring [.tryPush refused, .pop, .tryPush next] =
      [.pushed false, .popped queue.head?, .pushed false] := by
  rcases behaves with ⟨popped, rep⟩
  have refusedEq := rep.offer_full full refused
  rcases queue with _ | ⟨first, _ | ⟨second, rest⟩⟩
  · cases full
  · cases full
  · -- The ring after the failure differs from the one before it in its head only.
    have taken := rep.pop_cons leftover
    have popEq : (ring.fetchAdd.2.pop leftover) =
        ({ (ring.pop leftover).1 with head := (ring.head + 1) % word64 },
          (ring.pop leftover).2) := by
      have filled := rep.loadEpoch_tail.mpr (List.cons_ne_nil _ _)
      have filledAfter : ring.fetchAdd.2.loadEpoch ring.fetchAdd.2.tail =
          (ring.fetchAdd.2.tail + 1) % word64 := filled
      simp only [pop, filled, filledAfter, ne_eq, not_true, if_false]
      rfl
    have occupied := (taken.1.filled 0 (by simp)).1
    have ticket : (ring.head + 1) % word64 = (popped + 1 + capacity) % word64 := by
      rw [rep.head, Nat.mod_add_mod, full, Nat.add_right_comm]
    have cell : cellOf ((ring.head + 1) % word64) = (popped + 1 + 0) % capacity := by
      rw [ticket, cellOf_mod, Nat.add_mod_right, Nat.add_zero]
    have stuck : (offer { (ring.pop leftover).1 with head := (ring.head + 1) % word64 } next).2 =
        false := by
      rw [offer_occupied]
      show ((ring.pop leftover).1.buff (cellOf ((ring.head + 1) % word64))).epoch ≠
        (ring.head + 1) % word64
      rw [cell, occupied, ticket]
      simp only [capacity, word64]
      omega
    simp only [Refinement.answers, Refinement.advance, step, tryPush, refusedEq, popEq, stuck,
      taken.2.1, List.head?_cons]

/-- While no `try_push` fails, the answers are those of the queue. -/
theorem run_queue [Inhabited α] (leftover : α → α) {ops : List (Op α)}
    (legal : Runs.Meets (Refinement.advance queueStep) Legal [] ops)
    (spares : Runs.Meets (Refinement.advance queueStep) Spares [] ops) :
    Refinement.answers (step leftover) new ops = Refinement.answers queueStep [] ops ∧
      Behaves (Refinement.final (step leftover) new ops) (Refinement.final queueStep [] ops) := by
  have init : Behaves (new : MpscRing α) [] := ⟨0, Represents.new⟩
  have meets := legal.and spares
  exact ⟨(refines_queue leftover).answers_eq init meets,
    (refines_queue leftover).final_related init meets⟩

theorem queue_of_pushes (queue items : List α) (room : queue.length + items.length ≤ capacity) :
    Refinement.final queueStep queue (items.map .push) = queue ++ items ∧
      Runs.Meets (Refinement.advance queueStep) Legal queue (items.map .push) ∧
      Runs.Meets (Refinement.advance queueStep) Spares queue (items.map .push) := by
  induction items generalizing queue with
  | nil => exact ⟨by simp [Refinement.final], trivial, trivial⟩
  | cons item rest ih =>
      rw [List.length_cons] at room
      have fits : queue.length < capacity := by omega
      have pushed : Refinement.advance queueStep queue (.push item) = queue ++ [item] := by
        simp [Refinement.advance, queueStep, fits]
      rcases ih (queue ++ [item]) (by rw [List.length_append, List.length_singleton]; omega) with
        ⟨finalEq, legal, spares⟩
      refine ⟨?_, ⟨fits, ?_⟩, ⟨trivial, ?_⟩⟩
      · rw [List.map_cons, Refinement.final, List.foldl_cons, pushed]
        exact finalEq.trans (by simp)
      · rw [pushed]
        exact legal
      · rw [pushed]
        exact spares

/-- The two answer differently to the second `try_push` once the first has failed. -/
theorem answers_ne {ring : MpscRing α} {queue : List α} (behaves : ring.Behaves queue)
    (full : queue.length = capacity) (leftover : α → α) (refused next : α) :
    Refinement.answers (step leftover) ring [.tryPush refused, .pop, .tryPush next] ≠
      Refinement.answers queueStep queue [.tryPush refused, .pop, .tryPush next] := by
  have noRoom : ¬queue.length < capacity := by omega
  have roomAgain : queue.length - 1 < capacity := by
    rw [full]
    decide
  rw [answers_failed behaves full]
  simp [Refinement.answers, Refinement.advance, queueStep, noRoom, roomAgain]

/-- After each beginning of a run the ring goes on as the queue does, as long as no `try_push` fails
from then on, exactly when no `try_push` of the run is made while the queue is full. -/
theorem run_queue_iff [Inhabited α] (leftover : α → α) (ops : List (Op α))
    (legal : Runs.Meets (Refinement.advance queueStep) Legal [] ops) :
    (∀ earlier later, earlier <+: ops →
        Runs.Meets (Refinement.advance queueStep) Legal (Refinement.final queueStep [] earlier)
          later →
        Runs.Meets (Refinement.advance queueStep) Spares (Refinement.final queueStep [] earlier)
          later →
        Refinement.answers (step leftover) new (earlier ++ later) =
          Refinement.answers queueStep [] (earlier ++ later)) ↔
      Runs.Meets (Refinement.advance queueStep) Spares [] ops := by
  constructor
  · intro unchanged
    by_contra fails
    rcases Runs.exists_of_not_meets fails with ⟨earlier, op, rest, split, spares, breaks⟩
    rw [split, Runs.meets_append] at legal
    rcases run_queue leftover legal.1 spares with ⟨same, behaves⟩
    cases op with
    | push data => exact breaks trivial
    | pop => exact breaks trivial
    | tryPush refused =>
        have notLess : ¬(Refinement.final queueStep [] earlier).length < capacity := breaks
        have full : (Refinement.final queueStep [] earlier).length = capacity := by
          rcases behaves with ⟨popped, rep⟩
          have := rep.length_le
          omega
        have stays : Refinement.final queueStep [] (earlier ++ [.tryPush refused]) =
            Refinement.final queueStep [] earlier := by
          rw [Refinement.final, List.foldl_concat]
          show (queueStep (Refinement.final queueStep [] earlier) (.tryPush refused)).1 = _
          simp only [queueStep, if_neg notLess]
        have roomAgain : (Refinement.final queueStep [] earlier).tail.length < capacity := by
          rw [List.length_tail, full]
          decide
        have later := unchanged (earlier ++ [.tryPush refused]) [.pop, .tryPush refused]
          (by rw [split]; exact ⟨rest, by simp⟩) ⟨trivial, trivial, trivial⟩
          (by rw [stays]; exact ⟨trivial, roomAgain, trivial⟩)
        rw [List.append_assoc, List.singleton_append, Refinement.answers_append,
          Refinement.answers_append, same] at later
        exact answers_ne behaves full leftover refused refused (List.append_cancel_left later)
  · rintro spares earlier later ⟨rest, split⟩ legalLater sparesLater
    rw [← split, Runs.meets_append] at legal spares
    exact (run_queue leftover (Runs.meets_append.mpr ⟨legal.1, legalLater⟩)
      (Runs.meets_append.mpr ⟨spares.1, sparesLater⟩)).1

theorem run_queue_emptied :
    Refinement.answers (step id) (new : MpscRing ℕ) [.tryPush 1, .pop, .pop, .push 2, .pop] =
      [.pushed true, .popped (some 1), .popped none, .pushed true, .popped (some 2)] :=
  (run_queue_iff id [.tryPush 1, .pop, .pop, .push 2, .pop]
    ⟨trivial, trivial, trivial, show 0 < capacity by decide, trivial, trivial⟩).mpr
    ⟨show 0 < capacity by decide, trivial, trivial, trivial, trivial, trivial⟩
    [.tryPush 1, .pop, .pop, .push 2, .pop] [] (List.prefix_refl _) trivial trivial

/-- Once a ring has been filled and has refused an item, it refuses the next one although there is
room again. -/
theorem answers_refused [Inhabited α] {items : List α} (full : items.length = capacity)
    (leftover : α → α) (refused next : α) :
    Runs.Meets (Refinement.advance queueStep) Legal []
        (items.map .push ++ [.tryPush refused, .pop, .tryPush next]) ∧
      Refinement.answers (step leftover) new
          (items.map .push ++ [.tryPush refused, .pop, .tryPush next]) ≠
        Refinement.answers queueStep []
          (items.map .push ++ [.tryPush refused, .pop, .tryPush next]) := by
  rcases queue_of_pushes [] items (by simp [full]) with ⟨finalEq, legal, spares⟩
  rcases run_queue leftover legal spares with ⟨same, behaves⟩
  rw [List.nil_append] at finalEq
  refine ⟨Runs.meets_append.mpr ⟨legal, trivial, trivial, trivial, trivial⟩, ?_⟩
  intro agree
  rw [Refinement.answers_append, Refinement.answers_append, same] at agree
  apply answers_ne behaves _ leftover refused next (List.append_cancel_left agree)
  rw [finalEq]
  exact full

/-- The numbers below 1024 are pushed, 1024 is refused, 0 is popped and 1025 is offered. -/
theorem answers_refused_range :
    Runs.Meets (Refinement.advance queueStep) Legal []
        ((List.range capacity).map .push ++ [.tryPush 1024, .pop, .tryPush 1025]) ∧
      Refinement.answers (step id) new
          ((List.range capacity).map .push ++ [.tryPush 1024, .pop, .tryPush 1025]) ≠
        Refinement.answers queueStep []
          ((List.range capacity).map .push ++ [.tryPush 1024, .pop, .tryPush 1025]) :=
  answers_refused List.length_range id 1024 1025

end Runs

end MpscRing

end FixEngine
