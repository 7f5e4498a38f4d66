import FixEngine.Core.Store

/-!
# The log ring

`MpscRing<Data>` of `log/MpscRing.hpp`: a ring of 1024 cells for many producers and one consumer.
A producer takes a ticket, which names a cell, and may fill that cell when its epoch is the ticket;
an epoch one above the ticket says that the cell is filled. The accesses to shared memory are
definitions of their own, and the operations are put together from them.

Moving an item out of a cell leaves a value there that the source does not look at again;
`leftover` says which.
-/

namespace FixEngine

/-- `RingCell<Data>`. -/
structure RingCell (α : Type) where
  epoch : ℕ
  data : α

/-- `MpscRing<Data>`, with `head_` and `tail_` as 64-bit counters. -/
structure MpscRing (α : Type) where
  buff : ℕ → RingCell α
  head : ℕ
  tail : ℕ

namespace MpscRing

variable {α : Type}

/-- `capacity`. -/
def capacity : ℕ := 2 ^ 10

/-- `mask`. -/
def mask : ℕ := capacity - 1

/-- `ticket & mask`. -/
def cellOf (ticket : ℕ) : ℕ := ticket &&& mask

/-- The constructor: cell `i` waits for ticket `i`. -/
def new [Inhabited α] : MpscRing α := ⟨fun i => ⟨i, default⟩, 0, 0⟩

section Accesses

variable (ring : MpscRing α)

/-- `head_.fetch_add(1)`: the ticket, and the ring after it was taken. -/
def fetchAdd : ℕ × MpscRing α := (ring.head, { ring with head := (ring.head + 1) % word64 })

/-- The load of the epoch of a ticket's cell. -/
def loadEpoch (ticket : ℕ) : ℕ := (ring.buff (cellOf ticket)).epoch

/-- The store of a 64-bit epoch in a ticket's cell. -/
def storeEpoch (ticket epoch : ℕ) : MpscRing α :=
  { ring with
    buff := Function.update ring.buff (cellOf ticket)
      { ring.buff (cellOf ticket) with epoch := epoch % word64 } }

/-- The move of an entry into a ticket's cell. -/
def storeData (ticket : ℕ) (data : α) : MpscRing α :=
  { ring with
    buff := Function.update ring.buff (cellOf ticket)
      { ring.buff (cellOf ticket) with data := data } }

/-- `std::move(cell.data)`. -/
def moveData (leftover : α → α) (ticket : ℕ) : α × MpscRing α :=
  ((ring.buff (cellOf ticket)).data,
    ring.storeData ticket (leftover (ring.buff (cellOf ticket)).data))

/-- `tail_++`. -/
def advanceTail : MpscRing α := { ring with tail := (ring.tail + 1) % word64 }

end Accesses

section Operations

variable (ring : MpscRing α)

/-- Write the item into the cell of the ticket and publish it. -/
def fill (ticket : ℕ) (data : α) : MpscRing α :=
  (ring.storeData ticket data).storeEpoch ticket (ticket + 1)

/-- Take a ticket and fill its cell if the cell is vacant. -/
def offer (data : α) : MpscRing α × Bool :=
  let (ticket, taken) := ring.fetchAdd
  if ticket ≠ taken.loadEpoch ticket then (taken, false) else (taken.fill ticket data, true)

/-- `try_push`, which uses up a ticket also where it fails. -/
def tryPush (data : α) : MpscRing α × Bool := ring.offer data

/-- When nobody else is at work the wait loop of `push` is left at once or, where the answer is
`false`, never. -/
def push (data : α) : MpscRing α × Bool := ring.offer data

/-- `pop`; the cell keeps what the move leaves in it. -/
def pop (leftover : α → α) : MpscRing α × Option α :=
  if ring.loadEpoch ring.tail ≠ (ring.tail + 1) % word64 then (ring, none)
  else
    let (out, moved) := ring.moveData leftover ring.tail
    ((moved.storeEpoch ring.tail (ring.tail + capacity)).advanceTail, some out)

end Operations

section Cells

/-- The mask takes the remainder. -/
theorem cellOf_eq (n : ℕ) : cellOf n = n % capacity := by
  rw [cellOf, mask, capacity, Nat.and_two_pow_sub_one_eq_mod]

/-- Also of a ticket that has wrapped. -/
theorem cellOf_mod (n : ℕ) : cellOf (n % word64) = n % capacity := by
  rw [cellOf_eq]
  exact Nat.mod_mod_of_dvd n (by decide)

/-- Tickets of one round have different cells. -/
theorem cell_ne {first n m : ℕ} (low : first ≤ n) (high : n < first + capacity) (lowM : first ≤ m)
    (highM : m < first + capacity) (differs : n ≠ m) : n % capacity ≠ m % capacity := by
  simp only [capacity] at *
  omega

end Cells

end MpscRing

end FixEngine
