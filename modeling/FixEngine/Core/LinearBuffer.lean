import FixEngine.Lib.Bytes
import Mathlib.Algebra.GroupWithZero.Nat

/-!
# The linear buffer

`LinearBuffer<T>` of `core/LinearBuffer.hpp`: a growing allocation whose live part is
`[head, tail)`, and the absolute position `baseAbs` of its cell 0 in the stream of everything
ever pushed. Positions are 64-bit in the source and natural numbers here; `NoWrap` says when
that makes no difference.

`Represents` is the refinement: the buffer stands for a stream of which a prefix has been
discarded, and absolute positions mean the same before and after compaction and growth.
-/

namespace FixEngine

/-- `LinearBuffer<T>`. -/
structure LinearBuffer (α : Type) where
  capacity : ℕ
  /-- The written cells of the allocation, `data_[0]` to `data_[tail - 1]`. -/
  data : List α
  head : ℕ
  tail : ℕ
  baseAbs : ℕ

namespace LinearBuffer

variable {α : Type}

/-- `Start_Capacity`. -/
def startCapacity : ℕ := 64 * 1024

/-- `Min_Grow`. -/
def minGrow : ℕ := 16 * 1024

/-- The default constructor. -/
def new : LinearBuffer α where
  capacity := startCapacity
  data := []
  head := 0
  tail := 0
  baseAbs := 0

/-- `readable_size()`. -/
def readableSize (buffer : LinearBuffer α) : ℕ := buffer.tail - buffer.head

/-- `readable()`, the cells from `head` to `tail`. -/
def readable (buffer : LinearBuffer α) : List α :=
  (buffer.data.drop buffer.head).take (buffer.tail - buffer.head)

/-- `local_to_abs`. -/
def localToAbs (buffer : LinearBuffer α) (position : ℕ) : ℕ := buffer.baseAbs + position

/-- `abs_to_local`, whose assertion `Represents` discharges. -/
def absToLocal (buffer : LinearBuffer α) (position : ℕ) : ℕ := position - buffer.baseAbs

/-- `readable_rel_to_abs`. -/
def readableRelToAbs (buffer : LinearBuffer α) (rel : ℕ) : ℕ :=
  buffer.localToAbs (buffer.head + rel)

/-- `abs_to_readable_rel`. -/
def absToReadableRel (buffer : LinearBuffer α) (position : ℕ) : ℕ :=
  buffer.absToLocal position - buffer.head

/-- Move the live cells to the front of the allocation. -/
def compact (buffer : LinearBuffer α) : LinearBuffer α :=
  let live := buffer.tail - buffer.head
  if live = 0 then { buffer with baseAbs := buffer.baseAbs + buffer.head, head := 0, tail := 0 }
  else
    { buffer with
      data := memcpy buffer.data 0 ((buffer.data.drop buffer.head).take live)
      baseAbs := buffer.baseAbs + buffer.head
      head := 0
      tail := live }

/-- `grow`: a larger allocation that starts with the live cells. -/
def grow (buffer : LinearBuffer α) (n : ℕ) : LinearBuffer α :=
  let live := buffer.tail - buffer.head
  let required := live + n
  let increase := max n minGrow
  let newCapacity := buffer.capacity + increase
  { capacity := if newCapacity < required then required else newCapacity
    data := (buffer.data.drop buffer.head).take live
    baseAbs := buffer.baseAbs + buffer.head
    head := 0
    tail := live }

/-- `ensure_writable`: room for `n` cells after `tail`, by compaction where that is enough. -/
def ensureWritable (buffer : LinearBuffer α) (n : ℕ) : LinearBuffer α :=
  if buffer.tail + n ≤ buffer.capacity then buffer
  else if 0 < buffer.head ∧ (buffer.tail - buffer.head) + n ≤ buffer.capacity then buffer.compact
  else buffer.grow n

/-- `push`. -/
def push (buffer : LinearBuffer α) (items : List α) : LinearBuffer α :=
  let writable := buffer.ensureWritable items.length
  { writable with
    data := memcpy writable.data writable.tail items
    tail := writable.tail + items.length }

/-- Discard from the front; the emptied buffer starts over, and one with much slack compacts. -/
def discardPrefix (buffer : LinearBuffer α) (count : ℕ) : LinearBuffer α :=
  let head := buffer.head + count
  if head = buffer.tail then
    { buffer with baseAbs := buffer.baseAbs + head, head := 0, tail := 0 }
  else if buffer.capacity / 2 ≤ head then { buffer with head := head }.compact
  else { buffer with head := head }

/-- `reset`, which keeps the allocation. -/
def reset (buffer : LinearBuffer α) : LinearBuffer α :=
  { buffer with baseAbs := 0, head := 0, tail := 0 }

/-- `Represents buffer stream discarded`: the buffer holds what is left of `stream` after its
first `discarded` items were thrown away, at the absolute positions they have in `stream`. -/
structure Represents (buffer : LinearBuffer α) (stream : List α) (discarded : ℕ) : Prop where
  head_le_tail : buffer.head ≤ buffer.tail
  tail_le_capacity : buffer.tail ≤ buffer.capacity
  tail_le_data : buffer.tail ≤ buffer.data.length
  discarded_le : discarded ≤ stream.length
  base : buffer.baseAbs + buffer.head = discarded
  readable_eq : buffer.readable = stream.drop discarded

/-- Every number of the buffer, and every sum that led to one, is below 2^64, so the 64-bit
arithmetic of the source gives the same. -/
structure NoWrap (buffer : LinearBuffer α) : Prop where
  capacity_lt : buffer.capacity < 2 ^ 64
  stop_lt : buffer.baseAbs + buffer.tail < 2 ^ 64
  head_le : buffer.head ≤ buffer.tail

@[simp]
theorem capacity_compact (buffer : LinearBuffer α) : buffer.compact.capacity = buffer.capacity := by
  simp only [compact]
  split <;> rfl

@[simp]
theorem capacity_discardPrefix (buffer : LinearBuffer α) (count : ℕ) :
    (buffer.discardPrefix count).capacity = buffer.capacity := by
  simp only [discardPrefix]
  split
  · rfl
  · split
    · exact capacity_compact _
    · rfl

namespace Represents

variable {buffer : LinearBuffer α} {stream : List α} {discarded : ℕ}

theorem new : (LinearBuffer.new : LinearBuffer α).Represents [] 0 := by
  constructor <;> simp [LinearBuffer.new, readable]

theorem length_readable (rep : buffer.Represents stream discarded) :
    buffer.readable.length = buffer.tail - buffer.head := by
  have := rep.tail_le_data
  simp only [readable, List.length_take, List.length_drop]
  omega

theorem length_readable_eq (rep : buffer.Represents stream discarded) :
    buffer.readable.length = stream.length - discarded := by
  rw [rep.readable_eq, List.length_drop]

/-- Absolute positions that are not discarded lie at their distance from the discarded part. -/
theorem absToReadableRel_eq (rep : buffer.Represents stream discarded) (position : ℕ) :
    buffer.absToReadableRel position = position - discarded := by
  have := rep.base
  simp only [absToReadableRel, absToLocal]
  omega

theorem readableRelToAbs_eq (rep : buffer.Represents stream discarded) (rel : ℕ) :
    buffer.readableRelToAbs rel = discarded + rel := by
  have := rep.base
  simp only [readableRelToAbs, localToAbs]
  omega

/-- The live part ends where the stream does. -/
theorem baseAbs_add_tail (rep : buffer.Represents stream discarded) :
    buffer.baseAbs + buffer.tail = stream.length := by
  have base := rep.base
  have headLe := rep.head_le_tail
  have discardedLe := rep.discarded_le
  have lenReadable := rep.length_readable
  have lenStream := rep.length_readable_eq
  omega

theorem noWrap (rep : buffer.Represents stream discarded)
    (allocated : buffer.capacity ≤ startCapacity + 2 * stream.length)
    (short : stream.length < 2 ^ 62) : buffer.NoWrap := by
  have stop := rep.baseAbs_add_tail
  have start : startCapacity < 2 ^ 62 := by decide
  exact ⟨by omega, by omega, rep.head_le_tail⟩

theorem compact (rep : buffer.Represents stream discarded) :
    buffer.compact.Represents stream discarded := by
  have lenReadable := rep.length_readable
  have headLe := rep.head_le_tail
  have tailLe := rep.tail_le_data
  have capacityLe := rep.tail_le_capacity
  have base := rep.base
  have readableEq := rep.readable_eq
  by_cases live : buffer.tail - buffer.head = 0
  · have empty : stream.drop discarded = [] := by
      rw [← readableEq]
      exact List.eq_nil_of_length_eq_zero (by omega)
    have unfolded : buffer.compact =
        { buffer with baseAbs := buffer.baseAbs + buffer.head, head := 0, tail := 0 } := by
      simp [LinearBuffer.compact, live]
    rw [unfolded]
    exact ⟨Nat.le_refl 0, Nat.zero_le _, Nat.zero_le _, rep.discarded_le, base, by
      simp [readable, empty]⟩
  · have unfolded : buffer.compact =
        { buffer with
          data := memcpy buffer.data 0 buffer.readable
          baseAbs := buffer.baseAbs + buffer.head
          head := 0
          tail := buffer.tail - buffer.head } := by
      simp [LinearBuffer.compact, live, readable]
    have prefixEq : (memcpy buffer.data 0 buffer.readable).take (buffer.tail - buffer.head) =
        buffer.readable := by
      have := take_memcpy buffer.readable (Nat.zero_le buffer.data.length)
      simpa [lenReadable] using this
    have len : (memcpy buffer.data 0 buffer.readable).length =
        max buffer.data.length (buffer.tail - buffer.head) := by
      simpa [lenReadable] using
        length_memcpy buffer.readable (Nat.zero_le buffer.data.length)
    rw [unfolded]
    refine ⟨Nat.zero_le _, ?_, ?_, rep.discarded_le, base, ?_⟩
    · show buffer.tail - buffer.head ≤ buffer.capacity
      omega
    · show buffer.tail - buffer.head ≤ (memcpy buffer.data 0 buffer.readable).length
      omega
    · rw [← readableEq]
      exact prefixEq

theorem grow (rep : buffer.Represents stream discarded) (n : ℕ) :
    (buffer.grow n).Represents stream discarded := by
  have lenReadable := rep.length_readable
  have headLe := rep.head_le_tail
  have capacityLe := rep.tail_le_capacity
  refine ⟨Nat.zero_le _, ?_, ?_, rep.discarded_le, rep.base, ?_⟩
  · simp only [LinearBuffer.grow]
    split <;> omega
  · show buffer.tail - buffer.head ≤ buffer.readable.length
    omega
  · rw [← rep.readable_eq]
    simp [LinearBuffer.grow, readable, List.take_take]

theorem ensureWritable (rep : buffer.Represents stream discarded) (n : ℕ) :
    (buffer.ensureWritable n).Represents stream discarded := by
  simp only [LinearBuffer.ensureWritable]
  split
  · exact rep
  · split
    · exact rep.compact
    · exact rep.grow n

/-- After `ensureWritable` the copy of `push` stays inside the allocation. -/
theorem tail_add_le_capacity (rep : buffer.Represents stream discarded) (n : ℕ) :
    (buffer.ensureWritable n).tail + n ≤ (buffer.ensureWritable n).capacity := by
  have headLe := rep.head_le_tail
  simp only [LinearBuffer.ensureWritable]
  split
  · assumption
  · split
    · next fits =>
        simp only [LinearBuffer.compact]
        split <;> simp only <;> omega
    · simp only [LinearBuffer.grow]
      split <;> omega

theorem push (rep : buffer.Represents stream discarded) (items : List α) :
    (buffer.push items).Represents (stream ++ items) discarded := by
  have writable := rep.ensureWritable items.length
  have fits := rep.tail_add_le_capacity items.length
  have headLe := writable.head_le_tail
  have tailLe := writable.tail_le_data
  have lenCopy := length_memcpy items tailLe
  have takeCopy := take_memcpy items tailLe
  refine ⟨Nat.le_add_right_of_le headLe, fits, ?_, ?_, writable.base, ?_⟩
  · show (buffer.ensureWritable items.length).tail + items.length ≤
      (memcpy (buffer.ensureWritable items.length).data _ items).length
    omega
  · simpa using Nat.le_add_right_of_le rep.discarded_le
  · rw [List.drop_append_of_le_length rep.discarded_le, ← writable.readable_eq]
    simp only [readable, LinearBuffer.push]
    rw [← List.drop_take, takeCopy, List.drop_append_of_le_length (by simp; omega),
      List.drop_take]

/-- The buffer only grows when what is live and what is added do not fit, so it stays within
twice the stream. -/
theorem capacity_push_le (rep : buffer.Represents stream discarded) (items : List α)
    (allocated : buffer.capacity ≤ startCapacity + 2 * stream.length) :
    (buffer.push items).capacity ≤ startCapacity + 2 * (stream ++ items).length := by
  have start : minGrow ≤ startCapacity := by decide
  have stop := rep.baseAbs_add_tail
  have more : (stream ++ items).length = stream.length + items.length := List.length_append
  show (buffer.ensureWritable items.length).capacity ≤ _
  simp only [LinearBuffer.ensureWritable]
  split
  · omega
  split
  · rw [capacity_compact]
    omega
  · next full notEnough =>
      simp only [LinearBuffer.grow]
      split <;> omega

theorem discardPrefix (rep : buffer.Represents stream discarded) (count : ℕ)
    (le : count ≤ stream.length - discarded) :
    (buffer.discardPrefix count).Represents stream (discarded + count) := by
  have lenReadable := rep.length_readable
  have lenStream := rep.length_readable_eq
  have headLe := rep.head_le_tail
  have discardedLe := rep.discarded_le
  have base := rep.base
  have tailLe := rep.tail_le_data
  have capacityLe := rep.tail_le_capacity
  have moved : ({ buffer with head := buffer.head + count } : LinearBuffer α).Represents stream
      (discarded + count) := by
    refine ⟨?_, capacityLe, tailLe, by omega, ?_, ?_⟩
    · show buffer.head + count ≤ buffer.tail
      omega
    · show buffer.baseAbs + (buffer.head + count) = discarded + count
      omega
    · rw [← List.drop_drop, ← rep.readable_eq]
      simp only [readable, List.drop_take, List.drop_drop]
      congr 1
      omega
  simp only [LinearBuffer.discardPrefix]
  split
  · next emptied =>
      have empty : stream.drop (discarded + count) = [] := by
        apply List.drop_eq_nil_of_le
        omega
      refine ⟨Nat.le_refl 0, Nat.zero_le _, Nat.zero_le _, by omega, ?_, ?_⟩
      · show buffer.baseAbs + (buffer.head + count) + 0 = discarded + count
        omega
      · simp [readable, empty]
  · split
    · exact moved.compact
    · exact moved

end Represents

end LinearBuffer

end FixEngine
