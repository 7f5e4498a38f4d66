import FixEngine.Core.LinearBuffer
import FixEngine.Lib.Runs
import Mathlib.Algebra.BigOperators.Group.List.Basic
import Mathlib.Algebra.GroupWithZero.Nat

/-!
# The linear buffer is a stream with absolute addresses

A buffer that is pushed to, discarded from and compacted in any order holds what is left of the
concatenation of everything pushed, at the positions it has there. Each copy an operation makes,
whichever of its branches it takes, stays inside the allocations it reads and writes.
-/

namespace FixEngine

namespace LinearBuffer

variable {α : Type}

/-- The operations of a user of the buffer. -/
inductive Op (α : Type)
  | push (items : List α)
  | discardPrefix (count : ℕ)
  | compact
  deriving DecidableEq, Repr

/-- What an operation adds to the stream. -/
def Op.items : Op α → List α
  | .push items => items
  | .discardPrefix _ => []
  | .compact => []

/-- How much of the stream an operation discards. -/
def Op.count : Op α → ℕ
  | .push _ => 0
  | .discardPrefix count => count
  | .compact => 0

/-- The buffer after an operation. -/
def apply (buffer : LinearBuffer α) : Op α → LinearBuffer α
  | .push items => buffer.push items
  | .discardPrefix count => buffer.discardPrefix count
  | .compact => buffer.compact

/-- The assertion of `discard_prefix`. -/
def Legal (buffer : LinearBuffer α) (op : Op α) : Prop := op.count ≤ buffer.readableSize

instance (buffer : LinearBuffer α) (op : Op α) : Decidable (buffer.Legal op) :=
  inferInstanceAs (Decidable (op.count ≤ buffer.readableSize))

/-- The `memmove` of `compact`. -/
def compactCopies (buffer : LinearBuffer α) : List Copy :=
  let live := buffer.tail - buffer.head
  if live = 0 then [] else [⟨buffer.head, buffer.capacity, 0, buffer.capacity, live⟩]

/-- The `memcpy` of `grow`, into the new allocation. -/
def growCopies (buffer : LinearBuffer α) (n : ℕ) : List Copy :=
  let live := buffer.tail - buffer.head
  if 0 < live then [⟨buffer.head, buffer.capacity, 0, (buffer.grow n).capacity, live⟩] else []

/-- The copy of `ensure_writable`, in whichever of its branches. -/
def ensureWritableCopies (buffer : LinearBuffer α) (n : ℕ) : List Copy :=
  if buffer.tail + n ≤ buffer.capacity then []
  else if 0 < buffer.head ∧ (buffer.tail - buffer.head) + n ≤ buffer.capacity then
    buffer.compactCopies
  else buffer.growCopies n

/-- The copies an operation makes, in order. -/
def copies (buffer : LinearBuffer α) : Op α → List Copy
  | .push items =>
      let writable := buffer.ensureWritable items.length
      buffer.ensureWritableCopies items.length ++
        [⟨0, items.length, writable.tail, writable.capacity, items.length⟩]
  | .discardPrefix count =>
      let head := buffer.head + count
      if head = buffer.tail then []
      else if buffer.capacity / 2 ≤ head then { buffer with head := head }.compactCopies
      else []
  | .compact => buffer.compactCopies

namespace Represents

variable {buffer : LinearBuffer α} {stream : List α} {discarded : ℕ}

theorem readableSize_eq (rep : buffer.Represents stream discarded) :
    buffer.readableSize = stream.length - discarded := by
  rw [readableSize, ← rep.length_readable, rep.length_readable_eq]

theorem apply {op : Op α} (rep : buffer.Represents stream discarded) (legal : buffer.Legal op) :
    (buffer.apply op).Represents (stream ++ op.items) (discarded + op.count) := by
  cases op with
  | push items => exact rep.push items
  | discardPrefix count =>
      have inside : count ≤ stream.length - discarded := by
        rw [← rep.readableSize_eq]
        exact legal
      simpa [LinearBuffer.apply, Op.items, Op.count] using rep.discardPrefix count inside
  | compact => simpa [LinearBuffer.apply, Op.items, Op.count] using rep.compact

theorem run {ops : List (Op α)} (rep : buffer.Represents stream discarded)
    (meets : Runs.Meets LinearBuffer.apply Legal buffer ops) :
    (ops.foldl LinearBuffer.apply buffer).Represents (stream ++ ops.flatMap Op.items)
      (discarded + (ops.map Op.count).sum) := by
  induction ops generalizing buffer stream discarded with
  | nil => simpa using rep
  | cons op rest ih =>
      rcases meets with ⟨legal, remaining⟩
      have stepped := ih (rep.apply legal) remaining
      simpa [List.append_assoc, Nat.add_assoc] using stepped

theorem compactCopies_inBounds (buffer : LinearBuffer α) {copy : Copy}
    (headLe : buffer.head ≤ buffer.tail) (capacityLe : buffer.tail ≤ buffer.capacity)
    (mem : copy ∈ buffer.compactCopies) : copy.InBounds := by
  simp only [compactCopies] at mem
  split at mem
  · simp at mem
  · rw [List.mem_singleton] at mem
    subst mem
    constructor <;> dsimp only <;> omega

theorem growCopies_inBounds {copy : Copy} {n : ℕ} (rep : buffer.Represents stream discarded)
    (mem : copy ∈ buffer.growCopies n) : copy.InBounds := by
  have headLe := rep.head_le_tail
  have capacityLe := rep.tail_le_capacity
  have grown := (rep.grow n).tail_le_capacity
  simp only [growCopies] at mem
  split at mem
  · rw [List.mem_singleton] at mem
    subst mem
    constructor
    · dsimp only
      omega
    · show 0 + (buffer.tail - buffer.head) ≤ (buffer.grow n).capacity
      rw [Nat.zero_add]
      exact grown
  · simp at mem

/-- No copy of a legal operation leaves its allocations. -/
theorem copies_inBounds {op : Op α} {copy : Copy} (rep : buffer.Represents stream discarded)
    (legal : buffer.Legal op) (mem : copy ∈ buffer.copies op) : copy.InBounds := by
  have headLe := rep.head_le_tail
  have capacityLe := rep.tail_le_capacity
  cases op with
  | push items =>
      simp only [copies, List.mem_append, List.mem_singleton] at mem
      rcases mem with room | item
      · simp only [ensureWritableCopies] at room
        split at room
        · simp at room
        · split at room
          · exact compactCopies_inBounds buffer headLe capacityLe room
          · exact rep.growCopies_inBounds room
      · subst item
        exact ⟨Nat.le_of_eq (Nat.zero_add _), rep.tail_add_le_capacity items.length⟩
  | discardPrefix count =>
      have inside : count ≤ buffer.tail - buffer.head := legal
      simp only [copies] at mem
      split at mem
      · simp at mem
      · split at mem
        · have moved : buffer.head + count ≤ buffer.tail := by omega
          exact compactCopies_inBounds { buffer with head := buffer.head + count } moved capacityLe mem
        · simp at mem
  | compact => exact compactCopies_inBounds buffer headLe capacityLe mem

end Represents

/-- `Addressed buffer stream discarded`: the buffer shows the stream from `discarded` on, and
translates between the positions of the stream and those of what it shows. -/
structure Addressed (buffer : LinearBuffer α) (stream : List α) (discarded : ℕ) : Prop where
  readable_eq : buffer.readable = stream.drop discarded
  base_eq : buffer.baseAbs + buffer.head = discarded
  /-- The assertions of `abs_to_local` and `abs_to_readable_rel` are the first two parts. -/
  to_rel : ∀ position, discarded ≤ position → position ≤ stream.length →
    buffer.baseAbs ≤ position ∧ buffer.head ≤ buffer.absToLocal position ∧
      buffer.absToReadableRel position = position - discarded
  to_abs : ∀ position, discarded ≤ position → position ≤ stream.length →
    buffer.readableRelToAbs (buffer.absToReadableRel position) = position
  head_le_tail : buffer.head ≤ buffer.tail
  tail_le_capacity : buffer.tail ≤ buffer.capacity
  copies_inBounds : ∀ op, buffer.Legal op → ∀ copy ∈ buffer.copies op, copy.InBounds

theorem Represents.addressed {buffer : LinearBuffer α} {stream : List α} {discarded : ℕ}
    (rep : buffer.Represents stream discarded) : buffer.Addressed stream discarded where
  readable_eq := rep.readable_eq
  base_eq := rep.base
  to_rel := by
    intro position after _
    have base := rep.base
    refine ⟨by omega, ?_, rep.absToReadableRel_eq position⟩
    rw [absToLocal]
    omega
  to_abs := by
    intro position after _
    rw [rep.absToReadableRel_eq, rep.readableRelToAbs_eq]
    omega
  head_le_tail := rep.head_le_tail
  tail_le_capacity := rep.tail_le_capacity
  copies_inBounds := fun _ legal _ mem => rep.copies_inBounds legal mem

/-- Every run on a fresh buffer keeps the addresses of the stream it was pushed. -/
theorem run_addressed (ops : List (Op α)) (legal : Runs.Meets apply Legal new ops) :
    (ops.foldl apply new).Addressed (ops.flatMap Op.items) (ops.map Op.count).sum := by
  have rep := Represents.new.run legal
  rw [List.nil_append, Nat.zero_add] at rep
  exact rep.addressed

theorem capacity_apply_le {buffer : LinearBuffer α} {stream : List α} {discarded : ℕ}
    (rep : buffer.Represents stream discarded)
    (allocated : buffer.capacity ≤ startCapacity + 2 * stream.length) (op : Op α) :
    (buffer.apply op).capacity ≤ startCapacity + 2 * (stream ++ op.items).length := by
  cases op with
  | push items => exact rep.capacity_push_le items allocated
  | discardPrefix count => simpa [apply, Op.items] using allocated
  | compact => simpa [apply, Op.items] using allocated

theorem capacity_run_le {buffer : LinearBuffer α} {stream : List α} {discarded : ℕ}
    {ops : List (Op α)} (rep : buffer.Represents stream discarded)
    (meets : Runs.Meets apply Legal buffer ops)
    (allocated : buffer.capacity ≤ startCapacity + 2 * stream.length) :
    (ops.foldl apply buffer).capacity ≤
      startCapacity + 2 * (stream ++ ops.flatMap Op.items).length := by
  induction ops generalizing buffer stream discarded with
  | nil => simpa using allocated
  | cons op rest ih =>
      rcases meets with ⟨legal, remaining⟩
      have stepped := ih (rep.apply legal) remaining (capacity_apply_le rep allocated op)
      simpa [List.append_assoc] using stepped

/-- Nothing wraps in a run that pushes fewer than 2^62 items. -/
theorem run_noWrap (ops : List (Op α)) (legal : Runs.Meets apply Legal new ops)
    (short : (ops.flatMap Op.items).length < 2 ^ 62) : (ops.foldl apply new).NoWrap := by
  have rep := Represents.new.run legal
  have allocated := capacity_run_le Represents.new legal (Nat.le_add_right _ _)
  rw [List.nil_append] at rep allocated
  exact rep.noWrap allocated short

/-- Pushed, discarded in part, compacted and pushed again. -/
theorem run_addressed_compacted :
    ([.push [1, 2, 3], .discardPrefix 2, .compact, .push [4]].foldl apply
      (new : LinearBuffer ℕ)).Addressed [1, 2, 3, 4] 2 :=
  run_addressed [.push [1, 2, 3], .discardPrefix 2, .compact, .push [4]]
    ⟨by decide, by decide, by decide, by decide, trivial⟩

end LinearBuffer

end FixEngine
