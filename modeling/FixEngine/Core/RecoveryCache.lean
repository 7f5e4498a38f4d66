import FixEngine.Core.Store

/-!
# The recovery cache

`RecoveryCache` (`core/RecoveryCache.hpp`, `RecoveryCache.cpp`) keeps the messages that arrived
ahead of their turn: a window of slots that starts at the number the session waits for, each with
the bounds of a message in one byte buffer.
-/

namespace FixEngine

/-- `MessageBounds`, where a message lies in the buffer. -/
structure MessageBounds where
  offset : ℕ
  size : ℕ
  deriving DecidableEq, Repr

/-- `RecoveryCache`: a ring of slots over a buffer of raw messages. -/
structure RecoveryCache where
  slots : ℕ → MessageBounds
  baseOffset : ℕ
  /-- The written cells of the buffer. -/
  data : Bytes
  buffCapacity : ℕ
  buffSize : ℕ
  /-- The number of messages, 16 bits. -/
  size : ℕ

namespace RecoveryCache

/-- `initial_capacity`. -/
def initialCapacity : ℕ := 1024 * 64

/-- `min_capacity_growth`. -/
def minCapacityGrowth : ℕ := 1024 * 32

/-- The number of slots. -/
def window : ℕ := 512

/-- `KEmpty`. -/
def emptyBounds : MessageBounds := ⟨0, 0⟩

/-- `grow_buffer`. -/
def growBuffer (cache : RecoveryCache) (extraCapacity : ℕ) : RecoveryCache :=
  { cache with
    data := cache.data.take cache.buffSize
    buffCapacity := cache.buffCapacity + extraCapacity }

/-- The constructor. -/
def new : RecoveryCache :=
  growBuffer ⟨fun _ => emptyBounds, 0, [], 0, 0, 0⟩ initialCapacity

/-- `reset`, which keeps the allocation. -/
def reset (cache : RecoveryCache) : RecoveryCache :=
  { cache with buffSize := 0, baseOffset := 0, size := 0, slots := fun _ => emptyBounds }

/-- `clear`. -/
def clear (cache : RecoveryCache) : RecoveryCache := cache.reset

/-- `empty()`. -/
def empty (cache : RecoveryCache) : Bool := cache.size == 0

/-- `in_window`: at most 511 numbers beyond the base. -/
def inWindow (cache : RecoveryCache) (seqNum : ℕ) : Bool :=
  cache.baseOffset ≤ seqNum && decide (seqNum - cache.baseOffset < window)

/-- Its assertion is `inWindow`. -/
def slotIndex (cache : RecoveryCache) (seqNum : ℕ) : ℕ := (seqNum - cache.baseOffset) % word16

/-- `contains`. -/
def contains (cache : RecoveryCache) (seqNum : ℕ) : Bool :=
  cache.inWindow seqNum && decide (cache.slots (cache.slotIndex seqNum) ≠ emptyBounds)

/-- `start`: the cache is emptied and its window moved. -/
def start (cache : RecoveryCache) (seqNum : ℕ) : RecoveryCache :=
  { cache.reset with baseOffset := seqNum }

/-- `insert_message`: the raw message is copied behind those in the buffer. -/
def insertMessage (cache : RecoveryCache) (wire : Bytes) : MessageBounds × RecoveryCache :=
  let roomy :=
    if cache.buffCapacity < cache.buffSize + wire.length then
      cache.growBuffer (max (cache.buffSize + wire.length - cache.buffCapacity) minCapacityGrowth)
    else cache
  (⟨roomy.buffSize, wire.length⟩,
    { roomy with
      data := memcpy roomy.data roomy.buffSize wire
      buffSize := roomy.buffSize + wire.length })

/-- `insert`, which looks neither at the window nor at what the slot holds. -/
def insert (cache : RecoveryCache) (seqNum : ℕ) (wire : Bytes) : RecoveryCache :=
  let (bounds, filled) := cache.insertMessage wire
  { filled with
    slots := Function.update filled.slots (filled.slotIndex seqNum) bounds
    size := (filled.size + 1) % word16 }

/-- The assertions of `insert`, `slot_index` and `insert_message`. -/
def insertAsserts (cache : RecoveryCache) (seqNum : ℕ) (wire : Bytes) : Bool :=
  cache.inWindow seqNum && !cache.contains seqNum && decide (0 < wire.length)

/-- `get`. -/
def get (cache : RecoveryCache) (seqNum : ℕ) : Bytes :=
  let bounds := cache.slots (cache.slotIndex seqNum)
  (cache.data.drop bounds.offset).take bounds.size

/-- `consume`: the slot is freed, and with the last one the buffer starts over. -/
def consume (cache : RecoveryCache) (seqNum : ℕ) : RecoveryCache :=
  let size := (cache.size + (word16 - 1)) % word16
  { cache with
    slots := Function.update cache.slots (cache.slotIndex seqNum) emptyBounds
    size := size
    buffSize := if size = 0 then 0 else cache.buffSize }

end RecoveryCache

end FixEngine
