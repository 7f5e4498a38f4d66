import FixEngine.Lib.Refinement
import FixEngine.Recovery.Cache

/-!
# The recovery cache over a run

A map of recovered messages has a base and an entry for each number of its window. The cache
answers every sequence of operations as the map does, from a buffer that grows and is rewound
while its slots keep their offsets, and touches nothing outside its slots and its buffer.
-/

namespace FixEngine

/-- What the cache is for: byte strings under the numbers from `base` on. -/
structure RecoveryMap where
  base : ℕ
  entries : ℕ → Option Bytes

namespace RecoveryCache

/-- The operations of the cache. -/
inductive Op
  | start (seqNum : ℕ)
  | insert (seqNum : ℕ) (wire : Bytes)
  | get (seqNum : ℕ)
  | consume (seqNum : ℕ)
  | contains (seqNum : ℕ)
  | clear
  deriving DecidableEq, Repr

/-- What they return. -/
inductive Answer
  | done
  | message (wire : Bytes)
  | present (present : Bool)
  deriving DecidableEq, Repr

/-- The cache after an operation, and its answer. -/
def step (cache : RecoveryCache) : Op → RecoveryCache × Answer
  | .start seqNum => (cache.start seqNum, .done)
  | .insert seqNum wire => (cache.insert seqNum wire, .done)
  | .get seqNum => (cache, .message (cache.get seqNum))
  | .consume seqNum => (cache.consume seqNum, .done)
  | .contains seqNum => (cache, .present (cache.contains seqNum))
  | .clear => (cache.clear, .done)

/-- The slots an operation reads or writes. -/
def slotAccesses (cache : RecoveryCache) : Op → List ℕ
  | .start _ => []
  | .insert seqNum _ => [cache.slotIndex seqNum]
  | .get seqNum => [cache.slotIndex seqNum]
  | .consume seqNum => [cache.slotIndex seqNum]
  | .contains seqNum => if cache.inWindow seqNum then [cache.slotIndex seqNum] else []
  | .clear => []

/-- The `memcpy` of `grow_buffer`, into the new allocation. -/
def growCopies (cache : RecoveryCache) (wire : Bytes) : List Copy :=
  let grown := cache.growBuffer
    (max (cache.buffSize + wire.length - cache.buffCapacity) minCapacityGrowth)
  if cache.buffCapacity < cache.buffSize + wire.length then
    [⟨0, cache.buffCapacity, 0, grown.buffCapacity, cache.buffSize⟩]
  else []

/-- The copies of an operation, and the bytes its caller reads through the view of `get`. -/
def copies (cache : RecoveryCache) : Op → List Copy
  | .insert seqNum wire =>
      cache.growCopies wire ++
        [⟨0, wire.length, cache.buffSize, (cache.insert seqNum wire).buffCapacity, wire.length⟩]
  | .get seqNum =>
      let bounds := cache.slots (cache.slotIndex seqNum)
      [⟨bounds.offset, cache.buffCapacity, 0, bounds.size, bounds.size⟩]
  | _ => []

end RecoveryCache

namespace RecoveryMap

open RecoveryCache (Op Answer window)

/-- The empty map, at the base of a new cache. -/
def new : RecoveryMap := ⟨0, fun _ => none⟩

/-- The numbers the cache has slots for. -/
def InWindow (map : RecoveryMap) (seqNum : ℕ) : Prop :=
  map.base ≤ seqNum ∧ seqNum < map.base + window

/-- The map after an operation, and its answer. -/
def step (map : RecoveryMap) : Op → RecoveryMap × Answer
  | .start seqNum => (⟨seqNum, fun _ => none⟩, .done)
  | .insert seqNum wire =>
      ({ map with entries := Function.update map.entries seqNum (some wire) }, .done)
  | .get seqNum => (map, .message ((map.entries seqNum).getD []))
  | .consume seqNum => ({ map with entries := Function.update map.entries seqNum none }, .done)
  | .contains seqNum => (map, .present (map.entries seqNum).isSome)
  | .clear => (new, .done)

/-- The assertions of the source: what is inserted is not empty, in the window and absent, and
what is read or consumed is present. -/
def Legal (map : RecoveryMap) : Op → Prop
  | .start _ => True
  | .insert seqNum wire => wire ≠ [] ∧ map.InWindow seqNum ∧ map.entries seqNum = none
  | .get seqNum => map.entries seqNum ≠ none
  | .consume seqNum => map.entries seqNum ≠ none
  | .contains _ => True
  | .clear => True

end RecoveryMap

namespace RecoveryCache

/-- The cache holds exactly the entries of the map. -/
structure Represents (cache : RecoveryCache) (map : RecoveryMap) : Prop where
  valid : cache.Valid
  base : cache.baseOffset = map.base
  held : cache.held = map.entries
  fits : cache.buffSize ≤ cache.buffCapacity

namespace Represents

variable {cache : RecoveryCache} {map : RecoveryMap} {seqNum : ℕ} {wire : Bytes}

theorem new : RecoveryCache.new.Represents RecoveryMap.new where
  valid := by
    constructor <;>
      simp [RecoveryCache.new, growBuffer, used]
  base := rfl
  held := by
    funext n
    simp [held_eq_none_iff, contains, RecoveryCache.new, growBuffer, RecoveryMap.new]
  fits := Nat.zero_le _

theorem inWindow_iff (rep : cache.Represents map) :
    cache.inWindow seqNum = true ↔ map.InWindow seqNum := by
  rw [RecoveryCache.inWindow_iff, RecoveryMap.InWindow, rep.base]
  constructor
  · rintro ⟨low, high⟩
    exact ⟨low, by omega⟩
  · rintro ⟨low, high⟩
    exact ⟨low, by omega⟩

theorem contains_eq (rep : cache.Represents map) (seqNum : ℕ) :
    cache.contains seqNum = (map.entries seqNum).isSome := by
  rw [← rep.held, RecoveryCache.held]
  split
  · next present => exact present
  · next absent => simpa using absent

theorem contains_of_entry (rep : cache.Represents map) (entry : map.entries seqNum ≠ none) :
    cache.contains seqNum = true := by
  rw [rep.contains_eq]
  exact Option.isSome_iff_ne_none.mpr entry

theorem get_eq (rep : cache.Represents map) (entry : map.entries seqNum ≠ none) :
    cache.get seqNum = (map.entries seqNum).getD [] := by
  rw [← rep.held, RecoveryCache.held, if_pos (rep.contains_of_entry entry), Option.getD_some]

/-- The cache is empty exactly when the map is. -/
theorem empty_iff (rep : cache.Represents map) :
    cache.empty = true ↔ ∀ n, map.entries n = none := by
  rw [rep.valid.empty_iff, rep.held]

theorem start (cache : RecoveryCache) (seqNum : ℕ) :
    (cache.start seqNum).Represents ⟨seqNum, fun _ => none⟩ where
  valid := valid_start cache seqNum
  base := baseOffset_start cache seqNum
  held := held_start cache seqNum
  fits := Nat.zero_le _

theorem buffSize_insert_le (cache : RecoveryCache) (seqNum : ℕ) (wire : Bytes) :
    (cache.insert seqNum wire).buffSize ≤ (cache.insert seqNum wire).buffCapacity := by
  simp only [RecoveryCache.insert, insertMessage]
  split
  · simp only [growBuffer]
    omega
  · omega

theorem insert (rep : cache.Represents map)
    (legal : map.Legal (.insert seqNum wire)) :
    (cache.insert seqNum wire).Represents
      { map with entries := Function.update map.entries seqNum (some wire) } := by
  rcases legal with ⟨nonempty, within, absent⟩
  have inside : cache.inWindow seqNum = true := rep.inWindow_iff.mpr within
  have missing : cache.contains seqNum = false := by
    rw [rep.contains_eq, absent]
    rfl
  refine ⟨rep.valid.insert inside missing nonempty, ?_, ?_, buffSize_insert_le cache seqNum wire⟩
  · rw [baseOffset_insert, rep.base]
  · rw [held_insert rep.valid inside nonempty, rep.held]

theorem consume (rep : cache.Represents map) (entry : map.entries seqNum ≠ none) :
    (cache.consume seqNum).Represents
      { map with entries := Function.update map.entries seqNum none } := by
  have present := rep.contains_of_entry entry
  refine ⟨rep.valid.consume present, rep.base, ?_, ?_⟩
  · rw [held_consume present, rep.held]
  · have fits := rep.fits
    simp only [RecoveryCache.consume]
    split
    · exact Nat.zero_le _
    · exact fits

theorem clear (cache : RecoveryCache) : cache.clear.Represents RecoveryMap.new where
  valid := valid_reset cache
  base := rfl
  held := held_start cache 0
  fits := Nat.zero_le _

/-- The slot of a number of the window is one of the slots. -/
theorem slotIndex_lt (within : cache.inWindow seqNum = true) :
    cache.slotIndex seqNum < window := by
  rw [slotIndex_of_inWindow within]
  exact (RecoveryCache.inWindow_iff.mp within).2

theorem slotAccesses_lt {op : Op} {slot : ℕ} (rep : cache.Represents map) (legal : map.Legal op)
    (mem : slot ∈ cache.slotAccesses op) : slot < window := by
  cases op with
  | start seqNum => simp [slotAccesses] at mem
  | insert seqNum wire =>
      rw [slotAccesses, List.mem_singleton] at mem
      subst mem
      exact slotIndex_lt (rep.inWindow_iff.mpr legal.2.1)
  | get seqNum =>
      rw [slotAccesses, List.mem_singleton] at mem
      subst mem
      exact slotIndex_lt (contains_iff.mp (rep.contains_of_entry legal)).1
  | consume seqNum =>
      rw [slotAccesses, List.mem_singleton] at mem
      subst mem
      exact slotIndex_lt (contains_iff.mp (rep.contains_of_entry legal)).1
  | contains seqNum =>
      simp only [slotAccesses] at mem
      split at mem
      · next within =>
          rw [List.mem_singleton] at mem
          subst mem
          exact slotIndex_lt within
      · simp at mem
  | clear => simp [slotAccesses] at mem

/-- Growing copies the written part, inserting writes after it, and a view ends before its end. -/
theorem copies_inBounds {op : Op} {copy : Copy} (rep : cache.Represents map)
    (legal : map.Legal op) (mem : copy ∈ cache.copies op) : copy.InBounds := by
  have fits := rep.fits
  cases op with
  | insert seqNum wire =>
      simp only [copies, List.mem_append, List.mem_singleton] at mem
      rcases mem with grown | written
      · simp only [growCopies] at grown
        split at grown
        · rw [List.mem_singleton] at grown
          subst grown
          constructor
          · dsimp only
            omega
          · simp only [growBuffer]
            omega
        · simp at grown
      · subst written
        refine ⟨Nat.le_of_eq (Nat.zero_add _), ?_⟩
        have size : (cache.insert seqNum wire).buffSize = cache.buffSize + wire.length :=
          buffSize_insert
        rw [← size]
        exact buffSize_insert_le cache seqNum wire
  | get seqNum =>
      have present := contains_iff.mp (rep.contains_of_entry legal)
      have inside := rep.valid.inBuffer _ present.2
      rw [copies, List.mem_singleton] at mem
      subst mem
      rw [slotIndex_of_inWindow present.1]
      constructor
      · dsimp only
        omega
      · dsimp only
        omega
  | start seqNum => simp [copies] at mem
  | consume seqNum => simp [copies] at mem
  | contains seqNum => simp [copies] at mem
  | clear => simp [copies] at mem

end Represents

/-- One operation, on both sides. -/
theorem refines_map : Refinement.Refines step RecoveryMap.step RecoveryMap.Legal Represents where
  state := by
    intro cache map op rep legal
    cases op with
    | start seqNum => exact .start cache seqNum
    | insert seqNum wire => exact rep.insert legal
    | get seqNum => exact rep
    | consume seqNum => exact rep.consume legal
    | contains seqNum => exact rep
    | clear => exact .clear cache
  answer := by
    intro cache map op rep legal
    cases op with
    | start seqNum => rfl
    | insert seqNum wire => rfl
    | get seqNum => exact congrArg Answer.message (rep.get_eq legal)
    | consume seqNum => rfl
    | contains seqNum => exact congrArg Answer.present (rep.contains_eq seqNum)
    | clear => rfl

/-- Every run of the cache is a run of the map: its operations answer alike, the cache is empty
exactly when the map is, and no legal operation accesses anything outside the slots or the
buffer. -/
theorem run_map (ops : List Op)
    (legal : Runs.Meets (Refinement.advance RecoveryMap.step) RecoveryMap.Legal RecoveryMap.new
      ops) :
    Refinement.answers step new ops = Refinement.answers RecoveryMap.step RecoveryMap.new ops ∧
      (Refinement.final step new ops).held =
        (Refinement.final RecoveryMap.step RecoveryMap.new ops).entries ∧
      ((Refinement.final step new ops).empty = true ↔
        ∀ n, (Refinement.final RecoveryMap.step RecoveryMap.new ops).entries n = none) ∧
      ∀ op, (Refinement.final RecoveryMap.step RecoveryMap.new ops).Legal op →
        (∀ slot ∈ (Refinement.final step new ops).slotAccesses op, slot < window) ∧
          ∀ copy ∈ (Refinement.final step new ops).copies op, copy.InBounds := by
  have rep := refines_map.final_related Represents.new legal
  have same := refines_map.answers_eq Represents.new legal
  refine ⟨same, rep.held, rep.empty_iff, ?_⟩
  intro op allowed
  constructor
  · intro slot mem
    exact rep.slotAccesses_lt allowed mem
  · intro copy mem
    exact rep.copies_inBounds allowed mem

/-- The buffer is rewound between the two messages of one number. -/
theorem run_map_rewound :
    Refinement.answers step new
        [.start 7, .insert 9 [65, 66], .consume 9, .contains 9, .insert 9 [67], .get 9] =
      [.done, .done, .done, .present false, .done, .message [67]] :=
  (run_map [.start 7, .insert 9 [65, 66], .consume 9, .contains 9, .insert 9 [67], .get 9] (by
    simp [Runs.Meets, Refinement.advance, RecoveryMap.step, RecoveryMap.Legal, RecoveryMap.InWindow,
      window])).1

end RecoveryCache

end FixEngine
