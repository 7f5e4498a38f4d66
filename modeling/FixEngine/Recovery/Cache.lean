import FixEngine.Core.RecoveryCache
import Mathlib.Data.Finset.Card
import Mathlib.Data.Finset.Filter
import Mathlib.Logic.Function.Basic

/-!
# The recovery cache as a map

What the cache is for: a partial map from sequence numbers to messages. `Valid` ties its slots,
its byte buffer and its counter together; on valid caches every operation of the source is the
corresponding operation on the map `held`.
-/

namespace FixEngine

namespace RecoveryCache

/-- The message held under a number. -/
def held (cache : RecoveryCache) (seqNum : ℕ) : Option Bytes :=
  if cache.contains seqNum then some (cache.get seqNum) else none

/-- The slots in use. -/
def used (cache : RecoveryCache) : Finset ℕ :=
  (Finset.range window).filter fun slot => cache.slots slot ≠ emptyBounds

/-- The counter counts the used slots, and their messages lie in the written part of the
buffer. -/
structure Valid (cache : RecoveryCache) : Prop where
  size_eq : cache.size = cache.used.card
  inBuffer : ∀ slot ∈ cache.used,
    (cache.slots slot).offset + (cache.slots slot).size ≤ cache.buffSize
  written : cache.buffSize ≤ cache.data.length

section Lookup

variable {cache : RecoveryCache} {seqNum : ℕ}

theorem mem_used {slot : ℕ} :
    slot ∈ cache.used ↔ slot < window ∧ cache.slots slot ≠ emptyBounds := by
  simp [used]

theorem inWindow_iff :
    cache.inWindow seqNum = true ↔
      cache.baseOffset ≤ seqNum ∧ seqNum - cache.baseOffset < window := by
  simp [inWindow]

theorem slotIndex_of_inWindow (within : cache.inWindow seqNum = true) :
    cache.slotIndex seqNum = seqNum - cache.baseOffset := by
  have := (inWindow_iff.mp within).2
  rw [slotIndex, Nat.mod_eq_of_lt]
  simp only [window, word16] at *
  omega

theorem contains_iff :
    cache.contains seqNum = true ↔
      cache.inWindow seqNum = true ∧ seqNum - cache.baseOffset ∈ cache.used := by
  simp only [contains, Bool.and_eq_true, decide_eq_true_eq, mem_used]
  constructor
  · rintro ⟨within, filled⟩
    rw [slotIndex_of_inWindow within] at filled
    exact ⟨within, (inWindow_iff.mp within).2, filled⟩
  · rintro ⟨within, -, filled⟩
    rw [slotIndex_of_inWindow within]
    exact ⟨within, filled⟩

theorem held_eq_none_iff : cache.held seqNum = none ↔ cache.contains seqNum = false := by
  rw [held]
  split <;> simp_all

theorem held_eq_some_iff {wire : Bytes} :
    cache.held seqNum = some wire ↔ cache.contains seqNum = true ∧ cache.get seqNum = wire := by
  rw [held]
  split <;> simp_all

theorem card_used_le (cache : RecoveryCache) : cache.used.card ≤ window := by
  rw [used]
  exact (Finset.card_filter_le _ _).trans (Finset.card_range window).le

/-- The cache reports itself empty exactly when it holds nothing. -/
theorem Valid.empty_iff (valid : cache.Valid) :
    cache.empty = true ↔ ∀ seqNum, cache.held seqNum = none := by
  simp only [empty, valid.size_eq, beq_iff_eq, Finset.card_eq_zero, held_eq_none_iff]
  constructor
  · intro none seqNum
    by_contra present
    have := (contains_iff.mp (by simpa using present)).2
    simp [none] at this
  · intro absent
    rw [Finset.eq_empty_iff_forall_notMem]
    intro slot mem
    have within : cache.inWindow (cache.baseOffset + slot) = true :=
      inWindow_iff.mpr ⟨by omega, by simpa using (mem_used.mp mem).1⟩
    have present : cache.contains (cache.baseOffset + slot) = true :=
      contains_iff.mpr ⟨within, by simpa using mem⟩
    simp [absent] at present

end Lookup

section Start

variable (cache : RecoveryCache) (seqNum : ℕ)

theorem valid_reset : cache.reset.Valid where
  size_eq := by simp [reset, used]
  inBuffer := by simp [reset, used]
  written := by simp [reset]

theorem valid_start : (cache.start seqNum).Valid where
  size_eq := by simp [start, reset, used]
  inBuffer := by simp [start, reset, used]
  written := by simp [start, reset]

@[simp]
theorem held_start : (cache.start seqNum).held = fun _ => none := by
  funext n
  simp [held_eq_none_iff, contains, start, reset]

@[simp]
theorem baseOffset_start : (cache.start seqNum).baseOffset = seqNum := by
  simp [start]

end Start

section Insert

variable {cache : RecoveryCache} {seqNum : ℕ} {wire : Bytes}

@[simp]
theorem baseOffset_insert : (cache.insert seqNum wire).baseOffset = cache.baseOffset := by
  simp only [insert, insertMessage]
  split <;> rfl

theorem slots_insert : (cache.insert seqNum wire).slots =
    Function.update cache.slots (cache.slotIndex seqNum) ⟨cache.buffSize, wire.length⟩ := by
  simp only [insert, insertMessage]
  split <;> rfl

theorem size_insert : (cache.insert seqNum wire).size = (cache.size + 1) % word16 := by
  simp only [insert, insertMessage]
  split <;> rfl

theorem buffSize_insert :
    (cache.insert seqNum wire).buffSize = cache.buffSize + wire.length := by
  simp only [insert, insertMessage]
  split <;> rfl

/-- Growing the buffer does not show in its written part. -/
theorem data_insert (seqNum : ℕ) (wire : Bytes) (written : cache.buffSize ≤ cache.data.length) :
    ((cache.insert seqNum wire).data).take (cache.buffSize + wire.length) =
      cache.data.take cache.buffSize ++ wire := by
  simp only [insert, insertMessage]
  split
  · have fits : cache.buffSize ≤ (cache.data.take cache.buffSize).length := by
      simp only [List.length_take]
      omega
    simp only [growBuffer]
    rw [take_memcpy _ fits, List.take_take, Nat.min_self]
  · exact take_memcpy _ written

theorem inWindow_insert (n : ℕ) :
    (cache.insert seqNum wire).inWindow n = cache.inWindow n := by
  simp [inWindow]

theorem used_insert (within : cache.inWindow seqNum = true) (nonempty : wire ≠ []) :
    (cache.insert seqNum wire).used =
      Insert.insert (seqNum - cache.baseOffset) cache.used := by
  have bounds : (⟨cache.buffSize, wire.length⟩ : MessageBounds) ≠ emptyBounds := by
    simp [emptyBounds, nonempty]
  ext slot
  rw [Finset.mem_insert, mem_used, mem_used, slots_insert, slotIndex_of_inWindow within]
  by_cases same : slot = seqNum - cache.baseOffset
  · subst same
    simp [bounds, (inWindow_iff.mp within).2]
  · simp [same]

theorem contains_insert (within : cache.inWindow seqNum = true) (nonempty : wire ≠ []) (n : ℕ) :
    (cache.insert seqNum wire).contains n = true ↔ n = seqNum ∨ cache.contains n = true := by
  rw [contains_iff, contains_iff, inWindow_insert, used_insert within nonempty, baseOffset_insert,
    Finset.mem_insert]
  have low := (inWindow_iff.mp within).1
  constructor
  · rintro ⟨withinN, same | mem⟩
    · have lowN := (inWindow_iff.mp withinN).1
      exact .inl (by omega)
    · exact .inr ⟨withinN, mem⟩
  · rintro (rfl | ⟨withinN, mem⟩)
    · exact ⟨within, .inl rfl⟩
    · exact ⟨withinN, .inr mem⟩

theorem Valid.insert (valid : cache.Valid) (within : cache.inWindow seqNum = true)
    (absent : cache.contains seqNum = false) (nonempty : wire ≠ []) :
    (cache.insert seqNum wire).Valid where
  size_eq := by
    have fresh : seqNum - cache.baseOffset ∉ cache.used := fun mem => by
      have := contains_iff.mpr ⟨within, mem⟩
      simp [absent] at this
    have few := card_used_le (cache.insert seqNum wire)
    rw [used_insert within nonempty, Finset.card_insert_of_notMem fresh] at *
    rw [size_insert, valid.size_eq, Nat.mod_eq_of_lt]
    simp only [window, word16] at *
    omega
  inBuffer := by
    intro slot mem
    rw [used_insert within nonempty, Finset.mem_insert] at mem
    rw [slots_insert, buffSize_insert, slotIndex_of_inWindow within]
    by_cases same : slot = seqNum - cache.baseOffset
    · subst same
      simp
    · have := valid.inBuffer slot (mem.resolve_left same)
      rw [Function.update_of_ne same]
      omega
  written := by
    have := congrArg List.length (data_insert seqNum wire valid.written)
    have written := valid.written
    simp only [List.length_take, List.length_append] at this
    rw [buffSize_insert]
    omega

/-- A slice of a list, read from a longer beginning of it. -/
theorem slice_eq_slice_take (data : Bytes) {offset size stop : ℕ} (le : offset + size ≤ stop) :
    (data.drop offset).take size = ((data.take stop).drop offset).take size := by
  rw [List.drop_take, List.take_take, Nat.min_eq_left (by omega)]

theorem held_insert (valid : cache.Valid) (within : cache.inWindow seqNum = true)
    (nonempty : wire ≠ []) :
    (cache.insert seqNum wire).held = Function.update cache.held seqNum (some wire) := by
  funext n
  by_cases same : n = seqNum
  · subst same
    rw [Function.update_self, held_eq_some_iff]
    refine ⟨(contains_insert within nonempty n).mpr (.inl rfl), ?_⟩
    have index : (cache.insert n wire).slotIndex n = cache.slotIndex n := by
      rw [slotIndex, slotIndex, baseOffset_insert]
    have filled : (cache.data.take cache.buffSize).length = cache.buffSize := by
      have := valid.written
      simp only [List.length_take]
      omega
    rw [get, index, slots_insert, Function.update_self,
      slice_eq_slice_take _ (Nat.le_refl _), data_insert _ _ valid.written]
    simp only
    rw [List.drop_append, List.drop_eq_nil_of_le filled.le, filled]
    simp
  · rw [Function.update_of_ne same]
    by_cases present : cache.contains n = true
    · have withinN := (contains_iff.mp present).1
      have mem := (contains_iff.mp present).2
      have other : n - cache.baseOffset ≠ seqNum - cache.baseOffset := by
        have := (inWindow_iff.mp withinN).1
        have := (inWindow_iff.mp within).1
        omega
      have inside := valid.inBuffer _ mem
      have bound : (cache.slots (n - cache.baseOffset)).offset +
          (cache.slots (n - cache.baseOffset)).size ≤ (cache.data.take cache.buffSize).length := by
        have := valid.written
        simp only [List.length_take]
        omega
      rw [held, held, if_pos present, if_pos ((contains_insert within nonempty n).mpr (.inr present)),
        get, get, slotIndex_of_inWindow withinN, slotIndex_of_inWindow (by rwa [inWindow_insert]),
        baseOffset_insert, slots_insert, slotIndex_of_inWindow within, Function.update_of_ne other]
      congr 1
      have insideLonger := inside.trans (Nat.le_add_right cache.buffSize wire.length)
      rw [slice_eq_slice_take (cache.insert seqNum wire).data insideLonger, data_insert _ _ valid.written,
        slice_eq_slice_take cache.data inside, List.drop_append_of_le_length (by omega),
        List.take_append_of_le_length (by rw [List.length_drop]; omega)]
    · have absent : (cache.insert seqNum wire).contains n ≠ true := fun contained =>
        present (((contains_insert within nonempty n).mp contained).resolve_left same)
      rw [held, held, if_neg present, if_neg absent]

end Insert

section Consume

variable {cache : RecoveryCache} {seqNum : ℕ}

@[simp]
theorem baseOffset_consume : (cache.consume seqNum).baseOffset = cache.baseOffset := by
  simp [consume]

theorem used_consume (within : cache.inWindow seqNum = true) :
    (cache.consume seqNum).used = cache.used.erase (seqNum - cache.baseOffset) := by
  ext slot
  rw [Finset.mem_erase, mem_used, mem_used, consume]
  simp only [slotIndex_of_inWindow within]
  by_cases same : slot = seqNum - cache.baseOffset
  · simp [same]
  · simp [same]

theorem contains_consume (within : cache.inWindow seqNum = true) (n : ℕ) :
    (cache.consume seqNum).contains n = true ↔ n ≠ seqNum ∧ cache.contains n = true := by
  have window_eq : (cache.consume seqNum).inWindow n = cache.inWindow n := by simp [inWindow]
  have low := (inWindow_iff.mp within).1
  rw [contains_iff, contains_iff, window_eq, used_consume within, baseOffset_consume,
    Finset.mem_erase]
  constructor
  · rintro ⟨withinN, other, mem⟩
    exact ⟨fun same => other (by rw [same]), withinN, mem⟩
  · rintro ⟨other, withinN, mem⟩
    have lowN := (inWindow_iff.mp withinN).1
    exact ⟨withinN, by omega, mem⟩

theorem Valid.consume (valid : cache.Valid) (present : cache.contains seqNum = true) :
    (cache.consume seqNum).Valid := by
  have within := (contains_iff.mp present).1
  have mem := (contains_iff.mp present).2
  have few := card_used_le cache
  have positive : 0 < cache.used.card := Finset.card_pos.mpr ⟨_, mem⟩
  have usedEq := used_consume within
  have size : (cache.consume seqNum).size = cache.size - 1 := by
    have sizeEq := valid.size_eq
    simp only [RecoveryCache.consume, window, word16] at *
    omega
  refine ⟨?_, ?_, ?_⟩
  · rw [size, usedEq, Finset.card_erase_of_mem mem, valid.size_eq]
  · intro slot slotMem
    rw [usedEq] at slotMem
    have other : slot ≠ seqNum - cache.baseOffset := Finset.ne_of_mem_erase slotMem
    have inside := valid.inBuffer slot (Finset.mem_of_mem_erase slotMem)
    -- Another message is left, so the buffer is not rewound.
    have remaining : 0 < (cache.consume seqNum).size := by
      rw [size, valid.size_eq, ← Finset.card_erase_of_mem mem]
      exact Finset.card_pos.mpr ⟨slot, slotMem⟩
    have slotEq : (cache.consume seqNum).slots slot = cache.slots slot := by
      simp only [RecoveryCache.consume, slotIndex_of_inWindow within]
      exact Function.update_of_ne other _ _
    have buffer : (cache.consume seqNum).buffSize = cache.buffSize := by
      simp only [RecoveryCache.consume] at remaining ⊢
      rw [if_neg (by omega)]
    rw [slotEq, buffer]
    exact inside
  · have written := valid.written
    simp only [RecoveryCache.consume]
    split <;> omega

theorem held_consume (present : cache.contains seqNum = true) :
    (cache.consume seqNum).held = Function.update cache.held seqNum none := by
  have within := (contains_iff.mp present).1
  funext n
  by_cases same : n = seqNum
  · subst same
    rw [Function.update_self, held_eq_none_iff]
    by_contra kept
    exact ((contains_consume within n).mp (by simpa using kept)).1 rfl
  · rw [Function.update_of_ne same]
    by_cases contained : cache.contains n = true
    · have withinN := (contains_iff.mp contained).1
      have other : n - cache.baseOffset ≠ seqNum - cache.baseOffset := by
        have := (inWindow_iff.mp withinN).1
        have := (inWindow_iff.mp within).1
        omega
      rw [held, held, if_pos contained, if_pos ((contains_consume within n).mpr ⟨same, contained⟩),
        get, get, show (cache.consume seqNum).slotIndex n = cache.slotIndex n by
          simp [slotIndex], slotIndex_of_inWindow withinN]
      simp only [consume, slotIndex_of_inWindow within]
      rw [Function.update_of_ne other]
    · have absent : (cache.consume seqNum).contains n ≠ true := fun kept =>
        contained ((contains_consume within n).mp kept).2
      rw [held, held, if_neg contained, if_neg absent]

end Consume

end RecoveryCache

end FixEngine
