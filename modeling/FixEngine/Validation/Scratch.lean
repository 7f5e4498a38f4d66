import FixEngine.Core.Validator

/-!
# The scratch bits are a set of positions

`TagScratch` packs one bit for each field of a message into words of 64. Read through `get` it is a
set of positions: `set` adds one, `clear` removes all, and `full` asks whether everything below a
size is in it, whatever is stored above.
-/

namespace FixEngine

namespace TagScratch

variable {scratch : TagScratch} {index other size : ℕ}

/-- Room for the given number of fields. -/
def Covers (scratch : TagScratch) (size : ℕ) : Prop := size ≤ 64 * scratch.data.length

theorem length_ensureBits (scratch : TagScratch) (size : ℕ) :
    scratch.data.length ≤ (scratch.ensureBits size).data.length ∧
      size / 64 < (scratch.ensureBits size).data.length := by
  rw [ensureBits]
  split
  · simp only [List.length_append, List.length_replicate]
    omega
  · omega

theorem mask_bit {word : BitVec 64} {offset : ℕ} (inside : offset < 64) :
    (word &&& 1#64 <<< offset != 0) = word.getLsbD offset := by
  have single : ∀ place, (word &&& 1#64 <<< offset).getLsbD place =
      (word.getLsbD offset && decide (place = offset)) := by
    intro place
    by_cases same : place = offset
    · subst same
      simp [inside]
    · rcases Nat.lt_or_ge place offset with below | above
      · simp [below, same]
      · simp [same, show place - offset ≠ 0 by omega]
  cases stored : word.getLsbD offset with
  | false =>
      have zero : word &&& 1#64 <<< offset = 0 := by
        apply BitVec.eq_of_getLsbD_eq
        intro place _
        rw [single place, stored]
        simp
      simp [zero]
  | true =>
      have nonzero : word &&& 1#64 <<< offset ≠ 0 := by
        intro zero
        have selected := single offset
        rw [zero, stored] at selected
        simp at selected
      simpa using nonzero

theorem get_eq (scratch : TagScratch) (index : ℕ) :
    scratch.get index = (scratch.word (index / 64)).getLsbD (index % 64) :=
  mask_bit (Nat.mod_lt _ (by omega))

theorem getLsbD_bit {offset place : ℕ} (inside : place < 64) :
    (1#64 <<< offset).getLsbD place = decide (place = offset) := by
  rcases Nat.lt_trichotomy place offset with below | same | above
  · simp [below, Nat.ne_of_lt below]
  · simp [same ▸ inside, same]
  · simp [inside, Nat.ne_of_gt above, Nat.sub_ne_zero_of_lt above, Nat.not_lt_of_lt above]

/-- Setting a bit leaves the others alone. -/
theorem get_set_of_ne (differs : other ≠ index) : (scratch.set index).get other = scratch.get other := by
  rw [get_eq, get_eq]
  by_cases sameWord : index / 64 = other / 64
  · simp only [word, TagScratch.set, List.getElem?_modify, sameWord, if_true]
    cases scratch.data[other / 64]? with
    | none => rfl
    | some stored =>
        have offset : other % 64 ≠ index % 64 := by omega
        simp [getLsbD_bit (Nat.mod_lt other (by omega : 0 < 64)), offset]
  · simp [word, TagScratch.set, sameWord]

theorem get_set_self (inside : index < 64 * scratch.data.length) :
    (scratch.set index).get index = true := by
  have stored : index / 64 < scratch.data.length := by omega
  rw [get_eq]
  simp [word, TagScratch.set, List.getElem?_eq_getElem stored, Nat.mod_lt]

@[simp]
theorem length_set : (scratch.set index).data.length = scratch.data.length := by
  simp [TagScratch.set]

theorem get_clear : scratch.clear.get index = false := by
  rw [get_eq]
  simp only [word, clear, List.getElem?_map]
  cases scratch.data[index / 64]? <;> simp

@[simp]
theorem length_clear : scratch.clear.data.length = scratch.data.length := by
  simp [clear]

theorem covers_ensureBits (scratch : TagScratch) (size : ℕ) : (scratch.ensureBits size).Covers size := by
  have enough := (length_ensureBits scratch size).2
  simp only [Covers]
  omega

theorem getLsbD_mask {count place : ℕ} (small : count < 64) :
    ((1#64 <<< count) - 1#64).getLsbD place = decide (place < count) := by
  have power : 2 ^ count < 2 ^ 64 := Nat.pow_lt_pow_right (by omega) small
  have positive : 0 < 2 ^ count := Nat.two_pow_pos count
  have value : ((1#64 <<< count) - 1#64).toNat = 2 ^ count - 1 := by
    rw [BitVec.toNat_sub, BitVec.toNat_shiftLeft, BitVec.toNat_ofNat, Nat.shiftLeft_eq]
    omega
  rw [BitVec.getLsbD, value, Nat.testBit_two_pow_sub_one]

/-- The whole-word checks and the masked check together look at every position once. -/
theorem full_iff : scratch.full size = true ↔ ∀ index < size, scratch.get index = true := by
  have wordFull : ∀ place, scratch.word place = BitVec.allOnes 64 ↔
      ∀ offset < 64, (scratch.word place).getLsbD offset = true := by
    intro place
    constructor
    · intro ones offset inside
      rw [ones, BitVec.getLsbD_allOnes]
      exact decide_eq_true inside
    · intro bits
      apply BitVec.eq_of_getLsbD_eq
      intro offset inside
      rw [bits offset inside, BitVec.getLsbD_allOnes]
      exact (decide_eq_true inside).symm
  have restFull : scratch.word (size / 64) &&& ((1#64 <<< (size % 64)) - 1#64) =
      (1#64 <<< (size % 64)) - 1#64 ↔
      ∀ offset < size % 64, (scratch.word (size / 64)).getLsbD offset = true := by
    have small : size % 64 < 64 := Nat.mod_lt _ (by omega)
    constructor
    · intro masked offset below
      have bit := congrArg (fun word => word.getLsbD offset) masked
      simpa [getLsbD_mask small, below] using bit
    · intro bits
      apply BitVec.eq_of_getLsbD_eq
      intro offset inside
      rw [BitVec.getLsbD_and, getLsbD_mask small]
      by_cases below : offset < size % 64
      · simp [below, bits offset below]
      · simp [below]
  simp only [full, Bool.and_eq_true, List.all_eq_true, List.mem_range, beq_iff_eq, Bool.or_eq_true,
    wordFull, restFull, get_eq]
  constructor
  · rintro ⟨words, rest⟩ index below
    rcases Nat.lt_or_ge (index / 64) (size / 64) with lower | upper
    · exact words _ lower _ (Nat.mod_lt _ (by omega))
    · have last : index / 64 = size / 64 := by omega
      rcases rest with none | masked
      · omega
      · rw [last]
        apply masked
        omega
  · intro bits
    constructor
    · intro place lower offset inside
      have bit := bits (64 * place + offset) (by omega)
      rwa [show (64 * place + offset) / 64 = place by omega,
        show (64 * place + offset) % 64 = offset by omega] at bit
    · right
      intro offset below
      have bit := bits (64 * (size / 64) + offset) (by omega)
      rwa [show (64 * (size / 64) + offset) / 64 = size / 64 by omega,
        show (64 * (size / 64) + offset) % 64 = offset by omega] at bit

end TagScratch

end FixEngine
