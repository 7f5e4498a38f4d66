import FixEngine.Validation.Scratch
import Mathlib.Data.Finset.Insert

/-!
# The scratch bits over a run

Any sequence of `ensure_bits`, `clear` and `set` leaves in the scratch bits the set of positions
that were set since the last `clear`, as far as `ensure_bits` made room for them.
-/

namespace FixEngine

namespace TagScratch

/-- The operations of the scratch. -/
inductive Op
  | ensureBits (size : ℕ)
  | clear
  | set (index : ℕ)
  deriving DecidableEq, Repr

/-- The scratch after an operation. -/
def apply (scratch : TagScratch) : Op → TagScratch
  | .ensureBits size => scratch.ensureBits size
  | .clear => scratch.clear
  | .set index => scratch.set index

/-- The positions set since the last `clear`. -/
def mark (marked : Finset ℕ) : Op → Finset ℕ
  | .ensureBits _ => marked
  | .clear => ∅
  | .set index => insert index marked

/-- Some earlier `ensure_bits` asked for this much. -/
def Covered (ops : List Op) (size : ℕ) : Prop := ∃ room, .ensureBits room ∈ ops ∧ size ≤ room

/-- Every position is covered before it is set. -/
def Legal (ops : List Op) : Prop :=
  ∀ earlier index later, ops = earlier ++ .set index :: later → Covered earlier index

section Growth

variable {scratch : TagScratch} {index : ℕ}

/-- The words added are zero, as are those that are not there. -/
theorem word_ensureBits (scratch : TagScratch) (size place : ℕ) :
    (scratch.ensureBits size).word place = scratch.word place := by
  rw [ensureBits]
  split
  · simp only [word, List.getElem?_append, List.getElem?_replicate]
    split
    · rfl
    · next outside =>
        rw [List.getElem?_eq_none (Nat.le_of_not_lt outside)]
        split <;> rfl
  · rfl

/-- Growing neither loses nor invents a position. -/
theorem get_ensureBits (scratch : TagScratch) (size index : ℕ) :
    (scratch.ensureBits size).get index = scratch.get index := by
  rw [get_eq, get_eq, word_ensureBits]

theorem length_apply (scratch : TagScratch) (op : Op) :
    scratch.data.length ≤ (scratch.apply op).data.length := by
  cases op with
  | ensureBits size => exact (length_ensureBits scratch size).1
  | clear => exact Nat.le_of_eq length_clear.symm
  | set index => exact Nat.le_of_eq length_set.symm

end Growth

theorem Legal.of_append {ops : List Op} {op : Op} (legal : Legal (ops ++ [op])) : Legal ops := by
  intro earlier index later split
  apply legal earlier index (later ++ [op])
  simp [split]

/-- What a run of the operations leaves behind. -/
structure Marks (scratch : TagScratch) (ops : List Op) : Prop where
  /-- The word of every covered position is there. -/
  allocated : ∀ size, Covered ops size → size / 64 < scratch.data.length
  get_eq : ∀ index, scratch.get index = decide (index ∈ ops.foldl mark ∅)

theorem Marks.apply {scratch : TagScratch} {ops : List Op} {op : Op} (marks : scratch.Marks ops)
    (covered : ∀ index, op = .set index → Covered ops index) :
    (scratch.apply op).Marks (ops ++ [op]) where
  allocated := by
    rintro size ⟨room, mem, le⟩
    have grows := length_apply scratch op
    rcases List.mem_append.mp mem with earlier | last
    · have there := marks.allocated size ⟨room, earlier, le⟩
      omega
    · rw [List.mem_singleton] at last
      subst last
      have there := (length_ensureBits scratch room).2
      have below : size / 64 ≤ room / 64 := Nat.div_le_div_right le
      show size / 64 < (scratch.ensureBits room).data.length
      omega
  get_eq := by
    intro place
    have before := marks.get_eq place
    rw [List.foldl_concat]
    cases op with
    | ensureBits size => exact (get_ensureBits scratch size place).trans before
    | clear => exact get_clear.trans (by simp [mark])
    | set index =>
        have there := marks.allocated index (covered index rfl)
        by_cases same : place = index
        · subst same
          have inside : place < 64 * scratch.data.length := by omega
          exact (get_set_self inside).trans (by simp [mark])
        · exact (get_set_of_ne same).trans (before.trans (by simp [mark, same]))

theorem marks_run (ops : List Op) (legal : Legal ops) :
    (ops.foldl apply {}).Marks ops := by
  induction ops using List.reverseRecOn with
  | nil =>
      refine ⟨?_, ?_⟩
      · rintro size ⟨room, mem, _⟩
        simp at mem
      · intro index
        rw [TagScratch.get_eq]
        simp [word]
  | append_singleton ops op ih =>
      rw [List.foldl_concat]
      apply (ih legal.of_append).apply
      intro index isSet
      exact legal ops index [] (by rw [isSet])

/-- The scratch bits are the set of positions that were set since the last `clear`: `get` reads
it, and `full` holds exactly when it has every position below the size. -/
theorem run_marks (ops : List Op) (legal : Legal ops) :
    (∀ index, Covered ops index →
      (ops.foldl apply {}).get index = decide (index ∈ ops.foldl mark ∅)) ∧
    (∀ size, Covered ops size →
      ((ops.foldl apply {}).full size = true ↔ ∀ index < size, index ∈ ops.foldl mark ∅)) ∧
    (∀ size, Covered ops size → size / 64 < (ops.foldl apply {}).data.length) := by
  have marks := marks_run ops legal
  refine ⟨fun index _ => marks.get_eq index, ?_, marks.allocated⟩
  intro size _
  rw [full_iff]
  constructor
  · intro every index below
    have read := every index below
    rw [marks.get_eq] at read
    exact of_decide_eq_true read
  · intro every index below
    rw [marks.get_eq]
    exact decide_eq_true (every index below)

/-- A position that was set is gone after `clear`, and growing does not bring it back. -/
theorem run_marks_cleared :
    (([.ensureBits 64, .set 64, .clear, .ensureBits 128] : List Op).foldl apply {}).get 64 =
      false :=
  (run_marks [.ensureBits 64, .set 64, .clear, .ensureBits 128] (by
    intro earlier index later split
    rcases earlier with _ | ⟨first, _ | ⟨second, _ | ⟨third, _ | ⟨fourth, rest⟩⟩⟩⟩ <;>
      simp at split
    rcases split with ⟨rfl, rfl, _⟩
    exact ⟨64, by simp, Nat.le_refl 64⟩)).1 64 ⟨64, by simp, Nat.le_refl 64⟩

end TagScratch

end FixEngine
