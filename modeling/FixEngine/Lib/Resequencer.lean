import Mathlib.Data.Set.Insert
import Mathlib.Data.List.Basic
import Mathlib.Logic.Function.Basic

/-!
# Handing out numbered items in order

A resequencer holds back items that arrive ahead of their turn and hands every item out when its
number comes up. Whatever the order of arrival, what it has handed out is an interval that starts
at the first number, and what it holds are the arrived numbers beyond that interval.
-/

namespace FixEngine

/-- A buffer that hands out numbered items in order. -/
structure Resequencer (α : Type) where
  /-- The number whose turn it is. -/
  next : ℕ
  /-- The items that are held back. -/
  ahead : ℕ → Option α
  /-- The numbers handed out so far. -/
  handed : List ℕ

namespace Resequencer

variable {α : Type}

/-- Nothing has arrived, and the numbers start at `first`. -/
def start (first : ℕ) : Resequencer α := ⟨first, fun _ => none, []⟩

/-- Hand out the item whose turn it is. -/
def hand (buffer : Resequencer α) : Resequencer α :=
  { buffer with next := buffer.next + 1, handed := buffer.handed ++ [buffer.next] }

/-- An item that came early is kept. -/
def hold (buffer : Resequencer α) (number : ℕ) (item : α) : Resequencer α :=
  { buffer with ahead := Function.update buffer.ahead number (some item) }

/-- Hand out a held item. -/
def release (buffer : Resequencer α) : Resequencer α :=
  { buffer.hand with ahead := Function.update buffer.ahead buffer.next none }

/-- Release held items as long as the next one is there, with a bound on the rounds. -/
def drain : ℕ → Resequencer α → Resequencer α
  | 0, buffer => buffer
  | rounds + 1, buffer =>
      if (buffer.ahead buffer.next).isSome then drain rounds buffer.release else buffer

/-- An item arrives. -/
def receive (rounds : ℕ) (buffer : Resequencer α) (number : ℕ) (item : α) : Resequencer α :=
  if number = buffer.next then drain rounds buffer.hand
  else if buffer.next < number ∧ buffer.ahead number = none then buffer.hold number item
  else buffer

/-- What a resequencer that started at `first` has made of the numbers that arrived. -/
structure Tracks (first : ℕ) (arrived : Set ℕ) (buffer : Resequencer α) : Prop where
  first_le : first ≤ buffer.next
  handed_eq : buffer.handed = List.range' first (buffer.next - first)
  passed : ∀ n, first ≤ n → n < buffer.next → n ∈ arrived
  ahead_iff : ∀ n, (buffer.ahead n).isSome ↔ n ∈ arrived ∧ buffer.next ≤ n

/-- The item whose turn it is has not arrived. -/
def Waits (buffer : Resequencer α) : Prop := buffer.ahead buffer.next = none

section Steps

variable {first number rounds : ℕ} {arrived : Set ℕ} {buffer : Resequencer α} {item : α}

theorem tracks_start (first : ℕ) : (start first : Resequencer α).Tracks first ∅ where
  first_le := Nat.le_refl _
  handed_eq := by simp [start]
  passed := fun n ge lt => by
    simp only [start] at lt
    omega
  ahead_iff := by simp [start]

theorem range'_succ_sub {next : ℕ} (le : first ≤ next) :
    List.range' first (next + 1 - first) = List.range' first (next - first) ++ [next] := by
  have : next + 1 - first = next - first + 1 := by omega
  rw [this, List.range'_concat]
  congr 2
  omega

/-- Handing out an item, which is not held from then on. -/
theorem Tracks.advance (tracks : buffer.Tracks first arrived) {ahead : ℕ → Option α}
    (rest : ∀ n, (ahead n).isSome ↔ (buffer.ahead n).isSome ∧ n ≠ buffer.next) :
    ({ buffer.hand with ahead := ahead } : Resequencer α).Tracks first
      (Insert.insert buffer.next arrived) where
  first_le := Nat.le_succ_of_le tracks.first_le
  handed_eq := by
    simp only [hand, tracks.handed_eq]
    rw [range'_succ_sub tracks.first_le]
  passed := fun n ge lt => by
    rcases Nat.lt_succ_iff_lt_or_eq.mp lt with earlier | rfl
    · exact Set.mem_insert_of_mem _ (tracks.passed n ge earlier)
    · exact Set.mem_insert _ _
  ahead_iff := fun n => by
    rw [rest, tracks.ahead_iff]
    simp only [hand, Set.mem_insert_iff]
    constructor
    · rintro ⟨⟨mem, le⟩, ne⟩
      exact ⟨.inr mem, by omega⟩
    · rintro ⟨same | mem, le⟩
      · omega
      · exact ⟨⟨mem, by omega⟩, by omega⟩

theorem Tracks.release (tracks : buffer.Tracks first arrived)
    (present : (buffer.ahead buffer.next).isSome) : buffer.release.Tracks first arrived := by
  have known := ((tracks.ahead_iff _).mp present).1
  rw [← Set.insert_eq_of_mem known]
  refine tracks.advance fun n => ?_
  by_cases same : n = buffer.next
  · simp [same]
  · simp [same]

theorem Tracks.drain (tracks : buffer.Tracks first arrived) :
    (drain rounds buffer).Tracks first arrived := by
  induction rounds generalizing buffer with
  | zero => exact tracks
  | succ rounds ih =>
      rw [Resequencer.drain]
      split
      · next present => exact ih (tracks.release present)
      · exact tracks

/-- With enough rounds the drain stops at an item that is missing. -/
theorem waits_drain (enough : ∀ n, (buffer.ahead n).isSome → n < buffer.next + rounds) :
    (drain rounds buffer).Waits := by
  induction rounds generalizing buffer with
  | zero =>
      by_contra present
      have := enough buffer.next (Option.isSome_iff_ne_none.mpr present)
      omega
  | succ rounds ih =>
      rw [drain]
      split
      · refine ih fun n held => ?_
        by_cases same : n = buffer.next
        · simp [release, same] at held
        · have earlier : (buffer.ahead n).isSome := by simpa [release, same] using held
          have := enough n earlier
          simp only [release, hand]
          omega
      · next missing => simpa [Waits] using missing

/-- The numbers that have arrived are those handed out and those held. -/
theorem Tracks.mem_of (tracks : buffer.Tracks first arrived) (ge : first ≤ number)
    (known : number < buffer.next ∨ (buffer.ahead number).isSome) : number ∈ arrived := by
  rcases known with lt | held
  · exact tracks.passed number ge lt
  · exact ((tracks.ahead_iff number).mp held).1

theorem Tracks.receive (tracks : buffer.Tracks first arrived) (waits : buffer.Waits)
    (ge : first ≤ number) :
    (receive rounds buffer number item).Tracks first (Insert.insert number arrived) := by
  rw [Resequencer.receive]
  split
  · next turn =>
      subst turn
      refine Tracks.drain (tracks.advance fun n => ⟨fun held => ⟨held, ?_⟩, And.left⟩)
      rintro rfl
      rw [waits] at held
      simp at held
  next notTurn =>
  split
  · next fresh =>
      refine ⟨tracks.first_le, tracks.handed_eq,
        fun n ge lt => Set.mem_insert_of_mem _ (tracks.passed n ge lt), fun n => ?_⟩
      by_cases same : n = number
      · subst same
        simp [hold, fresh.1.le]
      · simp [hold, same, tracks.ahead_iff]
  · next known =>
      rw [Set.insert_eq_of_mem (tracks.mem_of ge ?_)]
      · exact tracks
      by_cases lt : number < buffer.next
      · exact .inl lt
      · exact .inr (Option.isSome_iff_ne_none.mpr fun missing => known ⟨by omega, missing⟩)

theorem waits_receive (waits : buffer.Waits)
    (enough : ∀ n, (buffer.ahead n).isSome → n < buffer.next + 1 + rounds) :
    (receive rounds buffer number item).Waits := by
  rw [Resequencer.receive]
  split
  · exact waits_drain enough
  split
  · next fresh =>
      have other : buffer.next ≠ number := fresh.1.ne
      simpa [Waits, hold, other] using waits
  · exact waits

/-- When an interval has arrived, all of it has been handed out. -/
theorem Tracks.complete (tracks : buffer.Tracks first arrived) (waits : buffer.Waits) (last : ℕ)
    (all : ∀ n, n ∈ arrived ↔ first ≤ n ∧ n ≤ last) (nonempty : first ≤ last) :
    buffer.next = last + 1 ∧ buffer.ahead = fun _ => none := by
  have notArrived : buffer.next ∉ arrived := fun mem => by
    have := (tracks.ahead_iff buffer.next).mpr ⟨mem, Nat.le_refl _⟩
    rw [waits] at this
    simp at this
  have beyond : last < buffer.next := by
    by_contra within
    exact notArrived ((all _).mpr ⟨tracks.first_le, by omega⟩)
  have reached : buffer.next ≤ last + 1 := by
    by_contra past
    have := (all (buffer.next - 1)).mp (tracks.passed _ (by omega) (by omega))
    omega
  refine ⟨by omega, funext fun n => ?_⟩
  by_contra held
  have := (tracks.ahead_iff n).mp (Option.isSome_iff_ne_none.mpr held)
  have := (all n).mp this.1
  omega

end Steps

end Resequencer

end FixEngine
