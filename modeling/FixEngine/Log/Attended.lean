import FixEngine.Log.Interleaving

/-!
# Entries that nobody looks after

Every ticket that the consumer has not come to is held by a producer, or its item is published in a
cell of the current round. So when nobody is in `push`, all that was pushed can be popped.
-/

namespace FixEngine

namespace LogRing

variable {ι α : Type} {state after : LogRing ι α}

/-- Every entry that was pushed and is not taken yet is in a cell, or has a producer that still
works on it. -/
def Attended (state : LogRing ι α) : Prop :=
  ∀ n, state.freed ≤ n → n < state.pushed.length →
    (∃ producer, (state.producers producer).ticket? = some n) ∨
      (n < state.freed + MpscRing.capacity ∧ (state.cell n).epoch = (n + 1) % word64)

/-- Steps that change no ticket and no epoch. -/
theorem Attended.frame (attended : state.Attended) (freed : after.freed = state.freed)
    (pushed : after.pushed = state.pushed)
    (tickets : ∀ producer,
      (after.producers producer).ticket? = (state.producers producer).ticket?)
    (epochs : ∀ n, (after.cell n).epoch = (state.cell n).epoch) : after.Attended := by
  intro n low high
  rw [freed] at low
  rw [pushed] at high
  rcases attended n low high with ⟨producer, holds⟩ | ⟨inside, epoch⟩
  · exact .inl ⟨producer, (tickets producer).trans holds⟩
  · rw [freed, epochs]
    exact .inr ⟨inside, epoch⟩

theorem epoch_storeData (ring : MpscRing α) (ticket : ℕ) (data : α) (place : ℕ) :
    ((ring.storeData ticket data).buff place).epoch = (ring.buff place).epoch := by
  by_cases same : place = MpscRing.cellOf ticket
  · simp [MpscRing.storeData, same]
  · simp [MpscRing.storeData, same]

/-- The released cell is one that the consumer has come to. -/
theorem Attended.release (attended : state.Attended) (sound : state.Sound) {out : α}
    (place : state.consumer = .moved out) :
    ({ state with
        ring := state.ring.storeEpoch state.ring.tail (state.ring.tail + MpscRing.capacity)
        consumer := .released out } : LogRing ι α).Attended := by
  have freed : state.freed = state.returned.length := by rw [LogRing.freed, place]
  intro n low high
  change state.returned.length + 1 ≤ n at low
  rcases attended n (by omega) high with ⟨producer, holds⟩ | ⟨inside, epoch⟩
  · exact .inl ⟨producer, holds⟩
  · right
    rw [freed] at inside
    have differs := MpscRing.cell_ne (Nat.le_of_lt low) inside (Nat.le_refl _)
      (Nat.lt_add_of_pos_right (by decide)) (Nat.ne_of_gt low)
    refine ⟨?_, ?_⟩
    · change n < state.returned.length + 1 + MpscRing.capacity
      omega
    · simp only [cell, MpscRing.storeEpoch, sound.cell_tail]
      rw [Function.update_of_ne differs]
      exact epoch

theorem attended_new [Inhabited α] : (new : LogRing ι α).Attended := by
  intro n _ high
  cases high

/-- Where `pop` finds nothing, all items were popped, or the next one's producer is not done. -/
theorem Attended.empty (attended : state.Attended) (sound : state.Sound)
    (idle : state.consumer = .idle)
    (refused : state.ring.loadEpoch state.ring.tail ≠ (state.ring.tail + 1) % word64) :
    state.returned = state.pushed ∨
      ∃ producer, (state.producers producer).ticket? = some state.returned.length := by
  have freed : state.freed = state.returned.length := by rw [LogRing.freed, idle]
  by_cases all : state.returned.length = state.pushed.length
  · exact .inl (sound.returned.eq_of_length all)
  · have le := sound.returned.length_le
    rcases attended state.returned.length (by omega) (by omega) with holds | ⟨-, epoch⟩
    · exact .inr holds
    · rw [cell, ← sound.cell_tail] at epoch
      refine absurd (epoch.trans ?_) refused
      rw [sound.tail, Nat.mod_add_mod]

/-- When no producer has a ticket, at most 1024 items are left. -/
theorem Attended.few_left (attended : state.Attended)
    (idle : ∀ producer, state.producers producer = .idle) :
    state.pushed.length ≤ state.freed + MpscRing.capacity := by
  by_contra many
  rcases attended (state.freed + MpscRing.capacity) (Nat.le_add_right _ _) (by omega) with
    ⟨producer, holds⟩ | ⟨inside, -⟩
  · rw [idle producer] at holds
    cases holds
  · exact absurd inside (Nat.lt_irrefl _)

variable [DecidableEq ι]

theorem ticket?_withProducer (state : LogRing ι α) {producer : ι} {pc : Producer α}
    (same : pc.ticket? = (state.producers producer).ticket?) (other : ι) :
    ((state.withProducer producer pc).producers other).ticket? =
      (state.producers other).ticket? := by
  rw [producers_withProducer]
  split
  · next equal => rw [equal, same]
  · rfl

/-- A new ticket is held by the producer that takes it. -/
theorem Attended.start (attended : state.Attended) (sound : state.Sound)
    (few : state.pushed.length < word64) {producer : ι} (idle : state.producers producer = .idle)
    (data : α) : ({ state with
        ring := state.ring.fetchAdd.2
        pushed := state.pushed ++ [data] }.withProducer producer
      (.waiting state.ring.fetchAdd.1 data)).Attended := by
  have ticket : state.ring.fetchAdd.1 = state.pushed.length :=
    sound.head.trans (Nat.mod_eq_of_lt few)
  intro n low high
  have inside : n < state.pushed.length + 1 := by
    have length : (state.pushed ++ [data]).length = state.pushed.length + [data].length :=
      List.length_append
    exact Nat.lt_of_lt_of_eq high length
  by_cases new : n = state.pushed.length
  · left
    refine ⟨producer, ?_⟩
    rw [producers_withProducer, if_pos rfl, Producer.ticket?, ticket, new]
  · rcases attended n low (by omega) with ⟨other, holds⟩ | published
    · left
      refine ⟨other, ?_⟩
      have differs : other ≠ producer := by
        rintro rfl
        rw [idle] at holds
        cases holds
      rw [producers_withProducer, if_neg differs]
      exact holds
    · exact .inr published

/-- A ticket is given up when its item is published. -/
theorem Attended.publish (attended : state.Attended) (sound : state.Sound) {producer : ι}
    {ticket : ℕ} (place : state.producers producer = .publishing ticket) :
    ({ state with ring := state.ring.storeEpoch ticket (ticket + 1) }.withProducer producer
      .idle).Attended := by
  have holds : (state.producers producer).ticket? = some ticket := by rw [place]; rfl
  have bounds := sound.held producer ticket holds
  have inside := sound.past producer ticket (by rw [place]; rfl)
  intro n low high
  by_cases own : n = ticket
  · right
    refine ⟨own ▸ inside, ?_⟩
    simp [cell, withProducer, MpscRing.storeEpoch, MpscRing.cellOf_eq, own]
  · rcases attended n low high with ⟨other, holdsOther⟩ | ⟨insideOther, epoch⟩
    · left
      refine ⟨other, ?_⟩
      have differs : other ≠ producer := by
        rintro rfl
        rw [holds, Option.some.injEq] at holdsOther
        exact own holdsOther.symm
      rw [producers_withProducer, if_neg differs]
      exact holdsOther
    · right
      refine ⟨insideOther, ?_⟩
      have differs := MpscRing.cell_ne low insideOther bounds.1 inside own
      simp only [cell, withProducer, MpscRing.storeEpoch, MpscRing.cellOf_eq]
      rw [Function.update_of_ne differs]
      exact epoch

theorem Attended.step (attended : state.Attended) (sound : state.Sound) (leftover : α → α)
    (few : state.pushed.length < word64) (event : Event ι α) :
    (state.step leftover event).Attended := by
  cases event with
  | start producer data =>
      simp only [LogRing.step]
      split
      · next idle => exact attended.start sound few idle data
      · exact attended
  | spin producer =>
      simp only [LogRing.step]
      split
      · next ticket data place =>
          split
          · exact attended
          · refine attended.frame rfl rfl (state.ticket?_withProducer ?_) fun _ => rfl
            rw [place]
            rfl
      · exact attended
  | write producer =>
      simp only [LogRing.step]
      split
      · next ticket data place =>
          refine attended.frame rfl rfl (state.ticket?_withProducer ?_) ?_
          · rw [place]
            rfl
          · intro n
            exact epoch_storeData state.ring ticket data _
      · exact attended
  | publish producer =>
      simp only [LogRing.step]
      split
      · next ticket place => exact attended.publish sound place
      · exact attended
  | check =>
      simp only [LogRing.step]
      split
      · next place =>
          split
          · exact attended
          · refine attended.frame ?_ rfl (fun _ => rfl) fun _ => rfl
            rw [freed, freed, place]
      · exact attended
  | take =>
      simp only [LogRing.step]
      split
      · next place =>
          refine attended.frame ?_ rfl (fun _ => rfl) ?_
          · rw [freed, freed, place]
          · intro n
            exact epoch_storeData state.ring _ _ _
      · exact attended
  | release =>
      simp only [LogRing.step]
      split
      · next out place => exact attended.release sound place
      · exact attended
  | finish =>
      simp only [LogRing.step]
      split
      · next out place =>
          refine attended.frame ?_ rfl (fun _ => rfl) fun _ => rfl
          rw [freed, freed, place]
          simp
      · exact attended

end LogRing

end FixEngine
