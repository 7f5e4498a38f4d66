import FixEngine.Outbound.Resending

/-!
# The resend stream partitions its range

Asked for actions until it has no more, the stream yields intervals that follow one another from
the beginning of the range to its end. A gap fill covers a maximal run of administrative messages
of the range, and any other action one message that is not administrative.
-/

namespace FixEngine

namespace ResendStream

/-- `while (stream.has_next()) stream.next()`; `none` when there are more rounds. -/
def collect : ℕ → ResendStream → Option (List ResendAction)
  | 0, _ => none
  | rounds + 1, stream =>
      if stream.hasNext then (collect rounds stream.next.2).map (stream.next.1 :: ·) else some []

/-- Message `number` of the table is never sent again. -/
def isAdmin (index : List MsgIndex) (number : ℕ) : Bool :=
  (index[number - 1]?.map fun entry => noResend entry.msgType).getD false

/-- The intervals are not empty and follow one another from `first` to `last`. -/
def Consecutive : ℕ → ℕ → List ResendAction → Prop
  | first, last, [] => first = last + 1
  | first, last, action :: rest =>
      action.beginSeqNo = first ∧ first ≤ action.endSeqNo ∧ action.endSeqNo ≤ last ∧
        Consecutive (action.endSeqNo + 1) last rest

/-- What an action of the range from `first` to `last` says about its interval. -/
structure Describes (index : List MsgIndex) (first last : ℕ) (action : ResendAction) : Prop where
  gapFill : action.gapFill = true →
    (∀ number, action.beginSeqNo ≤ number → number ≤ action.endSeqNo →
      isAdmin index number = true) ∧
    (action.beginSeqNo = first ∨ isAdmin index (action.beginSeqNo - 1) = false) ∧
    (action.endSeqNo = last ∨ isAdmin index (action.endSeqNo + 1) = false)
  resend : action.gapFill = false →
    action.endSeqNo = action.beginSeqNo ∧ isAdmin index action.beginSeqNo = false

/-- The actions cut the range into intervals of the two kinds. -/
structure Partitions (index : List MsgIndex) (first last : ℕ) (actions : List ResendAction) :
    Prop where
  consecutive : Consecutive first last actions
  describes : ∀ action ∈ actions, Describes index first last action

section Partition

variable {stream : ResendStream} {position : ℕ}

/-- Inside the range the scan asks whether the message is administrative. -/
theorem Bounded.atAdmin_moveTo (bounded : stream.Bounded) (positive : 1 ≤ position)
    (within : position ≤ stream.endSeqNo) :
    (stream.moveTo position).atAdmin = isAdmin stream.outboundIndex position := by
  have moved := bounded.moveTo positive within
  have small : position % word32 = position := by
    have := bounded.covered
    have := bounded.few
    exact Nat.mod_eq_of_lt (by omega)
  have placed : (stream.moveTo position).currentIndex = position := small
  rw [atAdmin, moved.hasNext, Bool.true_and, moved.entry_eq, placed]
  rfl

/-- One action describes its interval, as long as no run of administrative messages goes on from
the left into the place where the stream stands. -/
theorem Bounded.next_describes {first : ℕ} (bounded : stream.Bounded)
    (edge : stream.currentIndex = first ∨
      isAdmin stream.outboundIndex (stream.currentIndex - 1) = false ∨
      isAdmin stream.outboundIndex stream.currentIndex = false) :
    ∃ stop, stream.currentIndex < stop ∧ stop ≤ stream.endSeqNo + 1 ∧
      stream.next.2 = stream.moveTo stop ∧
      stream.next.1.beginSeqNo = stream.currentIndex ∧ stream.next.1.endSeqNo + 1 = stop ∧
      Describes stream.outboundIndex first stream.endSeqNo stream.next.1 ∧
      (stop ≤ stream.endSeqNo → isAdmin stream.outboundIndex (stop - 1) = false ∨
        isAdmin stream.outboundIndex stop = false) := by
  have positive := bounded.positive
  have within := bounded.within
  have read : stream.atAdmin = isAdmin stream.outboundIndex stream.currentIndex := by
    have moved := bounded.atAdmin_moveTo positive within
    rwa [bounded.here] at moved
  rcases bounded.next_eq with ⟨stop, low, high, nextEq, one, run⟩
  refine ⟨stop, low, high, by rw [nextEq], by rw [nextEq], ?_, ?_, ?_⟩
  · rw [nextEq]
    dsimp only
    omega
  · rw [nextEq]
    constructor
    · intro admin
      rcases run admin with ⟨skipped, stands⟩
      refine ⟨?_, ?_, ?_⟩
      · intro number fromHere before
        have inside : number ≤ stop - 1 := before
        rw [← bounded.atAdmin_moveTo (positive.trans fromHere) (by omega)]
        exact skipped number fromHere (by omega)
      · rcases edge with start | before | other
        · exact .inl start
        · exact .inr before
        · rw [← read] at other
          exact absurd admin (by simp [other])
      · show stop - 1 = stream.endSeqNo ∨ isAdmin stream.outboundIndex (stop - 1 + 1) = false
        rcases Nat.lt_or_ge stream.endSeqNo stop with after | inside
        · exact .inl (by omega)
        · have stopEq : stop - 1 + 1 = stop := by omega
          rw [bounded.atAdmin_moveTo (by omega) inside] at stands
          rw [stopEq]
          exact .inr stands
    · intro other
      have stopEq := one other
      refine ⟨?_, by rw [← read]; exact other⟩
      show stop - 1 = stream.currentIndex
      omega
  · intro inside
    cases admin : stream.atAdmin with
    | true =>
        have stands := (run admin).2
        rw [bounded.atAdmin_moveTo (by omega) inside] at stands
        exact .inr stands
    | false =>
        have stopEq := one admin
        left
        rw [stopEq, Nat.add_sub_cancel, ← read]
        exact admin

/-- The loop ends when every number of the range was covered. -/
theorem collect_partitions {first : ℕ} (positive : 1 ≤ stream.currentIndex)
    (high : stream.currentIndex ≤ stream.endSeqNo + 1)
    (covered : stream.endSeqNo ≤ stream.outboundIndex.length)
    (few : stream.outboundIndex.length + 1 < word32)
    (edge : stream.currentIndex ≤ stream.endSeqNo → stream.currentIndex = first ∨
      isAdmin stream.outboundIndex (stream.currentIndex - 1) = false ∨
      isAdmin stream.outboundIndex stream.currentIndex = false) :
    ∃ actions, (∀ rounds, stream.endSeqNo + 1 - stream.currentIndex < rounds →
        stream.collect rounds = some actions) ∧
      Consecutive stream.currentIndex stream.endSeqNo actions ∧
      ∀ action ∈ actions, Describes stream.outboundIndex first stream.endSeqNo action := by
  induction left : stream.endSeqNo + 1 - stream.currentIndex using Nat.strongRecOn
    generalizing stream with
  | ind left ih =>
      by_cases within : stream.currentIndex ≤ stream.endSeqNo
      · have bounded : stream.Bounded := ⟨positive, within, covered, by omega⟩
        rcases bounded.next_describes (edge within) with
          ⟨stop, low, stopLe, nextEq, begins, ends, describes, later⟩
        have placed : (stream.moveTo stop).currentIndex = stop := Nat.mod_eq_of_lt (by omega)
        have sameEnd : (stream.moveTo stop).endSeqNo = stream.endSeqNo := rfl
        rcases @ih (stream.endSeqNo + 1 - stop) (by omega) (stream.moveTo stop)
          (by omega) (by omega) covered few
          (by
            intro inside
            rw [placed] at inside ⊢
            exact .inr (later inside))
          (by rw [placed, sameEnd]) with ⟨actions, collected, consecutive, described⟩
        refine ⟨stream.next.1 :: actions, ?_, ?_, ?_⟩
        · intro rounds enough
          rcases rounds with _ | rounds
          · omega
          · rw [collect, if_pos bounded.hasNext, nextEq, collected rounds (by omega)]
            rfl
        · rw [placed, ← ends] at consecutive
          exact ⟨begins, by omega, by omega, consecutive⟩
        · intro action mem
          rcases List.mem_cons.mp mem with same | mem
          · rw [same]
            exact describes
          · exact described action mem
      · have done : stream.hasNext = false := decide_eq_false within
        refine ⟨[], ?_, ?_, by simp⟩
        · intro rounds enough
          rcases rounds with _ | rounds
          · omega
          · rw [collect, done]
            rfl
        · show stream.currentIndex = stream.endSeqNo + 1
          omega

end Partition

end ResendStream

namespace MessageStore

/-- For a table of fewer than 2^32 - 1 entries, the loop over the stream of a range ends after at
most one round for each number; its actions partition the range, and there are none when the range
is empty. -/
theorem collect_getResendStream (store : MessageStore) (beginSeqNo endSeqNo : ℕ)
    (few : store.outboundIndex.length < word32 - 1) :
    (1 ≤ beginSeqNo → beginSeqNo ≤ endSeqNo → endSeqNo ≤ store.outboundIndex.length →
      ∃ actions, (∀ rounds, endSeqNo + 1 - beginSeqNo < rounds →
          (store.getResendStream beginSeqNo endSeqNo).collect rounds = some actions) ∧
        ResendStream.Partitions store.outboundIndex beginSeqNo endSeqNo actions) ∧
    (endSeqNo < beginSeqNo → ∀ rounds, 0 < rounds →
      (store.getResendStream beginSeqNo endSeqNo).collect rounds = some []) := by
  constructor
  · intro positive range covered
    rcases @ResendStream.collect_partitions (store.getResendStream beginSeqNo endSeqNo) beginSeqNo
      positive (Nat.le_succ_of_le range) covered (by
        simp only [word32] at *
        exact show store.outboundIndex.length + 1 < _ by omega)
      (fun _ => .inl rfl) with ⟨actions, collected, consecutive, describes⟩
    exact ⟨actions, collected, consecutive, describes⟩
  · intro empty rounds some
    have done : (store.getResendStream beginSeqNo endSeqNo).hasNext = false :=
      decide_eq_false (Nat.not_le_of_lt empty)
    rcases rounds with _ | rounds
    · omega
    · rw [ResendStream.collect, done]
      rfl

/-- Two heartbeats, an order and a logout. -/
theorem collect_getResendStream_mixed :
    ∃ actions, (∀ rounds, 4 < rounds →
        (getResendStream { new with
            outboundIndex := [ascii "0", ascii "0", ascii "D", ascii "5"].map fun type =>
              { msgType := type } } 1 4).collect rounds = some actions) ∧
      ResendStream.Partitions ([ascii "0", ascii "0", ascii "D", ascii "5"].map fun type =>
        { msgType := type }) 1 4 actions :=
  (collect_getResendStream { new with
      outboundIndex := [ascii "0", ascii "0", ascii "D", ascii "5"].map fun type =>
        { msgType := type } } 1 4 (by decide)).1 (by decide) (by decide) (by decide)

end MessageStore

end FixEngine
