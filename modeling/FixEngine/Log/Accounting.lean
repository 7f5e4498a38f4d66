import FixEngine.Log.Attended
import FixEngine.Log.Files

/-!
# What the log core keeps

Between any two steps the entries that were popped are those written and the one in the thread's hand,
the files hold what was written, and in the last loop enough rounds are left for what is in the ring.
-/

namespace FixEngine

open Relation (ReflTransGen)

namespace LogFileSink

/-- The entry that a call writes. -/
def Call.write? : Call → Option LogEntry
  | .addSession _ => none
  | .write entry => some entry

/-- The entries handed to `write`. -/
def written (calls : List Call) : List LogEntry := calls.filterMap Call.write?

theorem written_concat_write (calls : List Call) (entry : LogEntry) :
    written (calls ++ [.write entry]) = written calls ++ [entry] := by
  simp [written, Call.write?]

theorem written_concat_add (calls : List Call) (sessId : SessionID) :
    written (calls ++ [.addSession sessId]) = written calls := by
  simp [written, Call.write?]

end LogFileSink

/-- When everything is popped the consumer is not in a `pop` that takes something. -/
theorem LogRing.Sound.idle_of_all {ι α : Type} {state : LogRing ι α} (sound : state.Sound)
    (all : state.pushed.length ≤ state.returned.length) : state.consumer = .idle := by
  have consumer := sound.consumer
  cases place : state.consumer with
  | idle => rfl
  | matched =>
      simp only [ConsumerSound, place] at consumer
      have := consumer.lt
      omega
  | moved out =>
      simp only [ConsumerSound, place] at consumer
      have := consumer.1.lt
      omega
  | released out =>
      simp only [ConsumerSound, place] at consumer
      have := (List.getElem?_eq_some_iff.mp consumer).1
      omega

namespace Drain

/-- The entry that was popped and is not written yet. -/
def inHand : Drain → List LogEntry
  | .writing _ entry => [entry]
  | .flushing _ entry => [entry]
  | _ => []

/-- In a `pop`. -/
def atPop : Drain → Bool
  | .popping _ => true
  | .finishing _ => true
  | _ => false

/-- How many rounds of the last loop are left. -/
def rounds? : Drain → Option ℕ
  | .finishing cnt => some (MpscRing.capacity - cnt)
  | .flushing cnt _ => some (MpscRing.capacity - (cnt + 1))
  | .ended => some 0
  | _ => none

end Drain

namespace LogCore

open LogFileSink (added written entriesOf maxLruCacheSize)

variable {ι : Type} {order : List ℕ} {depth : ℕ} {leftover : LogEntry → LogEntry}
  {core after : LogCore ι}

/-- What holds between the steps. -/
structure Sound (core : LogCore ι) : Prop where
  ring : core.ring.Sound
  attended : core.ring.Attended
  idle : core.drain.atPop = false → core.ring.consumer = .idle
  returned_eq : core.ring.returned = written core.calls ++ core.drain.inHand
  registered : ∀ entry ∈ core.ring.pushed, entry.sessId.id ∈ added core.calls
  holds : core.drain ≠ .ended → core.sink.Holds core.calls
  files_eq : core.drain = .ended → ∀ session ∈ added core.calls,
    core.files session = some ⟨false, LogFileSink.array (entriesOf session core.calls)⟩
  running : core.drain ≠ .failed
  calm : core.owner ≠ .alive → core.Calm
  woken : core.owner = .joining → core.drain = .acquiring → 0 < core.permits
  left : ∀ rounds, core.drain.rounds? = some rounds →
    core.owner ≠ .alive ∧ core.ring.pushed.length ≤ core.ring.returned.length + rounds

/-- The assumptions on a run: tickets do not run out, no file has to be closed for another one, and
`shutdown` walks the map from one end to the other. -/
structure Bounded (order : List ℕ) (core : LogCore ι) : Prop where
  few : core.ring.pushed.length < word64
  room : (added core.calls).toFinset.card ≤ maxLruCacheSize
  walked : core.owner ≠ .alive → order.Nodup ∧
    ∀ session, session ∈ order ↔ session ∈ added core.calls

theorem sound_new : (new : LogCore ι).Sound where
  ring := LogRing.sound_new
  attended := LogRing.attended_new
  idle := fun _ => rfl
  returned_eq := rfl
  registered := by
    intro entry among
    cases among
  holds := fun _ => LogFileSink.holds_new
  files_eq := by
    intro ended
    cases ended
  running := by
    intro failed
    cases failed
  calm := fun dead => absurd rfl dead
  woken := by
    intro joining
    cases joining
  left := by
    intro rounds finishing
    cases finishing

section Drain

/-- The thread goes on with something else. -/
theorem Sound.withDrain (sound : core.Sound) {drain : Drain}
    (idle : core.ring.consumer = .idle) (settled : core.drain.inHand = [])
    (nothing : drain.inHand = []) (notEnded : core.drain ≠ .ended) (goesOn : drain ≠ .ended)
    (notFailed : drain ≠ .failed)
    (woken : core.owner = .joining → drain = .acquiring → 0 < core.permits)
    (left : ∀ rounds, drain.rounds? = some rounds →
      core.owner ≠ .alive ∧ core.ring.pushed.length ≤ core.ring.returned.length + rounds) :
    (core.withDrain drain).Sound where
  ring := sound.ring
  attended := sound.attended
  idle := fun _ => idle
  returned_eq := by
    have returned_eq := sound.returned_eq
    rw [settled] at returned_eq
    exact returned_eq.trans (congrArg (written core.calls ++ ·) nothing.symm)
  registered := sound.registered
  holds := fun _ => sound.holds notEnded
  files_eq := fun ended => absurd ended goesOn
  running := notFailed
  calm := sound.calm
  woken := woken
  left := left

theorem Sound.takePermit (sound : core.Sound) {drained : ℕ} (idle : core.ring.consumer = .idle)
    (settled : core.drain.inHand = []) (notEnded : core.drain ≠ .ended) :
    (core.takePermit (.popping drained)).Sound := by
  have working : (core.withDrain (.popping drained)).Sound :=
    sound.withDrain idle settled rfl notEnded (by intro ended; cases ended)
      (by intro failed; cases failed) (by intro _ acquiring; cases acquiring)
      (by intro rounds finishing; cases finishing)
  exact ⟨working.ring, working.attended, working.idle, working.returned_eq, working.registered,
    working.holds, working.files_eq, working.running, working.calm,
    (by intro _ acquiring; cases acquiring), working.left⟩

/-- The entry that was popped is written. -/
theorem Sound.writeStep (sound : core.Sound) {entry : LogEntry} {next : Drain}
    (inHand : core.drain.inHand = [entry]) (idle : core.drain.atPop = false)
    (nothing : next.inHand = []) (notEnded : core.drain ≠ .ended) (goesOn : next ≠ .ended)
    (notFailed : next ≠ .failed) (notAcquiring : next ≠ .acquiring)
    (left : ∀ rounds, next.rounds? = some rounds → core.drain.rounds? = some rounds) (depth : ℕ) :
    (core.writeStep (depth + 1) entry next).Sound := by
  have returned_eq := sound.returned_eq
  rw [inHand] at returned_eq
  have popped : entry ∈ core.ring.pushed := by
    refine sound.ring.returned.subset ?_
    rw [returned_eq]
    simp
  have known := sound.registered entry popped
  rcases (sound.holds notEnded).write known depth with ⟨sink, wrote, holds⟩
  rw [LogCore.writeStep, wrote]
  refine ⟨sound.ring, sound.attended, fun _ => sound.idle idle, ?_, ?_, fun _ => holds,
    fun ended => absurd ended goesOn, notFailed, sound.calm,
    fun _ acquiring => absurd acquiring notAcquiring, ?_⟩
  · change core.ring.returned = written (core.calls ++ [.write entry]) ++ next.inHand
    rw [returned_eq, nothing, List.append_nil, LogFileSink.written_concat_write]
  · intro other among
    change other.sessId.id ∈ added (core.calls ++ [.write entry])
    rw [LogFileSink.added_concat_write]
    exact sound.registered other among
  · intro rounds finishing
    exact sound.left rounds (left rounds finishing)

/-- All entries are written and the files are complete. -/
theorem Sound.shutdownStep (sound : core.Sound) (bounded : core.Bounded order) {cnt : ℕ}
    (finishing : core.drain = .finishing cnt) (all : MpscRing.capacity ≤ cnt) (depth : ℕ) :
    (core.shutdownStep order (depth + 1)).Sound ∧
      (core.shutdownStep order (depth + 1)).drain = .ended := by
  have left := sound.left (MpscRing.capacity - cnt) (by rw [finishing]; rfl)
  rw [Nat.sub_eq_zero_of_le all] at left
  have returned_eq := sound.returned_eq
  rw [finishing] at returned_eq
  rcases bounded.walked left.1 with ⟨once, walked⟩
  rcases (sound.holds (by rw [finishing]; simp)).closeAll once walked depth with
    ⟨sink, closed, files⟩
  rw [LogCore.shutdownStep, closed]
  refine ⟨⟨sound.ring, sound.attended, fun _ => sound.ring.idle_of_all left.2, returned_eq,
    sound.registered, fun going => absurd rfl going, fun _ => files, (by intro failed; cases failed), sound.calm,
    (by intro _ acquiring; cases acquiring), ?_⟩, rfl⟩
  intro rounds _
  exact ⟨left.1, Nat.le_trans left.2 (Nat.le_add_right _ _)⟩

variable [DecidableEq ι]

/-- A step of the consumer in the ring, in the middle of `pop`. -/
theorem Sound.withRing (sound : core.Sound) (few : core.ring.pushed.length < word64)
    (leftover : LogEntry → LogEntry) (event : LogRing.Event ι LogEntry)
    (atPop : core.drain.atPop = true)
    (producers : (core.ring.step leftover event).producers = core.ring.producers)
    (pushed : (core.ring.step leftover event).pushed = core.ring.pushed)
    (returned : (core.ring.step leftover event).returned = core.ring.returned) :
    (core.withRing leftover event).Sound where
  ring := sound.ring.step leftover few event
  attended := sound.attended.step sound.ring leftover few event
  idle := by
    intro other
    change core.drain.atPop = false at other
    rw [atPop] at other
    cases other
  returned_eq := returned.trans sound.returned_eq
  registered := by
    intro entry among
    exact sound.registered entry (pushed ▸ among)
  holds := sound.holds
  files_eq := sound.files_eq
  running := sound.running
  calm := by
    intro dead producer
    have idle := sound.calm dead producer
    exact ⟨(congrFun producers producer).trans idle.1, idle.2⟩
  woken := sound.woken
  left := by
    intro rounds finishing
    have left := sound.left rounds finishing
    rw [← pushed, ← returned] at left
    exact left

/-- `pop` returns an entry. -/
theorem Sound.finishPop (sound : core.Sound) (few : core.ring.pushed.length < word64)
    (leftover : LogEntry → LogEntry) {out : LogEntry} {next : Drain}
    (place : core.ring.consumer = .released out) (settled : core.drain.inHand = [])
    (inHand : next.inHand = [out]) (notEnded : core.drain ≠ .ended) (goesOn : next ≠ .ended)
    (notFailed : next ≠ .failed) (notAcquiring : next ≠ .acquiring)
    (left : ∀ rounds, next.rounds? = some rounds → core.drain.rounds? = some (rounds + 1)) :
    ((core.withRing leftover .finish).withDrain next).Sound := by
  have returned : (core.ring.step leftover .finish).returned = core.ring.returned ++ [out] := by
    simp [LogRing.step, place]
  have pushed : (core.ring.step leftover .finish).pushed = core.ring.pushed := by
    simp [LogRing.step, place]
  have returned_eq := sound.returned_eq
  rw [settled, List.append_nil] at returned_eq
  refine ⟨sound.ring.step leftover few .finish, sound.attended.step sound.ring leftover few .finish,
    ?_, ?_, ?_, fun _ => sound.holds notEnded, fun ended => absurd ended goesOn, notFailed, ?_,
    fun _ acquiring => absurd acquiring notAcquiring, ?_⟩
  · intro _
    change (core.ring.step leftover .finish).consumer = .idle
    simp [LogRing.step, place]
  · change (core.ring.step leftover .finish).returned = written core.calls ++ next.inHand
    rw [returned, returned_eq, inHand]
  · intro entry among
    exact sound.registered entry (pushed ▸ among)
  · intro dead producer
    have idle := sound.calm dead producer
    refine ⟨?_, idle.2⟩
    change (core.ring.step leftover .finish).producers producer = .idle
    simp only [LogRing.step, place]
    exact idle.1
  · intro rounds finishing
    have left := sound.left (rounds + 1) (left rounds finishing)
    refine ⟨left.1, ?_⟩
    change (core.ring.step leftover .finish).pushed.length ≤
      (core.ring.step leftover .finish).returned.length + rounds
    rw [pushed, returned, List.length_append, List.length_singleton]
    omega

/-- A step of `pop` in one of the two loops. -/
theorem Sound.popStep (sound : core.Sound) (few : core.ring.pushed.length < word64)
    (leftover : LogEntry → LogEntry) {empty : Drain} {popped : LogEntry → Drain}
    (atPop : core.drain.atPop = true) (settled : core.drain.inHand = [])
    (nothing : empty.inHand = []) (inHand : ∀ out, (popped out).inHand = [out])
    (notEnded : core.drain ≠ .ended) (goesOn : empty ≠ .ended ∧ ∀ out, popped out ≠ .ended)
    (notFailed : empty ≠ .failed ∧ ∀ out, popped out ≠ .failed)
    (notAcquiring : empty ≠ .acquiring ∧ ∀ out, popped out ≠ .acquiring)
    (dead : empty.rounds? ≠ none → core.owner ≠ .alive)
    (left : ∀ out rounds, (popped out).rounds? = some rounds →
      core.drain.rounds? = some (rounds + 1)) :
    (core.popStep leftover empty popped).Sound := by
  rw [LogCore.popStep]
  split
  · next idle =>
      split
      · next refused =>
          refine sound.withDrain idle settled nothing notEnded goesOn.1 notFailed.1
            (fun _ acquiring => absurd acquiring notAcquiring.1) ?_
          intro rounds finishing
          have gone := dead (by rw [finishing]; simp)
          refine ⟨gone, ?_⟩
          rcases sound.attended.empty sound.ring idle refused with all | ⟨producer, holds⟩
          · rw [all]
            exact Nat.le_add_right _ _
          · rw [(sound.calm gone producer).1] at holds
            cases holds
      · next turn =>
          rw [not_not] at turn
          refine sound.withRing few leftover .check atPop ?_ ?_ ?_ <;>
            simp [LogRing.step, idle, turn]
  · next place =>
      refine sound.withRing few leftover .take atPop ?_ ?_ ?_ <;> simp [LogRing.step, place]
  · next out place =>
      refine sound.withRing few leftover .release atPop ?_ ?_ ?_ <;> simp [LogRing.step, place]
  · next out place =>
      exact sound.finishPop few leftover place settled (inHand out) notEnded (goesOn.2 out)
        (notFailed.2 out) (notAcquiring.2 out) (left out)

/-- A step of the thread. -/
theorem Sound.drainStep (sound : core.Sound) (bounded : core.Bounded order)
    (moves : core.drainStep order (depth + 1) leftover = some after) : after.Sound := by
  have few := bounded.few
  have idle := sound.idle
  cases place : core.drain with
  | checking =>
      rw [place] at idle
      simp only [LogCore.drainStep, place, Option.some.injEq] at moves
      subst moves
      by_cases alive : core.owner = .alive
      · rw [if_pos alive]
        refine sound.withDrain (idle rfl) (by rw [place]; rfl) rfl (by simp [place]) (by simp)
          (by simp) ?_ (by simp [Drain.rounds?])
        intro joining
        rw [alive] at joining
        cases joining
      · rw [if_neg alive]
        refine sound.withDrain (idle rfl) (by rw [place]; rfl) rfl (by simp [place]) (by simp)
          (by simp) (by simp) ?_
        intro rounds finishing
        refine ⟨alive, ?_⟩
        have few_left := sound.attended.few_left fun producer => (sound.calm alive producer).1
        have freed : core.ring.freed = core.ring.returned.length := by rw [LogRing.freed, idle rfl]
        rw [freed] at few_left
        simp only [Drain.rounds?, Option.some.injEq] at finishing
        omega
  | acquiring =>
      rw [place] at idle
      simp only [LogCore.drainStep, place] at moves
      split at moves
      · cases moves
      · cases moves
        exact sound.takePermit (idle rfl) (by rw [place]; rfl) (by simp [place])
  | popping drained =>
      simp only [LogCore.drainStep, place, Option.some.injEq] at moves
      subst moves
      exact sound.popStep few leftover (by rw [place]; rfl) (by rw [place]; rfl) rfl (fun _ => rfl)
        (by simp [place]) (by simp) (by simp) (by simp) (fun some => absurd rfl some)
        (by simp [Drain.rounds?])
  | writing drained entry =>
      rw [place] at idle
      simp only [LogCore.drainStep, place, Option.some.injEq] at moves
      subst moves
      refine sound.writeStep (by rw [place]; rfl) (by rw [place]; rfl) ?_ (by simp [place]) ?_ ?_ ?_
        ?_ depth
      all_goals split <;> simp [Drain.inHand, Drain.rounds?]
  | trying drained =>
      rw [place] at idle
      simp only [LogCore.drainStep, place, Option.some.injEq] at moves
      subst moves
      split
      · exact sound.withDrain (idle rfl) (by rw [place]; rfl) rfl (by simp [place]) (by simp)
          (by simp) (by simp) (by simp [Drain.rounds?])
      · exact sound.takePermit (idle rfl) (by rw [place]; rfl) (by simp [place])
  | finishing cnt =>
      have left := sound.left (MpscRing.capacity - cnt) (by rw [place]; rfl)
      simp only [LogCore.drainStep, place] at moves
      split at moves
      · next more =>
          cases moves
          refine sound.popStep few leftover (by rw [place]; rfl) (by rw [place]; rfl) rfl
            (fun _ => rfl) (by simp [place]) (by simp) (by simp) (by simp) (fun _ => left.1) ?_
          intro out rounds same
          simp only [Drain.rounds?, Option.some.injEq, place] at same ⊢
          omega
      · next all =>
          cases moves
          exact (sound.shutdownStep bounded place (Nat.le_of_not_lt all) depth).1
  | flushing cnt entry =>
      rw [place] at idle
      simp only [LogCore.drainStep, place, Option.some.injEq] at moves
      subst moves
      refine sound.writeStep (by rw [place]; rfl) (by rw [place]; rfl) rfl (by simp [place])
        (by simp) (by simp) (by simp) ?_ depth
      intro rounds same
      rw [place]
      exact same
  | ended =>
      simp only [LogCore.drainStep, place] at moves
      cases moves
  | failed => exact absurd place sound.running

end Drain

section Run

variable [DecidableEq ι]

/-- A producer goes on with its ticket. -/
theorem Sound.producer (sound : core.Sound) (few : core.ring.pushed.length < word64)
    (leftover : LogEntry → LogEntry) (event : LogRing.Event ι LogEntry) (alive : core.owner = .alive)
    (pushed : (core.ring.step leftover event).pushed = core.ring.pushed)
    (returned : (core.ring.step leftover event).returned = core.ring.returned)
    (consumer : (core.ring.step leftover event).consumer = core.ring.consumer) :
    (core.withRing leftover event).Sound where
  ring := sound.ring.step leftover few event
  attended := sound.attended.step sound.ring leftover few event
  idle := fun other => consumer.trans (sound.idle other)
  returned_eq := returned.trans sound.returned_eq
  registered := by
    intro entry among
    exact sound.registered entry (pushed ▸ among)
  holds := sound.holds
  files_eq := sound.files_eq
  running := sound.running
  calm := fun dead => absurd alive dead
  woken := sound.woken
  left := by
    intro rounds finishing
    exact absurd alive (sound.left rounds finishing).1

/-- The thread neither pushes nor adds sessions. -/
structure SameUse (core after : LogCore ι) : Prop where
  pushed_eq : after.ring.pushed = core.ring.pushed
  added_eq : added after.calls = added core.calls
  owner_eq : after.owner = core.owner

omit [DecidableEq ι] in
theorem SameUse.bounded (same : core.SameUse after) (bounded : core.Bounded order) :
    after.Bounded order := by
  refine ⟨same.pushed_eq ▸ bounded.few, same.added_eq ▸ bounded.room, ?_⟩
  rw [same.owner_eq, same.added_eq]
  exact bounded.walked

omit [DecidableEq ι] in
theorem SameUse.symm (same : core.SameUse after) : after.SameUse core :=
  ⟨same.pushed_eq.symm, same.added_eq.symm, same.owner_eq.symm⟩

omit [DecidableEq ι] in
theorem SameUse.trans {next : LogCore ι} (same : core.SameUse after) (further : after.SameUse next) :
    core.SameUse next :=
  ⟨further.pushed_eq.trans same.pushed_eq, further.added_eq.trans same.added_eq,
    further.owner_eq.trans same.owner_eq⟩

omit [DecidableEq ι] in
theorem sameUse_writeStep (core : LogCore ι) (depth : ℕ) (entry : LogEntry) (next : Drain) :
    core.SameUse (core.writeStep depth entry next) := by
  rw [writeStep]
  split
  · exact ⟨rfl, LogFileSink.added_concat_write _ _, rfl⟩
  · exact ⟨rfl, rfl, rfl⟩
  · exact ⟨rfl, rfl, rfl⟩

theorem sameUse_popStep (core : LogCore ι) (leftover : LogEntry → LogEntry) (empty : Drain)
    (popped : LogEntry → Drain) : core.SameUse (core.popStep leftover empty popped) := by
  rw [popStep]
  split
  · next idle =>
      split
      · exact ⟨rfl, rfl, rfl⟩
      · next turn =>
          rw [not_not] at turn
          exact ⟨by simp [withRing, LogRing.step, idle, turn], rfl, rfl⟩
  · next place => exact ⟨by simp [withRing, LogRing.step, place], rfl, rfl⟩
  · next out place => exact ⟨by simp [withRing, LogRing.step, place], rfl, rfl⟩
  · next out place => exact ⟨by simp [withRing, withDrain, LogRing.step, place], rfl, rfl⟩

theorem sameUse_drainStep (moves : core.drainStep order depth leftover = some after) :
    core.SameUse after := by
  rw [drainStep] at moves
  split at moves
  · cases moves
    exact ⟨rfl, rfl, rfl⟩
  · split at moves <;> cases moves
    exact ⟨rfl, rfl, rfl⟩
  · cases moves
    exact core.sameUse_popStep _ _ _
  · cases moves
    exact core.sameUse_writeStep _ _ _
  · cases moves
    split <;> exact ⟨rfl, rfl, rfl⟩
  · split at moves <;> cases moves
    · exact core.sameUse_popStep _ _ _
    · rw [shutdownStep]
      split <;> exact ⟨rfl, rfl, rfl⟩
  · cases moves
    exact core.sameUse_writeStep _ _ _
  · cases moves
  · cases moves

/-- Before a step there were not more tickets, and not more sessions. -/
theorem Bounded.of_step (bounded : after.Bounded order)
    (step : Step order depth leftover core after) : core.Bounded order := by
  cases step with
  | add sessId sink alive returned =>
      refine ⟨bounded.few, ?_, fun dead => absurd alive dead⟩
      have more := bounded.room
      rw [LogFileSink.added_concat_add, List.toFinset_append] at more
      exact Nat.le_trans (Finset.card_le_card Finset.subset_union_left) more
  | start producer entry alive idle settled known =>
      have few := bounded.few
      exact ⟨Nat.lt_of_le_of_lt (LogRing.pushed_step leftover _ _).length_le few, bounded.room,
        fun dead => absurd alive dead⟩
  | spin producer ticket entry place =>
      exact ⟨Nat.lt_of_le_of_lt (LogRing.pushed_step leftover _ _).length_le bounded.few,
        bounded.room, bounded.walked⟩
  | write producer ticket entry place =>
      exact ⟨Nat.lt_of_le_of_lt (LogRing.pushed_step leftover _ _).length_le bounded.few,
        bounded.room, bounded.walked⟩
  | publish producer ticket place =>
      exact ⟨Nat.lt_of_le_of_lt (LogRing.pushed_step leftover _ _).length_le bounded.few,
        bounded.room, bounded.walked⟩
  | release producer releasing => exact ⟨bounded.few, bounded.room, bounded.walked⟩
  | drain after moves => exact (sameUse_drainStep moves).symm.bounded bounded
  | requestStop alive calm => exact ⟨bounded.few, bounded.room, fun dead => absurd alive dead⟩
  | releaseAll stopping =>
      refine ⟨bounded.few, bounded.room, fun _ => bounded.walked ?_⟩
      intro alive
      cases alive

theorem Sound.step (sound : core.Sound) (bounded : core.Bounded order)
    (step : Step order (depth + 1) leftover core after) (still : after.Bounded order) :
    after.Sound := by
  have few := bounded.few
  -- Nobody is in `push` when the destructor runs.
  have notCalm : ∀ producer, core.ring.producers producer ≠ .idle → core.owner = .alive := by
    intro producer busy
    by_contra dead
    exact busy (sound.calm dead producer).1
  cases step with
  | add sessId sink alive returned =>
      have notEnded : core.drain ≠ .ended := by
        intro ended
        exact (sound.left 0 (by rw [ended]; rfl)).1 alive
      rcases (sound.holds notEnded).addSession still.room depth with ⟨added, done, holds⟩
      rw [returned, Outcome.returned.injEq] at done
      subst done
      refine ⟨sound.ring, sound.attended, sound.idle, ?_, ?_, fun _ => holds,
        fun ended => absurd ended notEnded, sound.running, sound.calm, sound.woken, sound.left⟩
      · rw [LogFileSink.written_concat_add]
        exact sound.returned_eq
      · intro entry among
        rw [LogFileSink.added_concat_add]
        exact List.mem_append_left _ (sound.registered entry among)
  | start producer entry alive idle settled known =>
      have pushed : (core.ring.step leftover (.start producer entry)).pushed =
          core.ring.pushed ++ [entry] := by
        simp [LogRing.step, LogRing.withProducer, idle]
      have returned : (core.ring.step leftover (.start producer entry)).returned =
          core.ring.returned := by
        simp [LogRing.step, LogRing.withProducer, idle]
      have consumer : (core.ring.step leftover (.start producer entry)).consumer =
          core.ring.consumer := by
        simp [LogRing.step, LogRing.withProducer, idle]
      refine ⟨sound.ring.step leftover few (.start producer entry),
        sound.attended.step sound.ring leftover few (.start producer entry),
        fun other => consumer.trans (sound.idle other), returned.trans sound.returned_eq, ?_,
        sound.holds, sound.files_eq, sound.running, fun dead => absurd alive dead, sound.woken, ?_⟩
      · intro other among
        change other ∈ (core.ring.step leftover (.start producer entry)).pushed at among
        rw [pushed, List.mem_append, List.mem_singleton] at among
        rcases among with before | new
        · exact sound.registered other before
        · rw [new]
          exact known
      · intro rounds finishing
        exact absurd alive (sound.left rounds finishing).1
  | spin producer ticket entry place =>
      refine sound.producer few leftover _ (notCalm producer (by simp [place])) ?_ ?_ ?_
      all_goals
        simp only [LogRing.step, place]
        split <;> rfl
  | write producer ticket entry place =>
      refine sound.producer few leftover _ (notCalm producer (by simp [place])) ?_ ?_ ?_
      all_goals simp [LogRing.step, LogRing.withProducer, place]
  | publish producer ticket place =>
      have alive := notCalm producer (by simp [place])
      have published : (core.withRing leftover (.publish producer)).Sound := by
        refine sound.producer few leftover _ alive ?_ ?_ ?_
        all_goals simp [LogRing.step, LogRing.withProducer, place]
      exact ⟨published.ring, published.attended, published.idle, published.returned_eq,
        published.registered, published.holds, published.files_eq, published.running,
        fun dead => absurd alive dead, published.woken, published.left⟩
  | release producer releasing =>
      have alive : core.owner = .alive := by
        by_contra dead
        rw [(sound.calm dead producer).2] at releasing
        cases releasing
      exact ⟨sound.ring, sound.attended, sound.idle, sound.returned_eq, sound.registered,
        sound.holds, sound.files_eq, sound.running, fun dead => absurd alive dead,
        fun _ _ => Nat.succ_pos _, sound.left⟩
  | drain after moves => exact sound.drainStep bounded moves
  | requestStop alive calm =>
      refine ⟨sound.ring, sound.attended, sound.idle, sound.returned_eq, sound.registered,
        sound.holds, sound.files_eq, sound.running, fun _ => calm, (by intro joining; cases joining),
        ?_⟩
      intro rounds finishing
      exact absurd alive (sound.left rounds finishing).1
  | releaseAll stopping =>
      have dead : core.owner ≠ .alive := by
        rw [stopping]
        intro alive
        cases alive
      refine ⟨sound.ring, sound.attended, sound.idle, sound.returned_eq, sound.registered,
        sound.holds, sound.files_eq, sound.running, fun _ => sound.calm dead,
        fun _ _ => Nat.add_pos_right _ (by decide), ?_⟩
      intro rounds finishing
      exact ⟨(by intro alive; cases alive), (sound.left rounds finishing).2⟩

theorem sound_of_run (run : ReflTransGen (Step order (depth + 1) leftover) new core)
    (bounded : core.Bounded order) : core.Sound := by
  induction run with
  | refl => exact sound_new
  | tail _ step ih =>
      have before := bounded.of_step step
      exact (ih before).step before step bounded

end Run

end LogCore

end FixEngine
