import FixEngine.Lib.Descent
import FixEngine.Log.Accounting

/-!
# Shutting the log down

When the destructor of the log core waits for the thread, the thread comes to its end whatever it was
doing, and then the sink has written every entry once and in the order of the tickets.
-/

namespace FixEngine

open Relation (ReflTransGen)

namespace LogCore

open LogFileSink (added written entriesOf)

variable {ι : Type} {order : List ℕ} {depth : ℕ} {leftover : LogEntry → LogEntry}
  {core after : LogCore ι}

section Destructor

variable [DecidableEq ι]

/-- How far the thread is from its end, once it was asked to stop: the rounds of its loops, with room
in between for the steps of a round. -/
def popsLeft : Consumer LogEntry → ℕ
  | .idle => 4
  | .matched => 3
  | .moved _ => 2
  | .released _ => 1

/-- How far the thread is from its end, in steps of all its loops. -/
def remaining (core : LogCore ι) : ℕ :=
  let rounds := 16 * (core.permits + (core.ring.pushed.length - core.ring.returned.length))
  let finish := 16 * MpscRing.capacity + 16
  match core.drain with
  | .checking => finish + 1
  | .acquiring => finish + 2 + rounds
  | .popping _ => finish + 4 + popsLeft core.ring.consumer + rounds
  | .writing _ _ => finish + 10 + rounds
  | .trying _ => finish + 2 + rounds
  | .finishing cnt => 8 + popsLeft core.ring.consumer + 16 * (MpscRing.capacity - cnt)
  | .flushing cnt _ => 13 + 16 * (MpscRing.capacity - (cnt + 1))
  | .ended => 0
  | .failed => 0

/-- What a step of `pop` does: it finds nothing, goes on, or returns an entry. -/
inductive Pops (core : LogCore ι) (empty : Drain) (popped : LogEntry → Drain) (after : LogCore ι) :
    Prop
  | nothing (idle : core.ring.consumer = .idle) (same : after = core.withDrain empty) :
      Pops core empty popped after
  | onward (drain_eq : after.drain = core.drain) (permits_eq : after.permits = core.permits)
      (pushed_eq : after.ring.pushed = core.ring.pushed)
      (returned_eq : after.ring.returned = core.ring.returned)
      (closer : popsLeft after.ring.consumer < popsLeft core.ring.consumer) :
      Pops core empty popped after
  | entry (out : LogEntry) (drain_eq : after.drain = popped out)
      (permits_eq : after.permits = core.permits)
      (pushed_eq : after.ring.pushed = core.ring.pushed)
      (returned_eq : after.ring.returned = core.ring.returned ++ [out])
      (inside : core.ring.returned.length < core.ring.pushed.length) :
      Pops core empty popped after

theorem pops_popStep (sound : core.ring.Sound) (leftover : LogEntry → LogEntry) (empty : Drain)
    (popped : LogEntry → Drain) : core.Pops empty popped (core.popStep leftover empty popped) := by
  rw [popStep]
  split
  · next idle =>
      split
      · exact .nothing idle rfl
      · next turn =>
          rw [not_not] at turn
          refine .onward rfl rfl ?_ ?_ ?_ <;> simp [withRing, LogRing.step, idle, turn, popsLeft]
  · next place =>
      refine .onward rfl rfl ?_ ?_ ?_ <;> simp [withRing, LogRing.step, place, popsLeft]
  · next out place =>
      refine .onward rfl rfl ?_ ?_ ?_ <;> simp [withRing, LogRing.step, place, popsLeft]
  · next out place =>
      have consumer := sound.consumer
      simp only [LogRing.ConsumerSound, place] at consumer
      refine .entry out rfl rfl ?_ ?_ (List.getElem?_eq_some_iff.mp consumer).1 <;>
        simp [withRing, withDrain, LogRing.step, place]

theorem popsLeft_pos (consumer : Consumer LogEntry) : 0 < popsLeft consumer := by
  cases consumer <;> simp [popsLeft]

theorem popsLeft_le (consumer : Consumer LogEntry) : popsLeft consumer ≤ 4 := by
  cases consumer <;> simp [popsLeft]

omit [DecidableEq ι] in
theorem frame_writeStep (core : LogCore ι) (depth : ℕ) (entry : LogEntry) (next : Drain) :
    (core.writeStep depth entry next).ring = core.ring ∧
      (core.writeStep depth entry next).permits = core.permits ∧
      ((core.writeStep depth entry next).drain = next ∨
        (core.writeStep depth entry next).drain = .failed) := by
  rw [writeStep]
  split
  · exact ⟨rfl, rfl, .inl rfl⟩
  · exact ⟨rfl, rfl, .inr rfl⟩
  · exact ⟨rfl, rfl, .inr rfl⟩

/-- Each step of a thread that was asked to stop brings it closer to its end. -/
theorem Sound.remaining_lt (sound : core.Sound) (bounded : core.Bounded order)
    (dead : core.owner ≠ .alive)
    (moves : core.drainStep order (depth + 1) leftover = some after) :
    after.remaining < core.remaining := by
  have pos := popsLeft_pos core.ring.consumer
  have le := popsLeft_le after.ring.consumer
  cases place : core.drain with
  | checking =>
      simp only [LogCore.drainStep, place, Option.some.injEq, if_neg dead] at moves
      subst moves
      simp only [remaining, place, LogCore.withDrain, Nat.sub_zero] at le ⊢
      omega
  | acquiring =>
      simp only [LogCore.drainStep, place] at moves
      split at moves <;> cases moves
      simp only [remaining, place, LogCore.takePermit] at le ⊢
      omega
  | popping drained =>
      simp only [LogCore.drainStep, place, Option.some.injEq] at moves
      have pops := pops_popStep sound.ring leftover (.trying drained) (.writing drained)
      rw [moves] at pops
      cases pops with
      | nothing idle same =>
          rw [same]
          simp only [remaining, place, LogCore.withDrain]
          omega
      | onward drain_eq permits_eq pushed_eq returned_eq closer =>
          simp only [remaining, place, drain_eq, permits_eq, pushed_eq, returned_eq]
          omega
      | entry out drain_eq permits_eq pushed_eq returned_eq inside =>
          simp only [remaining, place, drain_eq, permits_eq, pushed_eq, returned_eq,
            List.length_append, List.length_singleton]
          omega
  | writing drained entry =>
      simp only [LogCore.drainStep, place, Option.some.injEq] at moves
      rcases core.frame_writeStep (depth + 1) entry (if 1024 ≤ drained + 1 then
        .trying (drained + 1) else .popping (drained + 1)) with ⟨ring, permits, next | failed⟩
      · rw [moves] at ring permits next
        rw [ring] at le
        by_cases full : 1024 ≤ drained + 1
        · rw [if_pos full] at next
          simp only [remaining, place, ring, permits, next]
          omega
        · rw [if_neg full] at next
          simp only [remaining, place, ring, permits, next]
          omega
      · rw [moves] at failed
        simp only [remaining, place, failed]
        omega
  | trying drained =>
      simp only [LogCore.drainStep, place, Option.some.injEq] at moves
      subst moves
      split
      · simp only [remaining, place, LogCore.withDrain]
        omega
      · next some =>
          rw [if_neg some] at le
          simp only [remaining, place, LogCore.takePermit] at le ⊢
          omega
  | finishing cnt =>
      simp only [LogCore.drainStep, place] at moves
      split at moves
      · next more =>
          cases moves
          have pops := pops_popStep sound.ring leftover (.finishing (cnt + 1)) (.flushing cnt)
          cases pops with
          | nothing idle same =>
              rw [same]
              simp only [remaining, place, LogCore.withDrain]
              omega
          | onward drain_eq permits_eq pushed_eq returned_eq closer =>
              simp only [remaining, place, drain_eq]
              omega
          | entry out drain_eq permits_eq pushed_eq returned_eq inside =>
              simp only [remaining, place, drain_eq]
              omega
      · next all =>
          cases moves
          have ended := (sound.shutdownStep bounded place (Nat.le_of_not_lt all) depth).2
          simp only [remaining, place, ended]
          omega
  | flushing cnt entry =>
      simp only [LogCore.drainStep, place, Option.some.injEq] at moves
      rcases core.frame_writeStep (depth + 1) entry (.finishing (cnt + 1)) with
        ⟨ring, permits, next | failed⟩
      · rw [moves] at ring next
        simp only [remaining, place, next]
        omega
      · rw [moves] at failed
        simp only [remaining, place, failed]
        omega
  | ended => simp [LogCore.drainStep, place] at moves
  | failed => exact absurd place sound.running

/-- A thread that was asked to stop and has permits is at its end or can take a step. -/
theorem Sound.drainStep_isSome (sound : core.Sound) (joining : core.owner = .joining)
    (going : core.drain ≠ .ended) : ∃ after, core.drainStep order depth leftover = some after := by
  rw [LogCore.drainStep]
  cases place : core.drain with
  | acquiring =>
      have woken := sound.woken joining place
      exact ⟨_, if_neg (Nat.ne_of_gt woken)⟩
  | finishing cnt =>
      by_cases more : cnt < MpscRing.capacity
      · exact ⟨_, if_pos more⟩
      · exact ⟨_, if_neg more⟩
  | ended => exact absurd place going
  | failed => exact absurd place sound.running
  | _ => exact ⟨_, rfl⟩

/-- Then nobody but the thread takes a step. -/
theorem Sound.step_joining (sound : core.Sound) (joining : core.owner = .joining)
    (step : Step order depth leftover core after) :
    core.drainStep order depth leftover = some after := by
  have dead : core.owner ≠ .alive := by
    rw [joining]
    intro alive
    cases alive
  have calm := sound.calm dead
  cases step with
  | add sessId sink alive returned => exact absurd alive dead
  | start producer entry alive idle settled known => exact absurd alive dead
  | spin producer ticket entry place =>
      rw [(calm producer).1] at place
      cases place
  | write producer ticket entry place =>
      rw [(calm producer).1] at place
      cases place
  | publish producer ticket place =>
      rw [(calm producer).1] at place
      cases place
  | release producer releasing =>
      rw [(calm producer).2] at releasing
      cases releasing
  | drain after moves => exact moves
  | requestStop alive calm => exact absurd alive dead
  | releaseAll stopping =>
      rw [joining] at stopping
      cases stopping

/-- Whatever the callers of `push` and the thread have done, in whatever order: when the destructor
waits for the thread, the thread comes to its end however it goes on, and at the end the sink has
written every entry that was pushed, once and in the order of the tickets, and the file of each session
is a complete array of its entries. -/
theorem logged_at_shutdown (run : ReflTransGen (Step order (depth + 1) leftover) new core)
    (bounded : core.Bounded order) (joining : core.owner = .joining) :
    ∃ last, ReflTransGen (Step order (depth + 1) leftover) core last ∧ last.drain = .ended ∧
      (∀ middle, ReflTransGen (Step order (depth + 1) leftover) core middle →
        ReflTransGen (Step order (depth + 1) leftover) middle last) ∧
      (¬∃ states : ℕ → LogCore ι, states 0 = core ∧
        ∀ index, Step order (depth + 1) leftover (states index) (states (index + 1))) ∧
      written last.calls = core.ring.pushed ∧ added last.calls = added core.calls ∧
      ∀ session ∈ added core.calls, last.files session =
        some ⟨false, LogFileSink.array (entriesOf session last.calls)⟩ := by
  -- What stays while the destructor waits.
  let Waits : LogCore ι → Prop := fun state => state.Sound ∧ state.Bounded order ∧ core.SameUse state
  have waits : Waits core := ⟨sound_of_run run bounded, bounded, ⟨rfl, rfl, rfl⟩⟩
  have moves : ∀ state next, Waits state → Step order (depth + 1) leftover state next →
      state.drainStep order (depth + 1) leftover = some next ∧ Waits next := by
    rintro state next ⟨sound, bounded, same⟩ step
    have moves := sound.step_joining (same.owner_eq.trans joining) step
    have further := sameUse_drainStep moves
    exact ⟨moves, sound.drainStep bounded moves, further.bounded bounded, same.trans further⟩
  have closed : ∀ state next, Waits state → Step order (depth + 1) leftover state next →
      Waits next := fun state next inv step => (moves state next inv step).2
  have descends : ∀ state next, Waits state → Step order (depth + 1) leftover state next →
      next.remaining < state.remaining := by
    rintro state next inv step
    have taken := (moves state next inv step).1
    rcases inv with ⟨sound, bounded, same⟩
    have dead : state.owner ≠ .alive := by
      rw [same.owner_eq, joining]
      intro alive
      cases alive
    exact sound.remaining_lt bounded dead taken
  have progress : ∀ state, Waits state → ¬state.drain = .ended →
      ∃ next, Step order (depth + 1) leftover state next ∧ Waits next ∧
        next.remaining < state.remaining := by
    rintro state inv going
    rcases inv.1.drainStep_isSome (inv.2.2.owner_eq.trans joining) going with ⟨next, taken⟩
    have step := Step.drain state next taken
    exact ⟨next, step, closed state next inv step, descends state next inv step⟩
  rcases Descent.exists_done remaining progress waits with ⟨last, reached, inv, ended⟩
  rcases inv with ⟨sound, -, same⟩
  refine ⟨last, reached, ended, ?_, Descent.no_infinite_run remaining closed descends waits, ?_,
    same.added_eq, ?_⟩
  · intro middle other
    refine Descent.continues closed ?_ ?_ waits reached other
    · intro state next another inv step also
      have first := (moves state next inv step).1
      rw [(moves state another inv also).1, Option.some.injEq] at first
      exact first.symm
    · intro next step
      have taken := sound.step_joining (same.owner_eq.trans joining) step
      simp [drainStep, ended] at taken
  · have returned_eq := sound.returned_eq
    have left := (sound.left 0 (by rw [ended]; rfl)).2
    have nothing : Drain.ended.inHand = [] := rfl
    rw [ended, nothing, List.append_nil] at returned_eq
    have all := sound.ring.returned.eq_of_length
      (Nat.le_antisymm sound.ring.returned.length_le left)
    rw [← returned_eq, all, same.pushed_eq]
  · intro session among
    rw [← same.added_eq] at among
    exact sound.files_eq ended session among

/-- One session is added, one entry is pushed, and the destructor waits before the thread has taken a
step. -/
theorem run_single (entry : LogEntry) (own : entry.sessId = ⟨0, 7⟩) :
    ∃ core : LogCore Unit, ReflTransGen (Step [7] 1 id) new core ∧ core.owner = .joining ∧
      core.drain = .checking ∧ core.ring.pushed = [entry] ∧ added core.calls = [7] := by
  rcases @LogFileSink.Holds.addSession _ _ LogFileSink.holds_new ⟨0, 7⟩ (by decide) 0 with
    ⟨sink, done, -⟩
  obtain ⟨known, knownDef⟩ : ∃ known : LogCore Unit, known =
    { new with sink := sink, calls := [.addSession ⟨0, 7⟩] } := ⟨_, rfl⟩
  have adds : Step [7] 1 id new known := by
    rw [knownDef]
    exact .add new ⟨0, 7⟩ sink rfl done
  obtain ⟨started, startedDef⟩ : ∃ started, started = known.withRing id (.start () entry) :=
    ⟨_, rfl⟩
  have starts : Step [7] 1 id known started := by
    rw [startedDef]
    refine .start known () entry (by rw [knownDef]; rfl) (by rw [knownDef]; rfl)
      (by rw [knownDef]; rfl) ?_
    rw [knownDef, own]
    exact List.mem_singleton_self 7
  have waiting : started.ring.producers () = .waiting 0 entry := by rw [startedDef, knownDef]; rfl
  have vacant : started.ring.ring.loadEpoch 0 = 0 := by rw [startedDef, knownDef]; rfl
  obtain ⟨spun, spunDef⟩ : ∃ spun, spun = started.withRing id (.spin ()) := ⟨_, rfl⟩
  have spins : Step [7] 1 id started spun := by
    rw [spunDef]
    exact .spin started () 0 entry waiting
  have writing : spun.ring.producers () = .writing 0 entry := by
    simp [spunDef, withRing, LogRing.step, waiting, vacant, LogRing.withProducer]
  obtain ⟨wrote, wroteDef⟩ : ∃ wrote, wrote = spun.withRing id (.write ()) := ⟨_, rfl⟩
  have writes : Step [7] 1 id spun wrote := by
    rw [wroteDef]
    exact .write spun () 0 entry writing
  have publishing : wrote.ring.producers () = .publishing 0 := by
    simp [wroteDef, withRing, LogRing.step, writing, LogRing.withProducer]
  obtain ⟨published, publishedDef⟩ : ∃ published, published =
    { wrote.withRing id (.publish ()) with
      releasing := Function.update wrote.releasing () true } := ⟨_, rfl⟩
  have publishes : Step [7] 1 id wrote published := by
    rw [publishedDef]
    exact .publish wrote () 0 publishing
  have idle : published.ring.producers () = .idle := by
    simp [publishedDef, withRing, LogRing.step, publishing, LogRing.withProducer]
  have releasing : published.releasing () = true := by simp [publishedDef]
  have pushed : published.ring.pushed = [entry] := by
    have first : started.ring.pushed = [entry] := by rw [startedDef, knownDef]; rfl
    have second : spun.ring.pushed = started.ring.pushed := by
      simp [spunDef, withRing, LogRing.step, waiting, vacant, LogRing.withProducer]
    have third : wrote.ring.pushed = spun.ring.pushed := by
      simp [wroteDef, withRing, LogRing.step, writing, LogRing.withProducer]
    rw [← first, ← second, ← third]
    simp [publishedDef, withRing, LogRing.step, publishing, LogRing.withProducer]
  obtain ⟨released, releasedDef⟩ : ∃ released, released = { published with
    permits := published.permits + 1
    releasing := Function.update published.releasing () false } := ⟨_, rfl⟩
  have releases : Step [7] 1 id published released := by
    rw [releasedDef]
    exact .release published () releasing
  have alive : released.owner = .alive := by
    rw [releasedDef, publishedDef, wroteDef, spunDef, startedDef, knownDef]
    rfl
  have calm : released.Calm := by
    intro producer
    rw [releasedDef]
    exact ⟨idle, Function.update_self () false published.releasing⟩
  have stops := @Step.requestStop Unit _ [7] 1 id released alive calm
  refine ⟨_, ((((((((ReflTransGen.single adds).tail starts).tail spins).tail writes).tail
    publishes).tail releases).tail stops).tail (.releaseAll _ rfl)), rfl, ?_, ?_, ?_⟩
  · rw [releasedDef, publishedDef, wroteDef, spunDef, startedDef, knownDef]
    rfl
  · rw [releasedDef]
    exact pushed
  · rw [releasedDef, publishedDef, wroteDef, spunDef, startedDef, knownDef]
    rfl

theorem logged_at_shutdown_single :
    ∃ core last : LogCore Unit, core.drain = .checking ∧
      ReflTransGen (Step [7] 1 id) core last ∧ last.drain = .ended ∧
      written last.calls = [⟨⟨0, 7⟩, ascii "x"⟩] ∧
      (last.files 7).map LogFile.isOpen = some false := by
  rcases run_single ⟨⟨0, 7⟩, ascii "x"⟩ rfl with ⟨core, run, joining, waiting, pushed, known⟩
  have bounded : core.Bounded [7] := by
    refine ⟨by rw [pushed]; decide, by rw [known]; decide, fun _ => ⟨by decide, ?_⟩⟩
    intro session
    rw [known]
  rcases @logged_at_shutdown Unit [7] 0 id core _ run bounded joining with
    ⟨last, reached, ended, -, -, all, -, files⟩
  refine ⟨core, last, waiting, reached, ended, all.trans pushed, ?_⟩
  rw [files 7 (by rw [known]; decide)]
  rfl

end Destructor

end LogCore

end FixEngine
