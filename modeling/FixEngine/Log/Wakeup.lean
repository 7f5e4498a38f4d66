import FixEngine.Log.Accounting

/-!
# No wakeup is lost

The thread takes permits for entries it has popped with earlier permits, and for entries that another
producer keeps it from popping. Still it does not go to sleep while an entry is left that could be
popped, unless it has reached the cap of 1024 entries between two sleeps.
-/

namespace FixEngine

open Relation (ReflTransGen)

namespace Drain

/-- The entries popped since the thread woke up. -/
def drained : Drain → ℕ
  | .popping drained => drained
  | .writing drained _ => drained
  | .trying drained => drained
  | _ => 0

/-- On the way to sleep. -/
def resting : Drain → Bool
  | .checking => true
  | .acquiring => true
  | .trying _ => true
  | _ => false

end Drain

namespace LogCore

open LogFileSink (written)

variable {ι : Type} [DecidableEq ι] {order : List ℕ} {depth : ℕ} {leftover : LogEntry → LogEntry}
  {core after : LogCore ι}

/-- If the thread goes to sleep something will wake it up, or nothing is left. -/
def Awake (core : LogCore ι) : Prop :=
  core.drain.resting = true → core.ring.returned = core.ring.pushed ∨ 0 < core.permits ∨
    ∃ producer, core.ring.producers producer ≠ .idle ∨ core.releasing producer = true

/-- A step after which the thread is below its cap. -/
def ShortStep (order : List ℕ) (depth : ℕ) (leftover : LogEntry → LogEntry)
    (before after : LogCore ι) : Prop :=
  Step order depth leftover before after ∧ after.drain.drained < 1024

/-- Where a step of `pop` leaves the thread. -/
theorem drain_popStep (core : LogCore ι) (leftover : LogEntry → LogEntry) (empty : Drain)
    (popped : LogEntry → Drain) :
    (core.popStep leftover empty popped).drain = core.drain ∨
      (∃ out, (core.popStep leftover empty popped).drain = popped out) ∨
      core.popStep leftover empty popped = core.withDrain empty ∧ core.ring.consumer = .idle ∧
        core.ring.ring.loadEpoch core.ring.ring.tail ≠ (core.ring.ring.tail + 1) % word64 := by
  rw [popStep]
  split
  · next idle =>
      split
      · next refused => exact .inr (.inr ⟨rfl, idle, refused⟩)
      · exact .inl rfl
  · exact .inl rfl
  · exact .inl rfl
  · next out place => exact .inr (.inl ⟨out, rfl⟩)

omit [DecidableEq ι] in
theorem drain_writeStep (core : LogCore ι) (depth : ℕ) (entry : LogEntry) (next : Drain) :
    (core.writeStep depth entry next).drain = next ∨
      (core.writeStep depth entry next).drain = .failed := by
  rw [writeStep]
  split
  · exact .inl rfl
  · exact .inr rfl
  · exact .inr rfl

omit [DecidableEq ι] in
theorem awake_of_not_resting (busy : core.drain.resting = false) : core.Awake := by
  intro resting
  rw [busy] at resting
  cases resting

/-- The thread gives up on the ring only if nothing is left or a producer has not published yet. -/
theorem awake_popStep (sound : core.Sound) {drained : ℕ} (place : core.drain = .popping drained) :
    (core.popStep leftover (.trying drained) (.writing drained)).Awake := by
  rcases core.drain_popStep leftover (.trying drained) (.writing drained) with
    here | ⟨out, returned⟩ | ⟨same, idle, refused⟩
  · exact awake_of_not_resting (by rw [here, place]; rfl)
  · exact awake_of_not_resting (by rw [returned]; rfl)
  · rw [same]
    intro _
    rcases sound.attended.empty sound.ring idle refused with all | ⟨producer, holds⟩
    · exact .inl all
    · refine .inr (.inr ⟨producer, .inl ?_⟩)
      intro nobody
      change core.ring.producers producer = .idle at nobody
      rw [nobody] at holds
      cases holds

theorem Awake.drainStep (awake : core.Awake) (sound : core.Sound)
    (moves : core.drainStep order depth leftover = some after) (short : after.drain.drained < 1024) :
    after.Awake := by
  cases place : core.drain with
  | checking =>
      have same := awake (by rw [place]; rfl)
      simp only [LogCore.drainStep, place, Option.some.injEq] at moves
      subst moves
      exact fun _ => same
  | acquiring =>
      simp only [LogCore.drainStep, place] at moves
      split at moves <;> cases moves
      exact awake_of_not_resting rfl
  | popping drained =>
      simp only [LogCore.drainStep, place, Option.some.injEq] at moves
      rw [← moves]
      exact awake_popStep sound place
  | writing drained entry =>
      simp only [LogCore.drainStep, place, Option.some.injEq] at moves
      have goesOn := core.drain_writeStep depth entry
        (if 1024 ≤ drained + 1 then .trying (drained + 1) else .popping (drained + 1))
      rw [moves] at goesOn
      rcases goesOn with next | failed
      · by_cases full : 1024 ≤ drained + 1
        · -- The cap ends the burst, which the run does not reach.
          rw [next, if_pos full, Drain.drained] at short
          omega
        · exact awake_of_not_resting (by rw [next, if_neg full]; rfl)
      · exact awake_of_not_resting (by rw [failed]; rfl)
  | trying drained =>
      have same := awake (by rw [place]; rfl)
      simp only [LogCore.drainStep, place, Option.some.injEq] at moves
      subst moves
      split
      · exact fun _ => same
      · exact awake_of_not_resting rfl
  | finishing cnt =>
      apply awake_of_not_resting
      simp only [LogCore.drainStep, place] at moves
      split at moves <;> cases moves
      · rcases core.drain_popStep leftover (.finishing (cnt + 1)) (.flushing cnt) with
          here | ⟨out, returned⟩ | ⟨same, -, -⟩
        · rw [here, place]
          rfl
        · rw [returned]
          rfl
        · rw [same]
          rfl
      · rw [shutdownStep]
        split <;> rfl
  | flushing cnt entry =>
      apply awake_of_not_resting
      simp only [LogCore.drainStep, place, Option.some.injEq] at moves
      have goesOn := core.drain_writeStep depth entry (.finishing (cnt + 1))
      rw [moves] at goesOn
      rcases goesOn with next | failed
      · rw [next]
        rfl
      · rw [failed]
        rfl
  | ended => simp [LogCore.drainStep, place] at moves
  | failed => simp [LogCore.drainStep, place] at moves

theorem Awake.step (awake : core.Awake) (sound : core.Sound)
    (step : ShortStep order depth leftover core after) : after.Awake := by
  rcases step with ⟨step, short⟩
  cases step with
  | add sessId sink alive returned => exact awake
  | start producer entry alive idle settled known =>
      refine fun _ => .inr (.inr ⟨producer, .inl ?_⟩)
      simp [withRing, LogRing.step, LogRing.withProducer, idle]
  | spin producer ticket entry place =>
      refine fun _ => .inr (.inr ⟨producer, .inl ?_⟩)
      simp only [withRing, LogRing.step, place]
      split <;> simp [LogRing.withProducer, place]
  | write producer ticket entry place =>
      refine fun _ => .inr (.inr ⟨producer, .inl ?_⟩)
      simp [withRing, LogRing.step, LogRing.withProducer, place]
  | publish producer ticket place =>
      exact fun _ => .inr (.inr ⟨producer, .inr (Function.update_self _ _ _)⟩)
  | release producer releasing => exact fun _ => .inr (.inl (Nat.succ_pos _))
  | drain after moves => exact awake.drainStep sound moves short
  | requestStop alive calm => exact awake
  | releaseAll stopping => exact fun _ => .inr (.inl (Nat.add_pos_right _ (by decide)))

/-- In every run in which the thread never reaches its cap: when it sleeps and nobody is in `push`, all
entries have been written. -/
theorem asleep_all_written
    (run : ReflTransGen (ShortStep order (depth + 1) leftover) new core)
    (bounded : core.Bounded order) (waiting : core.drain = .acquiring) (asleep : core.permits = 0)
    (calm : core.Calm) : written core.calls = core.ring.pushed := by
  have sounds : core.Sound ∧ core.Awake := by
    clear waiting asleep calm
    induction run with
    | refl => exact ⟨sound_new, fun _ => .inl rfl⟩
    | tail _ step ih =>
        have before := bounded.of_step step.1
        rcases ih before with ⟨sound, awake⟩
        exact ⟨sound.step before step.1 bounded, awake.step sound step⟩
  rcases sounds with ⟨sound, awake⟩
  have returned_eq := sound.returned_eq
  have nothing : Drain.acquiring.inHand = [] := rfl
  rw [waiting, nothing, List.append_nil] at returned_eq
  rcases awake (by rw [waiting]; rfl) with all | some | ⟨producer, holds | releasing⟩
  · rw [← returned_eq, all]
  · rw [asleep] at some
    exact absurd some (Nat.lt_irrefl 0)
  · exact absurd (calm producer).1 holds
  · rw [(calm producer).2] at releasing
    cases releasing

section Example

/-- An entry is pushed and popped. -/
def pushPop : List (LogRing.Event Unit LogEntry) :=
  [.start () ⟨⟨0, 7⟩, ascii "x"⟩, .spin (), .write (), .publish (), .check, .take, .release, .finish]

/-- The ring after the first steps of `pushPop`. -/
def ringAfter (steps : ℕ) : LogRing Unit LogEntry := LogRing.run id (pushPop.take steps)

theorem ringAfter_succ {steps : ℕ} {event : LogRing.Event Unit LogEntry}
    (next : pushPop[steps]? = some event) :
    ringAfter (steps + 1) = (ringAfter steps).step id event := by
  rw [ringAfter, ringAfter, LogRing.run, LogRing.run, List.take_add_one, next, List.foldl_append]
  rfl

/-- The core around a state of the ring. -/
def around (steps permits : ℕ) (releasing : Bool) (drain : Drain) (sink : LogFileSink)
    (calls : List LogFileSink.Call) : LogCore Unit :=
  ⟨ringAfter steps, fun _ => releasing, permits, drain, .alive, sink, calls, fun _ => none⟩

/-- The thread sleeps, an entry is pushed, the thread wakes up, writes it and goes back to sleep. -/
theorem asleep_all_written_single :
    ∃ core : LogCore Unit, core.drain = .acquiring ∧ core.permits = 0 ∧
      written core.calls = [⟨⟨0, 7⟩, ascii "x"⟩] := by
  rcases @LogFileSink.Holds.addSession _ _ LogFileSink.holds_new ⟨0, 7⟩ (by decide) 0 with
    ⟨sink, done, holds⟩
  rcases @LogFileSink.Holds.write _ _ holds ⟨⟨0, 7⟩, ascii "x"⟩ (by decide) 0 with
    ⟨later, wrote, -⟩
  obtain ⟨calls, callsDef⟩ : ∃ calls : List LogFileSink.Call, calls = [.addSession ⟨0, 7⟩] :=
    ⟨_, rfl⟩
  let Steps := ReflTransGen (@ShortStep Unit _ [7] 1 id)
  have below : 0 < 1024 := by decide
  have asleep : Steps new (around 0 0 false .acquiring sink calls) := by
    rw [callsDef]
    exact .tail (.single ⟨.drain _ (around 0 0 false .acquiring .new []) rfl, below⟩)
      ⟨.add _ ⟨0, 7⟩ sink rfl done, below⟩
  have pushed : Steps (around 0 0 false .acquiring sink calls)
      (around 4 1 false .acquiring sink calls) := by
    have known : (7 : ℕ) ∈ LogFileSink.added calls := by rw [callsDef]; decide
    have waiting : (ringAfter 1).producers () = .waiting 0 ⟨⟨0, 7⟩, ascii "x"⟩ := by decide +kernel
    have writing : (ringAfter 2).producers () = .writing 0 ⟨⟨0, 7⟩, ascii "x"⟩ := by decide +kernel
    have publishing : (ringAfter 3).producers () = .publishing 0 := by decide +kernel
    have every : ∀ before after : Bool, Function.update (fun _ : Unit => before) () after =
        fun _ => after := fun _ _ => funext fun _ => rfl
    have starts := @Step.start Unit _ [7] 1 id (around 0 0 false .acquiring sink calls) ()
      ⟨⟨0, 7⟩, ascii "x"⟩ rfl rfl rfl known
    have spins := @Step.spin Unit _ [7] 1 id (around 1 0 false .acquiring sink calls) () 0 _ waiting
    have writes := @Step.write Unit _ [7] 1 id (around 2 0 false .acquiring sink calls) () 0 _ writing
    have publishes := @Step.publish Unit _ [7] 1 id (around 3 0 false .acquiring sink calls) () 0
      publishing
    have releases := @Step.release Unit _ [7] 1 id (around 4 0 true .acquiring sink calls) () rfl
    simp only [around, withRing, every, ← ringAfter_succ (by rfl : pushPop[0]? = some (.start () _)),
      ← ringAfter_succ (by rfl : pushPop[1]? = some (.spin ())),
      ← ringAfter_succ (by rfl : pushPop[2]? = some (.write ())),
      ← ringAfter_succ (by rfl : pushPop[3]? = some (.publish ()))]
      at starts spins writes publishes releases
    exact ((((ReflTransGen.single ⟨starts, below⟩).tail ⟨spins, below⟩).tail ⟨writes, below⟩).tail
      ⟨publishes, below⟩).tail ⟨releases, below⟩
  have popped : Steps (around 4 1 false .acquiring sink calls)
      (around 8 0 false (.writing 0 ⟨⟨0, 7⟩, ascii "x"⟩) sink calls) := by
    have idle : (ringAfter 4).consumer = .idle := by decide +kernel
    have turn : (ringAfter 4).ring.loadEpoch (ringAfter 4).ring.tail =
        ((ringAfter 4).ring.tail + 1) % word64 := by decide +kernel
    have matched : (ringAfter 5).consumer = .matched := by decide +kernel
    have moved : (ringAfter 6).consumer = .moved ⟨⟨0, 7⟩, ascii "x"⟩ := by decide +kernel
    have released : (ringAfter 7).consumer = .released ⟨⟨0, 7⟩, ascii "x"⟩ := by decide +kernel
    have wakes : (around 4 1 false .acquiring sink calls).drainStep [7] 1 id =
        some (around 4 0 false (.popping 0) sink calls) := rfl
    have checks : (around 4 0 false (.popping 0) sink calls).drainStep [7] 1 id =
        some (around 5 0 false (.popping 0) sink calls) := by
      simp only [drainStep, popStep, around, idle, turn, ne_eq, not_true_eq_false, if_false, withRing,
        ringAfter_succ (by rfl : pushPop[4]? = some .check)]
    have takes : (around 5 0 false (.popping 0) sink calls).drainStep [7] 1 id =
        some (around 6 0 false (.popping 0) sink calls) := by
      simp only [drainStep, popStep, around, matched, withRing,
        ringAfter_succ (by rfl : pushPop[5]? = some .take)]
    have frees : (around 6 0 false (.popping 0) sink calls).drainStep [7] 1 id =
        some (around 7 0 false (.popping 0) sink calls) := by
      simp only [drainStep, popStep, around, moved, withRing,
        ringAfter_succ (by rfl : pushPop[6]? = some .release)]
    have returns : (around 7 0 false (.popping 0) sink calls).drainStep [7] 1 id =
        some (around 8 0 false (.writing 0 ⟨⟨0, 7⟩, ascii "x"⟩) sink calls) := by
      simp only [drainStep, popStep, around, released, withRing, withDrain,
        ringAfter_succ (by rfl : pushPop[7]? = some .finish)]
    exact ((((ReflTransGen.single ⟨.drain _ _ wakes, below⟩).tail ⟨.drain _ _ checks, below⟩).tail
      ⟨.drain _ _ takes, below⟩).tail ⟨.drain _ _ frees, below⟩).tail ⟨.drain _ _ returns, below⟩
  have again : Steps (around 8 0 false (.writing 0 ⟨⟨0, 7⟩, ascii "x"⟩) sink calls)
      (around 8 0 false .acquiring later (calls ++ [.write ⟨⟨0, 7⟩, ascii "x"⟩])) := by
    have idle : (ringAfter 8).consumer = .idle := by decide +kernel
    have refused : (ringAfter 8).ring.loadEpoch (ringAfter 8).ring.tail ≠
        ((ringAfter 8).ring.tail + 1) % word64 := by decide +kernel
    have writes : (around 8 0 false (.writing 0 ⟨⟨0, 7⟩, ascii "x"⟩) sink calls).drainStep [7] 1 id =
        some (around 8 0 false (.popping 1) later (calls ++ [.write ⟨⟨0, 7⟩, ascii "x"⟩])) := by
      simp only [drainStep, writeStep, around, wrote]
      rfl
    obtain ⟨more, moreDef⟩ : ∃ more, more =
      calls ++ [LogFileSink.Call.write ⟨⟨0, 7⟩, ascii "x"⟩] := ⟨_, rfl⟩
    rw [← moreDef] at writes ⊢
    have empty : (around 8 0 false (.popping 1) later more).drainStep [7] 1 id =
        some (around 8 0 false (.trying 1) later more) := by
      simp only [drainStep, popStep, around, idle, ne_eq, refused, not_false_eq_true, if_true, withDrain]
    exact ((((ReflTransGen.single ⟨.drain _ _ writes, (by decide : 1 < 1024)⟩).tail
      ⟨.drain _ _ empty, (by decide : 1 < 1024)⟩).tail
      ⟨.drain _ (around 8 0 false .checking later more) rfl, below⟩)).tail
      ⟨.drain _ (around 8 0 false .acquiring later more) rfl, below⟩
  obtain ⟨core, coreDef⟩ : ∃ core, core =
    around 8 0 false .acquiring later (calls ++ [.write ⟨⟨0, 7⟩, ascii "x"⟩]) := ⟨_, rfl⟩
  have run : Steps new core := by
    rw [coreDef]
    exact ((asleep.trans pushed).trans popped).trans again
  have known : LogFileSink.added core.calls = [7] := by
    rw [coreDef, callsDef]
    rfl
  have all : core.ring.pushed = [⟨⟨0, 7⟩, ascii "x"⟩] := by
    rw [coreDef]
    exact (by decide +kernel : (ringAfter 8).pushed = [⟨⟨0, 7⟩, ascii "x"⟩])
  have bounded : core.Bounded [7] := by
    refine ⟨by rw [all]; decide, by rw [known]; decide, fun _ => ⟨by decide, ?_⟩⟩
    intro session
    rw [known]
  have calm : core.Calm := by
    intro producer
    rw [coreDef]
    exact ⟨(by decide +kernel : (ringAfter 8).producers () = .idle), rfl⟩
  have written_eq := @asleep_all_written Unit _ [7] 0 id core run bounded (by rw [coreDef]; rfl)
    (by rw [coreDef]; rfl) calm
  exact ⟨core, by rw [coreDef]; rfl, by rw [coreDef]; rfl, written_eq.trans all⟩

end Example

end LogCore

end FixEngine
