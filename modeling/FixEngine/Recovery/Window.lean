import FixEngine.Recovery.Reordering

/-!
# Inserting inside the window

`dispatch` puts messages into the recovery cache at two places. The one for messages that arrive
during a recovery looks at the window first; the one that begins a recovery does not, and the
peer chooses the distance. Where gaps are shorter than the window, no insert ever fails its
assertions.
-/

namespace FixEngine

theorem mem_cacheFaults {trace : List Event} {reason : Fault} (ofCache : reason.ofCache = true) :
    reason ∈ cacheFaults trace ↔ .fault reason ∈ trace := by
  simp only [cacheFaults, List.mem_filterMap]
  constructor
  · rintro ⟨event, mem, found⟩
    cases event with
    | fault other =>
        simp only [Option.ite_none_right_eq_some, Option.some.injEq] at found
        rw [← found.2]
        exact mem
    | _ => simp at found
  · intro mem
    exact ⟨_, mem, by simp [ofCache]⟩

theorem parse_ne_nil {raw : Bytes} (parsed : (Parser.parse raw).2 = []) : raw ≠ [] := by
  rintro rfl
  revert parsed
  decide

namespace Session

section Faults

variable {session after : Session} {message : Message} {view : ValidMessageView}
  {type raw : Bytes}

theorem cacheFaults_record (session : Session) {event : Event}
    (other : ∀ reason, event ≠ .fault reason) :
    cacheFaults (session.record event).trace = cacheFaults session.trace := by
  rw [record, cacheFaults_append]
  cases event with
  | fault reason => exact absurd rfl (other reason)
  | _ => simp [cacheFaults]

theorem cacheFaults_recordFault (session : Session) (reason : Fault) :
    cacheFaults (session.recordFault reason).trace =
      cacheFaults session.trace ++ if reason.ofCache then [reason] else [] := by
  rw [recordFault, record, cacheFaults_append]
  cases ofCache : reason.ofCache <;> simp [cacheFaults, ofCache]

theorem cacheFaults_cacheMessage (session : Session) (seqNum : ℕ) (raw : Bytes) :
    cacheFaults (session.cacheMessage seqNum raw).trace = cacheFaults session.trace ++
      if session.recoveryCache.insertAsserts seqNum raw then [] else [.cacheInsert] := by
  simp only [cacheMessage]
  split
  · simp [Session.withCache]
  · exact session.cacheFaults_recordFault .cacheInsert

theorem cacheFaults_becomeActive (session : Session) :
    cacheFaults session.becomeActive.trace = cacheFaults session.trace := by
  rw [session.keeps_becomeActive.faults_eq]
  exact (session.withState .active).cacheFaults_record (by simp)

theorem cacheFaults_handler {called : Session} (outcome : HandlerOutcome called type view after) :
    cacheFaults after.trace = cacheFaults called.trace := by
  cases outcome with
  | quiet keeps => exact keeps.faults_eq
  | refused _ interval keeps => exact keeps.faults_eq
  | loggedOn _ _ interval state replied keeps afterEq =>
      rw [afterEq, cacheFaults_becomeActive, keeps.faults_eq]
      rfl
  | renumbered _ _ _ _ _ interval replied keeps afterEq =>
      rw [afterEq, cacheFaults_becomeActive, keeps.faults_eq]
      exact (((called.withInterval interval).withState .logonReceived).withSeqProvider
        called.seqProvider.acceptorReset).cacheFaults_record (by simp)
  | stopped _ keeps => exact keeps.faults_eq
  | moved _ _ afterEq =>
      rw [afterEq]
      rfl

theorem cacheFaults_handle (running : session.stopped = false) (type : Bytes)
    (view : ValidMessageView) :
    cacheFaults (session.handle type view).trace = cacheFaults session.trace := by
  rw [cacheFaults_handler (session.handle_outcome running type view)]
  exact session.cacheFaults_record (by simp)

end Faults

section Window

variable {session : Session} {message : Message} {type raw : Bytes}

/-- Outside a recovery, an admitted message is less than a window ahead. -/
def NearGap (session : Session) (message : Message) : Prop :=
  session.stopped = false → ∀ type, session.Admitted message type →
    session.state ≠ .recoveringResend →
    session.seqProvider.nextIn < (makeValidMessageView message).headerCache.msgSeqNum →
    (makeValidMessageView message).headerCache.msgSeqNum - session.seqProvider.nextIn <
      RecoveryCache.window

/-- Right after the base of the window was moved, the assertions say that the number is near. -/
theorem insertAsserts_start (cache : RecoveryCache) {first seqNum : ℕ} (ahead : first < seqNum)
    (nonempty : raw ≠ []) :
    (cache.start first).insertAsserts seqNum raw =
      decide (seqNum - first < RecoveryCache.window) := by
  have length : 0 < raw.length := List.length_pos_of_ne_nil nonempty
  rw [RecoveryCache.insertAsserts, not_contains_start, RecoveryCache.inWindow,
    RecoveryCache.baseOffset_start]
  simp [ahead.le, length]

/-- Every fault of the cache in a call of `dispatch` comes from a gap that is too long. -/
theorem cacheFaults_dispatch (parsed : (Parser.parse raw).2 = []) :
    cacheFaults (session.dispatch message raw).trace = cacheFaults session.trace ∨
      session.stopped = false ∧ (∃ type, session.Admitted message type) ∧
        session.state ≠ .recoveringResend ∧
        RecoveryCache.window ≤
          (makeValidMessageView message).headerCache.msgSeqNum - session.seqProvider.nextIn := by
  cases session.dispatch_effect message raw with
  | stopped _ afterEq => rw [afterEq]; exact .inl rfl
  | quiet _ keeps => exact .inl keeps.faults_eq
  | loggedOut _ _ keeps => exact .inl keeps.faults_eq
  | handled running type _ _ ready keeps afterEq =>
      have runningNext : (ready.updateIn ((makeValidMessageView message).headerCache.msgSeqNum + 1)
          ).stopped = false := keeps.stopped_eq.trans running
      refine .inl ?_
      rw [afterEq, cacheFaults_handle runningNext]
      exact keeps.faults_eq
  | cached _ type _ _ _ within absent ready keeps afterEq =>
      have legal : ready.recoveryCache.insertAsserts
          (makeValidMessageView message).headerCache.msgSeqNum raw = true := by
        rw [keeps.cache_eq, RecoveryCache.insertAsserts, within, absent]
        simpa [List.length_pos_iff] using parse_ne_nil parsed
      refine .inl ?_
      rw [afterEq, cacheFaults_cacheMessage, legal, keeps.faults_eq]
      simp
  | gap running type admitted ahead notRecovering requested keeps afterEq =>
      have legal := insertAsserts_start session.recoveryCache ahead (parse_ne_nil parsed)
      by_cases near : (makeValidMessageView message).headerCache.msgSeqNum -
          session.seqProvider.nextIn < RecoveryCache.window
      · refine .inl ?_
        rw [decide_eq_true near] at legal
        rw [afterEq, cacheFaults_cacheMessage]
        simp only [Session.withCache, legal, if_true, List.append_nil]
        exact keeps.faults_eq
      · exact .inr ⟨running, ⟨type, admitted⟩, notRecovering, by omega⟩

theorem noInsertFault_dispatch (parsed : (Parser.parse raw).2 = [])
    (legal : .cacheInsert ∉ cacheFaults session.trace) (near : session.NearGap message) :
    .cacheInsert ∉ cacheFaults (session.dispatch message raw).trace := by
  rcases session.cacheFaults_dispatch parsed with same | ⟨running, ⟨type, admitted⟩, outside, far⟩
  · rwa [same]
  · have := near running type admitted outside (by simp only [RecoveryCache.window] at far; omega)
    omega

theorem noInsertFault_drainOne (parsed : (Parser.parse raw).2 = [])
    (legal : .cacheInsert ∉ cacheFaults session.trace) (near : session.NearGap message) :
    .cacheInsert ∉ cacheFaults (session.drainOne message raw).trace := by
  have dispatched := noInsertFault_dispatch parsed legal near
  simp only [drainOne]
  split
  · exact dispatched
  · simp only [Session.withCache, cacheFaults_recordFault, List.mem_append, not_or]
    exact ⟨dispatched, by simp [Fault.ofCache]⟩

theorem cacheFaults_stop (session : Session) :
    cacheFaults session.stop.trace = cacheFaults session.trace := by
  cases running : session.stopped with
  | true => rw [stop_eq_self running]
  | false => exact (keeps_stop running).faults_eq

theorem noInsertFault_stop (legal : .cacheInsert ∉ cacheFaults session.trace) :
    .cacheInsert ∉ cacheFaults session.stop.trace := by
  rw [cacheFaults_stop]
  exact legal

theorem noInsertFault_processWireMessage {wire : Bytes}
    (legal : .cacheInsert ∉ cacheFaults session.trace)
    (near : EachDispatch NearGap session wire) :
    .cacheInsert ∉ cacheFaults (session.processWireMessage wire).trace := by
  apply processWireMessage_rule (fun current => .cacheInsert ∉ cacheFaults current.trace)
    (fun current => .cacheInsert ∉ cacheFaults current.trace) ?_ ?_ ?_ ?_ ?_ ?_ ?_ ?_ legal near
  · intro parsed legal near
    exact noInsertFault_dispatch parsed legal near
  · intro legal
    cases running : session.stopped with
    | true => rwa [stopWithLogout, if_pos running]
    | false =>
        rw [(keeps_stopWithLogout running _).faults_eq]
        exact legal
  · intro current legal _
    exact legal
  · intro current raw parsed legal near
    exact noInsertFault_drainOne parsed legal near
  · intro current legal
    exact legal
  · intro current legal
    exact legal
  · intro current legal
    simp only [cacheFaults_recordFault, List.mem_append, not_or]
    exact ⟨legal, by simp [Fault.ofCache]⟩
  · intro current legal
    apply noInsertFault_stop
    rwa [(current.keeps_sendLogout _).faults_eq]

theorem cacheFaults_idle {after : Session} (outcome : IdleOutcome session after) :
    cacheFaults after.trace = cacheFaults session.trace := by
  cases outcome with
  | quiet keeps => exact keeps.faults_eq
  | connected conn afterEq => rw [afterEq]; rfl
  | loggedOut keeps => exact keeps.faults_eq
  | stopped keeps => exact keeps.faults_eq
  | down released keeps afterEq =>
      rw [afterEq, cacheFaults_record _ (by simp)]
      exact keeps.faults_eq
  | started state _ keeps =>
      rw [keeps.faults_eq]
      exact session.cacheFaults_record (by simp)
  | renumbered _ _ reading keepsReading keeps =>
      rw [keeps.faults_eq]
      refine ((reading.withSeqProvider _).cacheFaults_record (by simp)).trans ?_
      refine keepsReading.faults_eq.trans ?_
      exact session.cacheFaults_record (by simp)
  | restarted _ state _ keeps =>
      rw [keeps.faults_eq]
      exact session.cacheFaults_record (by simp)

end Window

section Runs

variable {session : Session} {message : Message} {type raw : Bytes}

/-- During a recovery, a message outside the window is answered with a Logout. -/
theorem dispatch_too_far (running : session.stopped = false)
    (admitted : session.Admitted message type) (recovering : session.state = .recoveringResend)
    (ahead : session.seqProvider.nextIn < (makeValidMessageView message).headerCache.msgSeqNum)
    (outside : session.recoveryCache.inWindow
      (makeValidMessageView message).headerCache.msgSeqNum = false) :
    (session.dispatch message raw).state = .awaitingLogout ∧
      (session.dispatch message raw).recoveryCache = session.recoveryCache := by
  rcases dispatch_admitted running admitted raw with ⟨ready, keeps, dispatchEq⟩
  have refused : ready.checkSequence type (makeValidMessageView message) raw =
      ready.stopWithLogout (ascii "MsgSeqNum too high during recovery") := by
    rw [← keeps.nextIn_eq] at ahead
    rw [← keeps.cache_eq] at outside
    rw [← keeps.state_eq] at recovering
    rw [checkSequence]
    simp [ahead, ahead.ne', recovering, outside]
  have logout := keeps_stopWithLogout (keeps.stopped_eq.trans running)
    (ascii "MsgSeqNum too high during recovery")
  rw [dispatchEq, refused, logout.state_eq, logout.cache_eq]
  exact ⟨rfl, keeps.cache_eq⟩

/-- A gap of a window or more fails the assertion of the insert. -/
theorem dispatch_far_gap (running : session.stopped = false)
    (admitted : session.Admitted message type) (outside : session.state ≠ .recoveringResend)
    (parsed : (Parser.parse raw).2 = [])
    (far : RecoveryCache.window ≤
      (makeValidMessageView message).headerCache.msgSeqNum - session.seqProvider.nextIn) :
    .cacheInsert ∈ cacheFaults (session.dispatch message raw).trace := by
  rcases dispatch_admitted running admitted raw with ⟨ready, keeps, dispatchEq⟩
  rw [← keeps.nextIn_eq] at far
  rw [← keeps.state_eq] at outside
  have ahead : ready.seqProvider.nextIn < (makeValidMessageView message).headerCache.msgSeqNum := by
    simp only [RecoveryCache.window] at far
    omega
  have begun : ready.checkSequence type (makeValidMessageView message) raw =
      ready.beginRecovery (makeValidMessageView message).headerCache.msgSeqNum raw := by
    rw [checkSequence]
    simp [ahead, ahead.ne', outside]
  rcases ready.beginRecovery_eq (makeValidMessageView message).headerCache.msgSeqNum raw with
    ⟨requested, -, recoveryEq⟩
  have illegal := insertAsserts_start ready.recoveryCache ahead (parse_ne_nil parsed)
  rw [decide_eq_false (Nat.not_lt.mpr far)] at illegal
  rw [dispatchEq, begun, recoveryEq, cacheFaults_cacheMessage]
  simp [Session.withCache, illegal]

/-- The condition on a step: no gap is too long. -/
def StepNearGap (session : Session) : Input → Prop
  | .frame wire => session.EachDispatch NearGap wire
  | _ => True

theorem noInsertFault_step {input : Input} (legal : .cacheInsert ∉ cacheFaults session.trace)
    (near : session.StepNearGap input) :
    .cacheInsert ∉ cacheFaults (session.step input).trace := by
  by_cases isFrame : ∃ wire, input = .frame wire
  · rcases isFrame with ⟨wire, rfl⟩
    exact noInsertFault_processWireMessage legal near
  · have notFrame : ∀ wire, input ≠ .frame wire := fun wire same => isFrame ⟨wire, same⟩
    rwa [cacheFaults_idle (session.step_outcome notFrame)]

/-- In every run without a gap of a window or more, no insert fails its assertions. In every
state a message outside the window of a recovery leads to a Logout and leaves the cache alone,
and outside a recovery the insert fails exactly when the gap is a window or more. -/
theorem run_inserts_in_window (id : ℕ) (role : Role) (params : SessionParameters) (clock : Clock)
    (inputs : List Input) :
    let session := (Session.new id role params clock).run inputs
    (Runs.Meets step StepNearGap (Session.new id role params clock) inputs →
      .fault .cacheInsert ∉ session.trace) ∧
    ∀ wire type, session.stopped = false → (Parser.parse wire).2 = [] →
      session.Admitted (Parser.parse wire).1 type →
      session.seqProvider.nextIn < numberOf wire →
      (session.state = .recoveringResend → session.recoveryCache.inWindow (numberOf wire) = false →
        (session.dispatch (Parser.parse wire).1 wire).state = .awaitingLogout ∧
          (session.dispatch (Parser.parse wire).1 wire).recoveryCache = session.recoveryCache) ∧
      (session.state ≠ .recoveringResend → .fault .cacheInsert ∉ session.trace →
        (.fault .cacheInsert ∉ (session.dispatch (Parser.parse wire).1 wire).trace ↔
          numberOf wire - session.seqProvider.nextIn < RecoveryCache.window)) := by
  intro session
  constructor
  · intro near
    rw [← mem_cacheFaults rfl]
    exact near.invariant (by simp [Session.new, cacheFaults])
      fun current input legal here => noInsertFault_step legal here
  · intro wire type running parsed admitted ahead
    refine ⟨fun recovering outside => dispatch_too_far running admitted recovering ahead outside,
      fun outside legal => ?_⟩
    rw [← mem_cacheFaults rfl] at legal ⊢
    constructor
    · intro unfailed
      by_contra far
      exact unfailed (dispatch_far_gap running admitted outside parsed (Nat.not_lt.mp far))
    · intro near
      exact noInsertFault_dispatch parsed legal fun _ _ _ _ _ => near

end Runs

section Example

/-- Two heartbeats arrive in the wrong order. -/
def swappedRun : List Input :=
  answeredLogon ++ [.frame (peerHeartbeat 3), .frame (peerHeartbeat 2)]

theorem eachDrain_of_absent {condition : Session → Message → Prop} {rounds : ℕ} {session : Session}
    (absent : session.recoveryCache.contains session.seqProvider.nextIn = false) :
    EachDrain condition (rounds + 1) session := by
  intro present
  simp [absent] at present

theorem run_inserts_in_window_swapped : .fault .cacheInsert ∉ (initiator.run swappedRun).trace := by
  refine (run_inserts_in_window 0 .initiator _ .standard swappedRun).1
    ⟨trivial, trivial, ⟨?_, ?_⟩, ⟨?_, ?_⟩, ⟨?_, ?_⟩, trivial⟩
  · intro _ _ _ _ _ ahead
    exact absurd ahead (by decide +kernel)
  · intro recovering
    exact absurd recovering (by decide +kernel)
  · intro _ _ _ _ _ _
    decide +kernel
  · intro _
    exact eachDrain_of_absent (by decide +kernel)
  · intro _ _ _ _ _ ahead
    exact absurd ahead (by decide +kernel)
  · intro _ _ _
    refine ⟨?_, eachDrain_of_absent (by decide +kernel)⟩
    intro _ _ _ _ ahead
    exact absurd ahead (by decide +kernel)

/-- A heartbeat 598 numbers ahead is put into the cache, outside its window. -/
theorem run_inserts_outside :
    let session := initiator.run answeredLogon
    session.stopped = false ∧ session.state = .active ∧ session.seqProvider.nextIn = 2 ∧
      Readable session.params (peerHeartbeat 600) (ascii "0") ∧
      (session.dispatch (Parser.parse (peerHeartbeat 600)).1 (peerHeartbeat 600)).state =
        .recoveringResend ∧
      .fault .cacheInsert ∈
        (session.dispatch (Parser.parse (peerHeartbeat 600)).1 (peerHeartbeat 600)).trace := by
  decide +kernel

end Example

end Session

end FixEngine
