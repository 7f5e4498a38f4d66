import FixEngine.Session.Effects

/-!
# What an inbound message can do

The branches of the handlers, of the sequence checks and of `dispatch`, each as one statement
about the session before and after. Invariants of the session are proved from these lemmas and
never unfold the functions again.
-/

namespace FixEngine

namespace Session

section Stops

variable {session sent : Session}

@[simp]
theorem withState_withState (session : Session) (first second : SessionState) :
    (session.withState first).withState second = session.withState second := by
  cases session
  rfl

theorem Keeps.withState (keeps : Keeps session sent) (state : SessionState) :
    Keeps (session.withState state) (sent.withState state) :=
  ⟨keeps.id_eq, keeps.role_eq, keeps.params_eq, rfl, keeps.stopped_eq, keeps.nextIn_eq,
    keeps.cache_eq, keeps.framer_eq, keeps.conn_eq, keeps.trace_eq⟩

theorem Keeps.asStopped (keeps : Keeps session sent) : Keeps session.asStopped sent.asStopped :=
  ⟨keeps.id_eq, keeps.role_eq, keeps.params_eq, rfl, rfl, keeps.nextIn_eq,
    keeps.cache_eq, keeps.framer_eq, keeps.conn_eq, keeps.trace_eq⟩

theorem keeps_closeConnection (session : Session) : Keeps session session.closeConnection := by
  rw [closeConnection]
  split
  · exact .refl session
  · exact ⟨rfl, rfl, rfl, rfl, rfl, rfl, rfl, rfl, rfl, [], by simp⟩

theorem keeps_cancelTimers (session : Session) : Keeps session session.cancelTimers :=
  ⟨rfl, rfl, rfl, rfl, rfl, rfl, rfl, rfl, rfl, [], by simp [cancelTimers]⟩

theorem stop_eq_self (stopped : session.stopped = true) : session.stop = session := by
  simp [stop, stopped]

theorem stopped_stop (session : Session) : session.stop.stopped = true := by
  rw [stop]
  split
  · assumption
  · cases conn : session.conn with
    | none => rfl
    | some conn =>
        simp only [dropWrites, closeConnection]
        split <;> rfl

theorem keeps_stop (running : session.stopped = false) : Keeps session.asStopped session.stop := by
  have emptied : ∀ released : Session, Keeps released released.dropWrites := fun _ =>
    ⟨rfl, rfl, rfl, rfl, rfl, rfl, rfl, rfl, rfl, [], by simp [dropWrites]⟩
  rw [stop, if_neg (by simp [running])]
  refine Keeps.trans ?_ (emptied _)
  split
  · exact .refl _
  · exact (keeps_cancelTimers _).trans (keeps_closeConnection _)

theorem keeps_stopWithLogout (running : session.stopped = false) (reason : Bytes) :
    Keeps (session.withState .awaitingLogout) (session.stopWithLogout reason) := by
  have timed : ∀ sent : Session, Keeps sent sent.scheduleLogoutTimeout := fun _ =>
    ⟨rfl, rfl, rfl, rfl, rfl, rfl, rfl, rfl, rfl, [], by simp [scheduleLogoutTimeout]⟩
  rw [stopWithLogout, if_neg (by simp [running])]
  exact ((session.keeps_sendLogout reason).withState .awaitingLogout).trans (timed _)

end Stops

section Handlers

variable {session : Session} {view : ValidMessageView}

/-- The number a SequenceReset asks for; an unreadable one counts as zero. -/
def newSeqNo (view : ValidMessageView) : ℕ :=
  ((view.message.firstValue? 36).bind fun text => (fromChars 64 text).value).getD 0

/-- GapFillFlag=Y. -/
def gapFill (view : ValidMessageView) : Bool := view.message.firstValue? 123 = some (ascii "Y")

/-- A SequenceReset may go back only to fill a gap. -/
def ResetPasses (session : Session) (view : ValidMessageView) : Prop :=
  gapFill view = true ∨ session.seqProvider.nextIn ≤ newSeqNo view

theorem handleSequenceReset_cases (running : session.stopped = false) (view : ValidMessageView) :
    Keeps session (session.handleSequenceReset view) ∨
      (¬session.ResetPasses view ∧
        Keeps (session.withState .awaitingLogout) (session.handleSequenceReset view)) ∨
      (session.ResetPasses view ∧
        session.handleSequenceReset view = session.updateIn (newSeqNo view)) := by
  rw [handleSequenceReset]
  split
  · exact .inl (session.keeps_recordFault _)
  · next text found =>
      have number : newSeqNo view = (fromChars 64 text).value.getD 0 := by simp [newSeqNo, found]
      simp only [← number]
      split
      · next refused =>
          refine .inr (.inl ⟨?_, keeps_stopWithLogout running _⟩)
          simp only [Bool.and_eq_true, decide_eq_true_eq, Bool.not_eq_true', decide_eq_false_iff_not]
            at refused
          rintro (filled | notBehind)
          · exact refused.2 (by simpa [gapFill] using filled)
          · omega
      · next accepted =>
          refine .inr (.inr ⟨?_, rfl⟩)
          by_cases filled : view.message.firstValue? 123 = some (ascii "Y")
          · exact .inl (by simp [gapFill, filled])
          · simp only [filled, decide_false, Bool.not_false, Bool.and_true,
              decide_eq_true_eq, Nat.not_lt] at accepted
            exact .inr accepted

theorem handleLogout_stops (running : session.stopped = false) :
    Keeps session.asStopped session.handleLogout := by
  rw [handleLogout]
  split
  · have cancelled : Keeps session session.cancelLogoutTimer :=
      ⟨rfl, rfl, rfl, rfl, rfl, rfl, rfl, rfl, rfl, [], by simp [cancelLogoutTimer]⟩
    exact cancelled.asStopped.trans (keeps_stop (cancelled.stopped_eq.trans running))
  · have sent := session.keeps_sendLogout (ascii "Logout acknowledged")
    exact sent.asStopped.trans (keeps_stop (sent.stopped_eq.trans running))

theorem keeps_becomeActive (session : Session) :
    Keeps ((session.withState .active).record .logonAccepted) session.becomeActive :=
  ⟨rfl, rfl, rfl, rfl, rfl, rfl, rfl, rfl, rfl, [],
    by simp [becomeActive, scheduleTestRequestTimeout, scheduleHeartbeat, record,
      Session.withState, cancelLogonTimer]⟩

/-- The interval of a Logon is refused, or taken. -/
theorem validateHeartbeatInt_cases (session : Session) (text : Bytes) :
    session.validateHeartbeatInt text = (false, session) ∨
      ∃ interval, 10 ≤ interval ∧ interval ≤ 120 ∧
        session.validateHeartbeatInt text = (true, session.withInterval interval) := by
  rw [validateHeartbeatInt]
  split
  · exact .inl rfl
  · split
    · exact .inl rfl
    · next inRange =>
        simp only [Bool.or_eq_true, decide_eq_true_eq, not_or, Nat.not_lt] at inRange
        exact .inr ⟨_, inRange.1, inRange.2, rfl⟩

/-- The session may reset its numbers on a Logon. -/
def mayReset (session : Session) : Bool :=
  match session.role with
  | .acceptor => session.params.acceptorResetOnLogon
  | .initiator => session.params.initiatorResetOnLogon

/-- The interval of a Logon is acceptable, and so is its reset flag. -/
def LogonPasses (session : Session) (message : Message) : Prop :=
  (∃ interval, message.firstValue? 108 = some interval ∧
    (session.validateHeartbeatInt interval).1 = true) ∧
  (message.firstValue? 141 = some (ascii "Y") → session.mayReset = true)

theorem validateHeartbeatInt_congr {before after : Session} (role_eq : after.role = before.role)
    (params_eq : after.params = before.params) (interval : Bytes) :
    (after.validateHeartbeatInt interval).1 = (before.validateHeartbeatInt interval).1 := by
  simp only [validateHeartbeatInt, role_eq, params_eq]
  split_ifs <;> rfl

theorem logonPasses_congr {before after : Session} (role_eq : after.role = before.role)
    (params_eq : after.params = before.params) (message : Message) :
    after.LogonPasses message ↔ before.LogonPasses message := by
  simp only [LogonPasses, mayReset, role_eq, params_eq, validateHeartbeatInt_congr role_eq params_eq]

theorem logonPasses_called (session : Session) (n : ℕ) (type : Bytes) (view : ValidMessageView)
    (message : Message) :
    ((session.updateIn n).called type view).LogonPasses message ↔ session.LogonPasses message :=
  @logonPasses_congr session ((session.updateIn n).called type view) rfl rfl message

/-- A Logon is refused with a Logout, or accepted: as it is, or with the numbers reset. -/
theorem handleLogon_cases (running : session.stopped = false) (view : ValidMessageView) :
    Keeps session (session.handleLogon view) ∨
      (¬session.LogonPasses view.message ∧
        ∃ interval, Keeps ((session.withInterval interval).withState .awaitingLogout)
          (session.handleLogon view)) ∨
      (session.LogonPasses view.message ∧ ∃ interval state replied,
        Keeps ((session.withInterval interval).withState state) replied ∧
          session.handleLogon view = replied.becomeActive) ∨
      (session.LogonPasses view.message ∧ session.role = .acceptor ∧
        session.params.acceptorResetOnLogon = true ∧
        view.message.firstValue? 141 = some (ascii "Y") ∧
        ∃ interval replied,
          Keeps (((session.withInterval interval).withState .logonReceived).resetSequence
            session.seqProvider.acceptorReset) replied ∧
          session.handleLogon view = replied.becomeActive) := by
  cases found : view.message.firstValue? 108 with
  | none =>
      refine .inl ?_
      simp only [handleLogon, found]
      exact session.keeps_recordFault _
  | some text =>
      rcases session.validateHeartbeatInt_cases text with refused | ⟨interval, -, -, taken⟩
      · refine .inr (.inl ⟨?_, session.params.heartBeatInt, ?_⟩)
        · rintro ⟨⟨interval, foundInterval, valid⟩, -⟩
          rw [found, Option.some.injEq] at foundInterval
          rw [← foundInterval, refused] at valid
          simp at valid
        · simp only [handleLogon, found, refused]
          exact keeps_stopWithLogout running _
      · have valid : ∃ interval, view.message.firstValue? 108 = some interval ∧
            (session.validateHeartbeatInt interval).1 = true := ⟨text, found, by rw [taken]⟩
        cases role : session.role with
        | acceptor =>
            have roleEq : (session.withInterval interval).role = .acceptor := role
            have mayEq : session.mayReset = session.params.acceptorResetOnLogon := by
              simp only [mayReset, role]
            by_cases reset : view.message.firstValue? 141 = some (ascii "Y")
            · by_cases allowed : session.params.acceptorResetOnLogon = true
              · refine .inr (.inr (.inr ⟨⟨valid, fun _ => mayEq.trans allowed⟩, rfl, allowed, reset,
                  interval, _, keeps_sendLogon _ true, ?_⟩))
                have receivedEq : ((session.withInterval interval).withState
                    .logonReceived).params.acceptorResetOnLogon = true := allowed
                simp only [handleLogon, found, taken, roleEq, reset, if_true, receivedEq,
                  SeqProvider.acceptorReset]
              · refine .inr (.inl ⟨fun passes => allowed (mayEq ▸ passes.2 reset), interval, ?_⟩)
                have receivedEq : ¬((session.withInterval interval).withState
                    .logonReceived).params.acceptorResetOnLogon = true := allowed
                simp only [handleLogon, found, taken, roleEq, reset, if_true, receivedEq,
                  Bool.false_eq_true, if_false]
                have refused := @keeps_stopWithLogout
                  ((session.withInterval interval).withState .logonReceived) running resetNotAllowed
                rwa [withState_withState] at refused
            · refine .inr (.inr (.inl ⟨⟨valid, fun flagged => absurd flagged reset⟩, interval,
                .logonReceived, _, keeps_sendLogon _ false, ?_⟩))
              simp only [handleLogon, found, taken, roleEq, reset, if_false]
        | initiator =>
            have roleEq : (session.withInterval interval).role = .initiator := role
            have mayEq : session.mayReset = session.params.initiatorResetOnLogon := by
              simp only [mayReset, role]
            have kept : (session.withInterval interval).params.initiatorResetOnLogon =
              session.params.initiatorResetOnLogon := rfl
            by_cases refused : (decide (view.message.firstValue? 141 = some (ascii "Y")) &&
                !(session.withInterval interval).params.initiatorResetOnLogon) = true
            · refine .inr (.inl ⟨?_, interval, ?_⟩)
              · intro passes
                simp only [kept, Bool.and_eq_true, decide_eq_true_eq] at refused
                simp [← mayEq, passes.2 refused.1] at refused
              simp only [handleLogon, found, taken, roleEq, refused, if_true]
              exact @keeps_stopWithLogout (session.withInterval interval) running _
            · refine .inr (.inr (.inl ⟨⟨valid, ?_⟩, interval, session.state,
                session.withInterval interval, .refl _, ?_⟩))
              · intro flagged
                simpa [kept, flagged, ← mayEq] using refused
              simp only [handleLogon, found, taken, roleEq, refused, if_false, Bool.false_eq_true]

/-- What the handler of a message can do, from the moment it is called. -/
inductive HandlerOutcome (called : Session) (type : Bytes) (view : ValidMessageView)
    (after : Session) : Prop
  /-- At most something is sent. -/
  | quiet (keeps : Keeps called after)
  /-- The message is answered with a Logout. -/
  | refused (refuses : type = ascii "A" ∧ ¬called.LogonPasses view.message ∨
        type = ascii "4" ∧ ¬called.ResetPasses view)
      (interval : ℕ)
      (keeps : Keeps ((called.withInterval interval).withState .awaitingLogout) after)
  | loggedOn (isLogon : type = ascii "A") (passes : called.LogonPasses view.message) (interval : ℕ) (state : SessionState)
      (replied : Session) (keeps : Keeps ((called.withInterval interval).withState state) replied)
      (after_eq : after = replied.becomeActive)
  /-- An acceptor accepts a Logon that resets the numbers. -/
  | renumbered (isLogon : type = ascii "A") (passes : called.LogonPasses view.message)
      (isAcceptor : called.role = .acceptor)
      (allowed : called.params.acceptorResetOnLogon = true)
      (flagged : view.message.firstValue? 141 = some (ascii "Y"))
      (interval : ℕ) (replied : Session)
      (keeps : Keeps (((called.withInterval interval).withState .logonReceived).resetSequence
        called.seqProvider.acceptorReset) replied)
      (after_eq : after = replied.becomeActive)
  | stopped (isLogout : type = ascii "5") (keeps : Keeps called.asStopped after)
  | moved (isReset : type = ascii "4")
      (accepted : called.ResetPasses view)
      (after_eq : after = called.updateIn (newSeqNo view))

theorem handle_outcome (session : Session) (running : session.stopped = false) (type : Bytes)
    (view : ValidMessageView) :
    HandlerOutcome (session.called type view) type view (session.handle type view) := by
  have runningCalled : (session.called type view).stopped = false := running
  rw [handle]
  by_cases logon : type = ascii "A"
  · rw [if_pos logon]
    rcases handleLogon_cases runningCalled view with quiet | ⟨refuses, interval, refused⟩ |
      ⟨passes, interval, state, replied, keeps, afterEq⟩ |
      ⟨passes, isAcceptor, allowed, flagged, interval, replied, keeps, afterEq⟩
    · exact .quiet quiet
    · exact .refused (.inl ⟨logon, refuses⟩) interval refused
    · exact .loggedOn logon passes interval state replied keeps afterEq
    · exact .renumbered logon passes isAcceptor allowed flagged interval replied keeps afterEq
  rw [if_neg logon]
  by_cases logout : type = ascii "5"
  · rw [if_pos logout]
    exact .stopped logout (handleLogout_stops runningCalled)
  rw [if_neg logout]
  split
  · exact .quiet (keeps_handleHeartbeat _)
  split
  · exact .quiet (keeps_handleTestRequest _ _)
  split
  · exact .quiet (keeps_handleResendRequest _ _)
  split
  · exact .quiet (keeps_handleReject _ _)
  split
  · next reset =>
      rcases handleSequenceReset_cases runningCalled view with quiet | ⟨refuses, refused⟩ |
        ⟨accepted, afterEq⟩
      · exact .quiet quiet
      · exact .refused (.inr ⟨reset, refuses⟩) session.params.heartBeatInt refused
      · exact .moved reset accepted afterEq
  split
  · exact .quiet (keeps_handleCustom _ _)
  · exact .quiet (.refl _)

theorem HandlerOutcome.cache_eq {called after : Session} {type : Bytes}
    (outcome : HandlerOutcome called type view after) :
    after.recoveryCache = called.recoveryCache := by
  cases outcome with
  | quiet keeps => exact keeps.cache_eq
  | refused _ interval keeps => exact keeps.cache_eq
  | loggedOn _ _ interval state replied keeps afterEq =>
      rw [afterEq]
      exact replied.keeps_becomeActive.cache_eq.trans keeps.cache_eq
  | renumbered _ _ _ _ _ interval replied keeps afterEq =>
      rw [afterEq]
      exact replied.keeps_becomeActive.cache_eq.trans keeps.cache_eq
  | stopped _ keeps => exact keeps.cache_eq
  | moved _ _ afterEq => rw [afterEq]; rfl

/-- No handler begins a recovery. -/
theorem HandlerOutcome.recovering {called after : Session} {type : Bytes}
    (outcome : HandlerOutcome called type view after) (recovering : after.state = .recoveringResend) :
    called.state = .recoveringResend := by
  cases outcome with
  | quiet keeps => exact keeps.state_eq.symm.trans recovering
  | refused _ interval keeps =>
      have : SessionState.awaitingLogout = .recoveringResend := keeps.state_eq.symm.trans recovering
      simp at this
  | loggedOn _ _ interval state replied keeps afterEq =>
      rw [afterEq] at recovering
      have : SessionState.active = .recoveringResend :=
        replied.keeps_becomeActive.state_eq.symm.trans recovering
      simp at this
  | renumbered _ _ _ _ _ interval replied keeps afterEq =>
      rw [afterEq] at recovering
      have : SessionState.active = .recoveringResend :=
        replied.keeps_becomeActive.state_eq.symm.trans recovering
      simp at this
  | stopped _ keeps =>
      have : SessionState.disconnected = .recoveringResend := keeps.state_eq.symm.trans recovering
      simp at this
  | moved _ _ afterEq =>
      rw [afterEq] at recovering
      exact recovering

/-- Only a Logout stops the session. -/
theorem HandlerOutcome.stops {called after : Session} {type : Bytes}
    (outcome : HandlerOutcome called type view after) (running : called.stopped = false)
    (stopped : after.stopped = true) : type = ascii "5" ∧ after.state = .disconnected := by
  have contradiction : after.stopped = called.stopped → type = ascii "5" ∧
      after.state = .disconnected := by
    intro same
    rw [same, running] at stopped
    simp at stopped
  cases outcome with
  | quiet keeps => exact contradiction keeps.stopped_eq
  | refused _ interval keeps => exact contradiction keeps.stopped_eq
  | loggedOn _ _ interval state replied keeps afterEq =>
      refine contradiction ?_
      rw [afterEq]
      exact replied.keeps_becomeActive.stopped_eq.trans keeps.stopped_eq
  | renumbered _ _ _ _ _ interval replied keeps afterEq =>
      refine contradiction ?_
      rw [afterEq]
      exact replied.keeps_becomeActive.stopped_eq.trans keeps.stopped_eq
  | stopped isLogout keeps => exact ⟨isLogout, keeps.state_eq⟩
  | moved _ _ afterEq => exact contradiction (by rw [afterEq]; rfl)

end Handlers

section Sequence

variable {session : Session} {type raw : Bytes} {view : ValidMessageView}

@[simp]
theorem state_cacheMessage (session : Session) (seqNum : ℕ) (raw : Bytes) :
    (session.cacheMessage seqNum raw).state = session.state := by
  simp only [cacheMessage]
  split <;> rfl

@[simp]
theorem stopped_cacheMessage (session : Session) (seqNum : ℕ) (raw : Bytes) :
    (session.cacheMessage seqNum raw).stopped = session.stopped := by
  simp only [cacheMessage]
  split <;> rfl

theorem not_contains_start (cache : RecoveryCache) (first seqNum : ℕ) :
    (cache.start first).contains seqNum = false := by
  simp [RecoveryCache.contains, RecoveryCache.start, RecoveryCache.reset]

/-- Recovery begins with a request, and the message is the first in the cache. -/
theorem beginRecovery_eq (session : Session) (seqNum : ℕ) (raw : Bytes) :
    ∃ requested, Keeps session requested ∧
      session.beginRecovery seqNum raw =
        ((requested.withState .recoveringResend).withCache
          (session.recoveryCache.start session.seqProvider.nextIn)).cacheMessage seqNum raw := by
  have requested := session.keeps_sendResendRequest session.seqProvider.nextIn (seqNum - 1)
  have absent : ((((session.sendResendRequest session.seqProvider.nextIn (seqNum - 1)).withState
      .recoveringResend).withCache (session.recoveryCache.start
        session.seqProvider.nextIn)).recoveryCache.contains seqNum) = false :=
    not_contains_start _ _ _
  refine ⟨_, requested, ?_⟩
  simp only [beginRecovery, requested.cache_eq, absent, Bool.false_eq_true, if_false]

/-- What the sequence checks decide about a valid message. -/
inductive SequenceOutcome (session : Session) (type : Bytes) (view : ValidMessageView)
    (raw : Bytes) (after : Session) : Prop
  | inSequence (seq_eq : view.headerCache.msgSeqNum = session.seqProvider.nextIn)
      (after_eq : after =
        (session.updateIn (view.headerCache.msgSeqNum + 1)).handle type view)
  | cached (ahead : session.seqProvider.nextIn < view.headerCache.msgSeqNum)
      (recovering : session.state = .recoveringResend)
      (within : session.recoveryCache.inWindow view.headerCache.msgSeqNum = true)
      (absent : session.recoveryCache.contains view.headerCache.msgSeqNum = false)
      (after_eq : after = session.cacheMessage view.headerCache.msgSeqNum raw)
  | gap (ahead : session.seqProvider.nextIn < view.headerCache.msgSeqNum)
      (notRecovering : session.state ≠ .recoveringResend)
      (requested : Session) (keeps : Keeps session requested)
      (after_eq : after = ((requested.withState .recoveringResend).withCache
        (session.recoveryCache.start session.seqProvider.nextIn)).cacheMessage
          view.headerCache.msgSeqNum raw)
  /-- Already cached, or an old message marked as a possible duplicate. -/
  | quiet (keeps : Keeps session after)
  /-- Too far ahead during a recovery. -/
  | tooHigh (ahead : session.seqProvider.nextIn < view.headerCache.msgSeqNum)
      (recovering : session.state = .recoveringResend)
      (outside : session.recoveryCache.inWindow view.headerCache.msgSeqNum = false)
      (keeps : Keeps (session.withState .awaitingLogout) after)
  | tooLow (behind : view.headerCache.msgSeqNum < session.seqProvider.nextIn)
      (unmarked : view.headerCache.possDupFlag ≠ some (ascii "Y"))
      (keeps : Keeps (session.withState .awaitingLogout) after)

theorem checkSequence_outcome (running : session.stopped = false) (type : Bytes)
    (view : ValidMessageView) (raw : Bytes) :
    SequenceOutcome session type view raw (session.checkSequence type view raw) := by
  simp only [checkSequence]
  split
  · next seqEq => exact .inSequence seqEq rfl
  next notNext =>
  split
  · next ahead =>
      split
      · next recovering =>
          split
          · next within =>
              split
              · exact .quiet (.refl _)
              · next absent =>
                  exact .cached ahead recovering within (by simpa using absent) rfl
          · next outside =>
              exact .tooHigh ahead recovering (by simpa using outside)
                (keeps_stopWithLogout running _)
      · next notRecovering =>
          obtain ⟨requested, keeps, afterEq⟩ :=
            session.beginRecovery_eq view.headerCache.msgSeqNum raw
          exact .gap ahead notRecovering requested keeps afterEq
  · next notAhead =>
      split
      · exact .quiet (.refl _)
      · next unmarked => exact .tooLow (by omega) unmarked (keeps_stopWithLogout running _)

end Sequence

section Dispatch

variable {session : Session} {message : Message} {raw : Bytes}

/-- What the session's validator finds in a message. -/
def results (session : Session) (message : Message) : ValidatorResult :=
  (session.validator.validateMessage (makeValidMessageView message) session.params).results

/-- The message gets past the validation at the start of `dispatch`. -/
structure Accepts (session : Session) (message : Message) (type : Bytes) : Prop where
  notFatal : (session.results message).severity ≠ .fatal
  noErrors : (session.results message).errors = []
  type_eq : (makeValidMessageView message).headerCache.msgType = some type
  numbered : (makeValidMessageView message).headerCache.hasMsgSeqNum = true

theorem keeps_withValidator (session : Session) (validator : Validator) :
    Keeps session (session.withValidator validator) :=
  ⟨rfl, rfl, rfl, rfl, rfl, rfl, rfl, rfl, rfl, [], by simp [withValidator]⟩

theorem Keeps.established_eq {before after : Session} (keeps : Keeps before after) :
    after.established = before.established := by
  rw [established, established, keeps.state_eq]

/-- What `dispatch` does to a session, branch by branch. -/
inductive DispatchOutcome (session : Session) (message : Message) (raw : Bytes)
    (after : Session) : Prop
  | stopped (isStopped : session.stopped = true) (after_eq : after = session)
  /-- Rejected, or without a usable header. -/
  | quiet (running : session.stopped = false)
      (notFatal : (session.results message).severity ≠ .fatal)
      (unaccepted : ∀ type, ¬session.Accepts message type) (keeps : Keeps session after)
  /-- Fatal error, or an application message before the Logon. -/
  | refused (running : session.stopped = false)
      (why : (session.results message).severity = .fatal ∨ ∃ type, session.Accepts message type ∧
        isAppMessageType type = true ∧ session.established = false)
      (keeps : Keeps (session.withState .awaitingLogout) after)
      (ready : Session) (keepsReady : Keeps session ready) (reason : Bytes)
      (after_eq : after = ready.stopWithLogout reason)
  | checked (running : session.stopped = false) (type : Bytes)
      (accepts : session.Accepts message type)
      (admitted : isAppMessageType type = true → session.established = true)
      (ready : Session) (keeps : Keeps session ready)
      (after_eq : after = ready.checkSequence type (makeValidMessageView message) raw)

/-- An accepted message that is admitted goes to the sequence checks. -/
theorem dispatchValid_admitted {type : Bytes} (view : ValidMessageView) (raw : Bytes)
    (admitted : isAppMessageType type = true → session.established = true) :
    ∃ ready, Keeps session ready ∧
      session.dispatchValid type view raw = ready.checkSequence type view raw := by
  by_cases live : session.established = true
  · have timed := session.keeps_scheduleTestRequestTimeout
    refine ⟨_, timed, ?_⟩
    simp only [dispatchValid, live, if_true, timed.established_eq, Bool.not_true,
      Bool.false_and, Bool.false_eq_true, if_false]
  · refine ⟨session, .refl _, ?_⟩
    have admin : isAppMessageType type = false := by
      by_contra app
      exact live (admitted (by simpa using app))
    simp only [dispatchValid, live, admin, Bool.false_eq_true, if_false, Bool.and_false]

theorem dispatch_accepted {type : Bytes} (running : session.stopped = false)
    (accepts : session.Accepts message type) (raw : Bytes) :
    ∃ ready, Keeps session ready ∧ session.dispatch message raw =
      ready.dispatchValid type (makeValidMessageView message) raw := by
  refine ⟨_, session.keeps_withValidator
    (session.validator.validateMessage (makeValidMessageView message) session.params), ?_⟩
  have notFatal := accepts.notFatal
  have noErrors := accepts.noErrors
  simp only [results] at notFatal noErrors
  simp only [dispatch, running, Bool.false_eq_true, if_false, notFatal, noErrors,
    accepts.type_eq, accepts.numbered]

theorem dispatch_outcome (session : Session) (message : Message) (raw : Bytes) :
    DispatchOutcome session message raw (session.dispatch message raw) := by
  cases running : session.stopped with
  | true => exact .stopped running (by simp [dispatch, running])
  | false =>
      by_cases accepted : ∃ type, session.Accepts message type
      · obtain ⟨type, accepts⟩ := accepted
        obtain ⟨ready, keeps, dispatchEq⟩ := dispatch_accepted running accepts raw
        rw [dispatchEq]
        by_cases admitted : isAppMessageType type = true → ready.established = true
        · obtain ⟨timed, keepsTimed, validEq⟩ := dispatchValid_admitted
            (makeValidMessageView message) raw admitted
          rw [validEq]
          exact .checked running type accepts (by rwa [keeps.established_eq] at admitted) timed
            (keeps.trans keepsTimed) rfl
        · simp only [Classical.not_imp, Bool.not_eq_true] at admitted
          simp only [dispatchValid, admitted.1, admitted.2, Bool.false_eq_true, if_false,
            Bool.not_false, Bool.and_self, if_true]
          refine .refused running (.inr ⟨type, accepts, admitted.1, ?_⟩)
            ((keeps.withState _).trans (keeps_stopWithLogout (keeps.stopped_eq.trans running) _))
            ready keeps _ rfl
          rw [← keeps.established_eq]
          exact admitted.2
      · simp only [dispatch, running, Bool.false_eq_true, if_false]
        split
        · next isFatal =>
          have validated := session.keeps_withValidator
            (session.validator.validateMessage (makeValidMessageView message) session.params)
          exact .refused running (.inl isFatal) ((validated.withState _).trans
            (keeps_stopWithLogout (validated.stopped_eq.trans running) _)) _ validated _ rfl
        next notFatal =>
        split
        · exact .quiet running notFatal (by simpa using accepted)
            ((session.keeps_withValidator _).trans (keeps_sendReject _ _ _ _ _))
        next noErrors =>
        split
        · next _ _ type typeEq numbered =>
            exact absurd ⟨type, notFatal, noErrors, typeEq, numbered⟩ accepted
        · exact .quiet running notFatal (by simpa using accepted) (session.keeps_withValidator _)

/-- The message is valid and gets to the sequence checks. -/
structure Admitted (session : Session) (message : Message) (type : Bytes) : Prop where
  accepts : session.Accepts message type
  allowed : isAppMessageType type = true → session.established = true

/-- The message is answered with a Logout. -/
inductive Refuses (session : Session) (message : Message) : Prop
  | fatal (isFatal : (session.results message).severity = .fatal)
  | early (type : Bytes) (accepts : session.Accepts message type)
      (app : isAppMessageType type = true) (idle : session.established = false)
  | tooHigh (type : Bytes) (admitted : session.Admitted message type)
      (ahead : session.seqProvider.nextIn < (makeValidMessageView message).headerCache.msgSeqNum)
      (recovering : session.state = .recoveringResend)
      (outside : session.recoveryCache.inWindow
        (makeValidMessageView message).headerCache.msgSeqNum = false)
  | tooLow (type : Bytes) (admitted : session.Admitted message type)
      (behind : (makeValidMessageView message).headerCache.msgSeqNum < session.seqProvider.nextIn)
      (unmarked : (makeValidMessageView message).headerCache.possDupFlag ≠ some (ascii "Y"))
  | logon (admitted : session.Admitted message (ascii "A"))
      (turn : (makeValidMessageView message).headerCache.msgSeqNum = session.seqProvider.nextIn)
      (fails : ¬session.LogonPasses message)
  | reset (admitted : session.Admitted message (ascii "4"))
      (turn : (makeValidMessageView message).headerCache.msgSeqNum = session.seqProvider.nextIn)
      (fails : ¬(session.updateIn ((makeValidMessageView message).headerCache.msgSeqNum + 1)
        ).ResetPasses (makeValidMessageView message))

/-- What `dispatch` does, with the branches of the sequence checks and the handlers. -/
inductive DispatchEffect (session : Session) (message : Message) (raw : Bytes)
    (after : Session) : Prop
  | stopped (isStopped : session.stopped = true) (after_eq : after = session)
  /-- Rejected, or nothing is to be done. -/
  | quiet (running : session.stopped = false) (keeps : Keeps session after)
  | loggedOut (running : session.stopped = false) (refuses : session.Refuses message)
      (keeps : Keeps (session.withState .awaitingLogout) after)
  | handled (running : session.stopped = false) (type : Bytes)
      (admitted : session.Admitted message type)
      (turn : (makeValidMessageView message).headerCache.msgSeqNum = session.seqProvider.nextIn)
      (ready : Session) (keeps : Keeps session ready)
      (after_eq : after = (ready.updateIn
        ((makeValidMessageView message).headerCache.msgSeqNum + 1)).handle type
          (makeValidMessageView message))
  | cached (running : session.stopped = false) (type : Bytes)
      (admitted : session.Admitted message type)
      (ahead : session.seqProvider.nextIn < (makeValidMessageView message).headerCache.msgSeqNum)
      (recovering : session.state = .recoveringResend)
      (within : session.recoveryCache.inWindow
        (makeValidMessageView message).headerCache.msgSeqNum = true)
      (absent : session.recoveryCache.contains
        (makeValidMessageView message).headerCache.msgSeqNum = false)
      (ready : Session) (keeps : Keeps session ready)
      (after_eq : after = ready.cacheMessage
        (makeValidMessageView message).headerCache.msgSeqNum raw)
  | gap (running : session.stopped = false) (type : Bytes)
      (admitted : session.Admitted message type)
      (ahead : session.seqProvider.nextIn < (makeValidMessageView message).headerCache.msgSeqNum)
      (notRecovering : session.state ≠ .recoveringResend)
      (requested : Session) (keeps : Keeps session requested)
      (after_eq : after = ((requested.withState .recoveringResend).withCache
        (session.recoveryCache.start session.seqProvider.nextIn)).cacheMessage
          (makeValidMessageView message).headerCache.msgSeqNum raw)

theorem dispatch_admitted {type : Bytes} (running : session.stopped = false)
    (admitted : session.Admitted message type) (raw : Bytes) :
    ∃ ready, Keeps session ready ∧ session.dispatch message raw =
      ready.checkSequence type (makeValidMessageView message) raw := by
  rcases dispatch_accepted running admitted.accepts raw with ⟨validated, keeps, dispatchEq⟩
  have allowed : isAppMessageType type = true → validated.established = true := by
    rw [keeps.established_eq]
    exact admitted.allowed
  rcases dispatchValid_admitted (makeValidMessageView message) raw allowed with
    ⟨ready, keepsReady, validEq⟩
  exact ⟨ready, keeps.trans keepsReady, dispatchEq.trans validEq⟩

theorem dispatch_effect (session : Session) (message : Message) (raw : Bytes) :
    DispatchEffect session message raw (session.dispatch message raw) := by
  cases session.dispatch_outcome message raw with
  | stopped isStopped afterEq => exact .stopped isStopped afterEq
  | quiet running _ _ keeps => exact .quiet running keeps
  | refused running why keeps _ _ _ _ =>
      refine .loggedOut running ?_ keeps
      rcases why with isFatal | ⟨type, accepts, app, idle⟩
      · exact .fatal isFatal
      · exact .early type accepts app idle
  | checked running type accepts allowed ready keeps afterEq =>
      have readyRunning : ready.stopped = false := keeps.stopped_eq.trans running
      have admitted : session.Admitted message type := ⟨accepts, allowed⟩
      rw [afterEq]
      cases checkSequence_outcome readyRunning type (makeValidMessageView message) raw with
      | inSequence turn sequenceEq =>
          exact .handled running type admitted (turn.trans keeps.nextIn_eq) ready keeps sequenceEq
      | cached ahead recovering within absent cachedEq =>
          rw [keeps.nextIn_eq] at ahead
          rw [keeps.state_eq] at recovering
          rw [keeps.cache_eq] at within absent
          exact .cached running type admitted ahead recovering within absent ready keeps cachedEq
      | gap ahead notRecovering requested keepsRequested gapEq =>
          rw [keeps.nextIn_eq] at ahead gapEq
          rw [keeps.state_eq] at notRecovering
          rw [keeps.cache_eq] at gapEq
          exact .gap running type admitted ahead notRecovering requested
            (keeps.trans keepsRequested) gapEq
      | quiet keepsQuiet => exact .quiet running (keeps.trans keepsQuiet)
      | tooHigh ahead recovering outside keepsHigh =>
          rw [keeps.nextIn_eq] at ahead
          rw [keeps.state_eq] at recovering
          rw [keeps.cache_eq] at outside
          exact .loggedOut running (.tooHigh type admitted ahead recovering outside)
            ((keeps.withState _).trans keepsHigh)
      | tooLow behind unmarked keepsLow =>
          rw [keeps.nextIn_eq] at behind
          exact .loggedOut running (.tooLow type admitted behind unmarked)
            ((keeps.withState _).trans keepsLow)

end Dispatch

end Session

end FixEngine
