import FixEngine.Recovery.Window

/-!
# The end of a session

A session ends in two ways. `stop` is final: nothing is sent or handled any more. And
`stop_with_logout` only waits for the peer's Logout. Both can happen in the middle of a handler,
and the code after them goes on: a drain that takes the last message out of the recovery cache
makes the session active, whatever its state. So the results here speak about every session a
step passes through, between one call of `dispatch` and the next, and those about the Logout also
about the states assigned inside `dispatch`.
-/

namespace FixEngine

namespace Session

section Passed

/-- The sessions a drain passes through, the one it starts with included. -/
def drainStates : ℕ → Session → List Session
  | 0, session => [session]
  | rounds + 1, session =>
      let raw := session.recoveryCache.get session.seqProvider.nextIn
      session ::
        if session.recoveryCache.contains session.seqProvider.nextIn && (Parser.parse raw).2 = [] then
          drainStates rounds (session.drainOne (Parser.parse raw).1 raw)
        else []

/-- The sessions a step passes through, the one it starts with included. -/
def passed (session : Session) : Input → List Session
  | .frame wire =>
      let received := session.receive wire
      session ::
        if received.recoveryCache.empty || received.state ≠ .recoveringResend then [received]
        else drainStates (RecoveryCache.window + 1) received
  | input => [session, session.step input]

end Passed

section Stopped

variable {session after : Session} {message : Message} {raw : Bytes}

/-- `after` is as `before`, which was stopped. -/
structure Rests (before after : Session) : Prop where
  stopped : after.stopped = true
  state_eq : after.state = .disconnected
  writeQ_eq : after.writeQ = before.writeQ
  deliveries_eq : deliveries after.trace = deliveries before.trace

theorem Rests.trans {first second third : Session} (left : Rests first second)
    (right : Rests second third) : Rests first third :=
  ⟨right.stopped, right.state_eq, right.writeQ_eq.trans left.writeQ_eq,
    right.deliveries_eq.trans left.deliveries_eq⟩

theorem rests_self (stopped : session.stopped = true) (state_eq : session.state = .disconnected) :
    Rests session session := ⟨stopped, state_eq, rfl, rfl⟩

theorem dispatch_stopped (stopped : session.stopped = true) :
    session.dispatch message raw = session := by
  rw [dispatch, if_pos stopped]

theorem receive_stopped (stopped : session.stopped = true) (wire : Bytes) :
    session.receive wire = session := by
  simp only [receive, dispatch_stopped stopped, stopWithLogout, stopped, if_true, ite_self]

/-- The last cached message is not taken out of the cache by a drain that stops the session, or
finds it stopped. -/
def DrainRests (session : Session) (message : Message) : Prop :=
  session.stopped = true ∨ session.Admitted message (ascii "5") ∧
      (makeValidMessageView message).headerCache.msgSeqNum = session.seqProvider.nextIn →
    (session.recoveryCache.consume session.seqProvider.nextIn).empty = false

theorem drainOne_cache_eq (cache_eq : (session.dispatch message raw).recoveryCache =
    session.recoveryCache) :
    (session.drainOne message raw).recoveryCache =
      session.recoveryCache.consume session.seqProvider.nextIn := by
  simp only [drainOne]
  split <;> simp [Session.withCache, recordFault, record, cache_eq]

theorem drainOne_state (session : Session) (message : Message) (raw : Bytes) :
    (session.drainOne message raw).state = (session.dispatch message raw).state ∧
      (session.drainOne message raw).stopped = (session.dispatch message raw).stopped := by
  simp only [drainOne]
  split <;> exact ⟨rfl, rfl⟩

theorem rests_drainOne (rests : Rests session session) :
    Rests session (session.drainOne message raw) := by
  simp only [drainOne, dispatch_stopped rests.stopped]
  split
  · exact ⟨rests.stopped, rests.state_eq, rfl, rfl⟩
  · exact ⟨rests.stopped, rests.state_eq, rfl, by
      simp [Session.withCache, recordFault, record, deliveries]⟩

theorem writeQ_sendBuilt_stopped (stopped : session.stopped = true) (type : Bytes)
    (built : Bytes × MessageFactory) (isResend : Bool) :
    (session.sendBuilt type built isResend).writeQ = session.writeQ := by
  have kept : (session.withFactory built.2).stopped = true := stopped
  rw [sendBuilt, sendMessage, if_pos kept]
  rfl

/-- In `dispatch` only a Logout in sequence stops the session. -/
theorem dispatch_stops (running : session.stopped = false)
    (stopped : (session.dispatch message raw).stopped = true) :
    session.Admitted message (ascii "5") ∧
      (makeValidMessageView message).headerCache.msgSeqNum = session.seqProvider.nextIn ∧
      (session.dispatch message raw).state = .disconnected ∧
      (session.dispatch message raw).recoveryCache = session.recoveryCache := by
  cases session.dispatch_effect message raw with
  | stopped isStopped afterEq => simp [running] at isStopped
  | quiet _ keeps => rw [keeps.stopped_eq, running] at stopped; simp at stopped
  | loggedOut _ _ keeps =>
      have : session.stopped = true := keeps.stopped_eq.symm.trans stopped
      simp [running] at this
  | handled _ type admitted turn ready keeps afterEq =>
      have readyRunning : ready.stopped = false := keeps.stopped_eq.trans running
      have outcome := (ready.updateIn ((makeValidMessageView message).headerCache.msgSeqNum + 1)
        ).handle_outcome readyRunning type (makeValidMessageView message)
      rw [← afterEq] at outcome
      rcases outcome.stops readyRunning stopped with ⟨isLogout, disconnected⟩
      exact ⟨isLogout ▸ admitted, turn, disconnected, outcome.cache_eq.trans keeps.cache_eq⟩
  | cached _ type _ _ _ _ _ ready keeps afterEq =>
      rw [afterEq, stopped_cacheMessage, keeps.stopped_eq, running] at stopped
      simp at stopped
  | gap _ type _ _ _ requested keeps afterEq =>
      rw [afterEq, stopped_cacheMessage] at stopped
      have : session.stopped = true := keeps.stopped_eq.symm.trans stopped
      simp [running] at this

/-- Between the rounds of a drain: a stopped session is disconnected, and its cache holds
something. -/
def Halts (session : Session) : Prop :=
  session.stopped = true → session.state = .disconnected ∧ session.recoveryCache.empty = false

theorem halts_drainOne (halts : session.Halts) (condition : session.DrainRests message) :
    (session.drainOne message raw).Halts := by
  intro stoppedAfter
  have stopped : (session.dispatch message raw).stopped = true :=
    (session.drainOne_state message raw).2.symm.trans stoppedAfter
  rw [(session.drainOne_state message raw).1]
  cases running : session.stopped with
  | true =>
      have same : session.dispatch message raw = session := dispatch_stopped running
      rw [drainOne_cache_eq (by rw [same]), same]
      exact ⟨(halts running).1, condition (.inl running)⟩
  | false =>
      rcases dispatch_stops running stopped with ⟨admitted, turn, disconnected, cacheEq⟩
      rw [drainOne_cache_eq cacheEq]
      exact ⟨disconnected, condition (.inr ⟨admitted, turn⟩)⟩

/-- A drain leaves a stopped session as it is, once its cache cannot become empty. -/
theorem rests_drainLoop {rounds : ℕ} (rests : Rests session session)
    (filled : session.recoveryCache.empty = false) (each : EachDrain DrainRests rounds session) :
    Rests session (drainLoop rounds session) := by
  induction rounds generalizing session with
  | zero =>
      exact ⟨rests.stopped, rests.state_eq, rfl, by
        simp [drainLoop, recordFault, record, deliveries]⟩
  | succ rounds ih =>
      simp only [drainLoop]
      split
      · next present =>
          split
          · next parsed =>
              rcases each present parsed with ⟨here, rest⟩
              have next := @rests_drainOne session
                (Parser.parse (session.recoveryCache.get session.seqProvider.nextIn)).1
                (session.recoveryCache.get session.seqProvider.nextIn) rests
              have cacheEq := @drainOne_cache_eq session
                (Parser.parse (session.recoveryCache.get session.seqProvider.nextIn)).1
                (session.recoveryCache.get session.seqProvider.nextIn)
                (by rw [dispatch_stopped rests.stopped])
              refine next.trans (ih ⟨next.stopped, next.state_eq, rfl, rfl⟩ ?_ rest)
              rw [cacheEq]
              exact here (.inl rests.stopped)
          · have kept := session.keeps_sendLogout (ascii "Parse error during recovery")
            have stopped : (session.sendLogout (ascii "Parse error during recovery")).stopped =
              true := kept.stopped_eq.trans rests.stopped
            rw [stop_eq_self stopped]
            exact ⟨stopped, kept.state_eq.trans rests.state_eq,
              writeQ_sendBuilt_stopped rests.stopped _ _ _, kept.deliveries_eq⟩
      · rw [if_neg (by simp [filled])]
        exact rests

/-- A stopped session is disconnected. -/
def Ended (session : Session) : Prop := session.stopped = true → session.state = .disconnected

theorem ended_stop (ended : session.Ended) : session.stop.Ended := by
  cases running : session.stopped with
  | true => rwa [stop_eq_self running]
  | false => exact fun _ => (keeps_stop running).state_eq

theorem drainLoop_succ {rounds : ℕ}
    (present : session.recoveryCache.contains session.seqProvider.nextIn = true)
    (reads : (Parser.parse (session.recoveryCache.get session.seqProvider.nextIn)).2 = []) :
    drainLoop (rounds + 1) session = drainLoop rounds (session.drainOne
      (Parser.parse (session.recoveryCache.get session.seqProvider.nextIn)).1
      (session.recoveryCache.get session.seqProvider.nextIn)) := by
  simp only [drainLoop, present, reads, if_true]

/-- Whatever session a drain passes through: from the moment it is stopped it rests. -/
theorem rests_drainStates {rounds : ℕ} (halts : session.Halts)
    (each : EachDrain DrainRests rounds session) :
    (drainLoop rounds session).Ended ∧
      ∀ middle ∈ drainStates rounds session, middle.stopped = true →
        middle.state = .disconnected ∧ Rests middle (drainLoop rounds session) := by
  have here : session.stopped = true →
      session.state = .disconnected ∧ Rests session (drainLoop rounds session) := by
    intro stopped
    rcases halts stopped with ⟨disconnected, filled⟩
    exact ⟨disconnected, rests_drainLoop (rests_self stopped disconnected) filled each⟩
  induction rounds generalizing session with
  | zero =>
      refine ⟨fun stopped => (halts stopped).1, fun middle mem => ?_⟩
      rw [drainStates, List.mem_singleton] at mem
      rw [mem]
      exact here
  | succ rounds ih =>
      by_cases continues : session.recoveryCache.contains session.seqProvider.nextIn = true ∧
          (Parser.parse (session.recoveryCache.get session.seqProvider.nextIn)).2 = []
      · rcases each continues.1 continues.2 with ⟨condition, rest⟩
        have next := @halts_drainOne session _
          (session.recoveryCache.get session.seqProvider.nextIn) halts condition
        have loopEq := @drainLoop_succ session rounds continues.1 continues.2
        rcases ih next rest (fun stopped => by
          rcases next stopped with ⟨disconnected, filled⟩
          exact ⟨disconnected, rests_drainLoop (rests_self stopped disconnected) filled rest⟩) with
          ⟨ended, restsLater⟩
        rw [loopEq]
        refine ⟨ended, fun middle mem => ?_⟩
        simp only [drainStates, continues.1, continues.2, decide_true, Bool.and_self, if_true,
          List.mem_cons] at mem
        rcases mem with rfl | later
        · rwa [loopEq] at here
        · exact restsLater middle later
      · refine ⟨?_, fun middle mem => ?_⟩
        · simp only [drainLoop]
          split
          · next present =>
              rw [if_neg (fun parsed => continues ⟨present, parsed⟩)]
              have kept := session.keeps_sendLogout (ascii "Parse error during recovery")
              apply ended_stop
              rw [Ended, kept.stopped_eq, kept.state_eq]
              exact fun stopped => (halts stopped).1
          · split
            · next isEmpty =>
                intro stopped
                have := (halts stopped).2
                simp [isEmpty] at this
            · exact fun stopped => (halts stopped).1
        · have ends : ¬(session.recoveryCache.contains session.seqProvider.nextIn &&
              decide ((Parser.parse (session.recoveryCache.get session.seqProvider.nextIn)).2 = []))
              = true := by simpa using continues
          rw [drainStates] at mem
          simp only [ends, Bool.false_eq_true, if_false, List.mem_singleton] at mem
          rw [mem]
          exact here

/-- The condition on a step: a drain that stops the session leaves something in the cache, and a
stopped session is not started anew. -/
def StepRests (session : Session) : Input → Prop
  | .frame wire => (session.receive wire).state = .recoveringResend →
      EachDrain DrainRests (RecoveryCache.window + 1) (session.receive wire)
  | .start .normal => session.stopped = false ∨ session.conn = none
  | _ => True

theorem ended_receive (ended : session.Ended) (wire : Bytes) : (session.receive wire).Ended := by
  cases running : session.stopped with
  | true => rwa [receive_stopped running]
  | false =>
      intro stopped
      simp only [receive] at stopped ⊢
      split at stopped
      · next parsed =>
          rw [if_pos parsed]
          exact (dispatch_stops running stopped).2.2.1
      · have : session.stopped = true :=
          (keeps_stopWithLogout running _).stopped_eq.symm.trans stopped
        simp [running] at this

theorem rests_frame {wire : Bytes} (ended : session.Ended)
    (condition : session.StepRests (.frame wire)) :
    (session.processWireMessage wire).Ended ∧
      ∀ middle ∈ session.passed (.frame wire), middle.stopped = true →
        middle.state = .disconnected ∧ Rests middle (session.processWireMessage wire) := by
  have received := ended_receive ended wire
  have fromStart : session.stopped = true → session.processWireMessage wire = session := by
    intro stopped
    rw [processWireMessage, receive_stopped stopped, drainRecoveryCache, if_pos]
    simp [ended stopped]
  have first : session.stopped = true →
      session.state = .disconnected ∧ Rests session (session.processWireMessage wire) := by
    intro stopped
    rw [fromStart stopped]
    exact ⟨ended stopped, rests_self stopped (ended stopped)⟩
  by_cases skips : ((session.receive wire).recoveryCache.empty ||
      decide ((session.receive wire).state ≠ .recoveringResend)) = true
  · have afterEq : session.processWireMessage wire = session.receive wire := by
      rw [processWireMessage, drainRecoveryCache, if_pos skips]
    refine ⟨by rwa [afterEq], fun middle mem => ?_⟩
    simp only [passed, skips, if_true, List.mem_cons, List.not_mem_nil, or_false] at mem
    rcases mem with rfl | rfl
    · exact first
    · intro stopped
      rw [afterEq]
      exact ⟨received stopped, rests_self stopped (received stopped)⟩
  · have recovering : (session.receive wire).state = .recoveringResend := by
      simp only [Bool.or_eq_true, decide_eq_true_eq, not_or, not_not] at skips
      exact skips.2
    have halts : (session.receive wire).Halts := by
      intro stopped
      have := recovering.symm.trans (received stopped)
      simp at this
    have afterEq : session.processWireMessage wire =
        drainLoop (RecoveryCache.window + 1) (session.receive wire) := by
      rw [processWireMessage, drainRecoveryCache, if_neg skips]
    rcases rests_drainStates halts (condition recovering) with ⟨endedAfter, restsLater⟩
    refine ⟨by rwa [afterEq], fun middle mem => ?_⟩
    simp only [passed, skips, Bool.false_eq_true, if_false, List.mem_cons] at mem
    rcases mem with rfl | later
    · exact first
    · rw [afterEq]
      exact restsLater middle later

/-- A stopped session rests in every step. -/
theorem rests_step {input : Input} (stopped : session.stopped = true) (ended : session.Ended)
    (condition : session.StepRests input) : Rests session (session.step input) := by
  have rests := rests_self stopped (ended stopped)
  cases input with
  | frame wire =>
      have first : session ∈ session.passed (.frame wire) := by simp [passed]
      exact ((rests_frame ended condition).2 session first stopped).2
  | sendFromApp message msgType => simpa only [step, sendFromApp, stopped, if_true] using rests
  | heartbeatTimer => simpa only [step, onHeartbeatTimer, stopped, if_true] using rests
  | inboundTimer => simpa only [step, onInboundTimer, stopped, if_true] using rests
  | logonTimer expected => simpa only [step, onLogonTimer, stopped, if_true] using rests
  | logoutTimer => simpa only [step, onLogoutTimer, stopped, if_true] using rests
  | writeDone result => simpa only [step, onWrite, stopped, if_true] using rests
  | readFailed error => simpa only [step, onRead, stopped, if_true] using rests
  | setConnection conn => exact ⟨stopped, ended stopped, rfl, rfl⟩
  | start mode =>
      cases mode with
      | normal =>
          have unconnected : session.conn = none := by
            rcases condition with running | unconnected
            · simp [stopped] at running
            · exact unconnected
          simpa only [step, start, startNormal, unconnected] using rests
      | reconnect =>
          simp only [step, start, startAfterReconnect]
          split
          · exact rests
          · simpa only [stopped, if_true] using rests
  | stop => simpa only [step, stop_eq_self stopped] using rests

theorem ended_idle {after : Session} (running : session.stopped = false)
    (outcome : IdleOutcome session after) : after.Ended := by
  have contradiction : after.stopped = session.stopped → after.Ended := by
    intro same stopped
    rw [same, running] at stopped
    simp at stopped
  cases outcome with
  | quiet keeps => exact contradiction keeps.stopped_eq
  | connected conn afterEq => exact contradiction (by rw [afterEq]; rfl)
  | loggedOut keeps => exact contradiction keeps.stopped_eq
  | stopped keeps => exact fun _ => keeps.state_eq
  | down released keeps afterEq => exact contradiction (by rw [afterEq]; exact keeps.stopped_eq)
  | started state _ keeps => exact contradiction keeps.stopped_eq
  | renumbered _ _ reading keepsReading keeps =>
      exact contradiction (keeps.stopped_eq.trans keepsReading.stopped_eq)
  | restarted _ state _ keeps => exact contradiction keeps.stopped_eq

theorem ended_step {input : Input} (ended : session.Ended) (condition : session.StepRests input) :
    (session.step input).Ended := by
  cases running : session.stopped with
  | true => exact fun _ => (rests_step running ended condition).state_eq
  | false =>
      by_cases isFrame : ∃ wire, input = .frame wire
      · rcases isFrame with ⟨wire, rfl⟩
        exact (rests_frame ended condition).1
      · have notFrame : ∀ wire, input ≠ .frame wire := fun wire same => isFrame ⟨wire, same⟩
        exact ended_idle running (session.step_outcome notFrame)

/-- From the moment a step stops the session, the session rests. -/
theorem rests_passed {input : Input} (ended : session.Ended) (condition : session.StepRests input)
    {middle : Session} (mem : middle ∈ session.passed input) (stopped : middle.stopped = true) :
    middle.state = .disconnected ∧ Rests middle (session.step input) := by
  by_cases isFrame : ∃ wire, input = .frame wire
  · rcases isFrame with ⟨wire, rfl⟩
    exact (rests_frame ended condition).2 middle mem stopped
  · have passedEq : session.passed input = [session, session.step input] := by
      cases input with
      | frame wire => exact absurd ⟨wire, rfl⟩ isFrame
      | _ => rfl
    have endedAfter := ended_step ended condition
    simp only [passedEq, List.mem_cons, List.not_mem_nil, or_false] at mem
    rcases mem with rfl | rfl
    · exact ⟨ended stopped, rests_step stopped ended condition⟩
    · exact ⟨endedAfter stopped, rests_self stopped (endedAfter stopped)⟩

theorem rests_run {inputs : List Input} (rests : Rests session session)
    (condition : Runs.Meets step StepRests session inputs) : Rests session (session.run inputs) := by
  induction inputs generalizing session with
  | nil => exact rests
  | cons input rest ih =>
      have next := rests_step rests.stopped (fun _ => rests.state_eq) condition.1
      exact next.trans (ih (rests_self next.stopped next.state_eq) condition.2)

/-- In every run in which no drain takes the last message out of the cache of a stopped session,
and no stopped session is started anew: from the moment the session is stopped it stays
disconnected, nothing is added to its write queue, and no message is handled. -/
theorem run_stopped_terminal (id : ℕ) (role : Role) (params : SessionParameters) (clock : Clock)
    (front : List Input) (input : Input) (rest : List Input)
    (condition : Runs.Meets step StepRests (Session.new id role params clock)
      (front ++ input :: rest))
    (middle : Session)
    (mem : middle ∈ ((Session.new id role params clock).run front).passed input)
    (stopped : middle.stopped = true) :
    let after := (Session.new id role params clock).run (front ++ input :: rest)
    middle.state = .disconnected ∧ after.stopped = true ∧ after.state = .disconnected ∧
      after.writeQ = middle.writeQ ∧ deliveries after.trace = deliveries middle.trace := by
  intro after
  rcases Runs.meets_append.mp condition with ⟨earlier, here, later⟩
  have ended : ((Session.new id role params clock).run front).Ended :=
    earlier.invariant (fun isStopped => by simp [Session.new] at isStopped)
      fun current input ended here => ended_step ended here
  rcases rests_passed ended here mem stopped with ⟨disconnected, rests⟩
  have final := rests.trans (rests_run (rests_self rests.stopped rests.state_eq) later)
  have afterEq : after = (((Session.new id role params clock).run front).step input).run rest := by
    simp only [after, Session.run, List.foldl_append, List.foldl_cons]
  rw [afterEq]
  exact ⟨disconnected, final.stopped, final.state_eq, final.writeQ_eq, final.deliveries_eq⟩

/-- The session is stopped; then a heartbeat is read, a timer expires and a new connection is
reported. -/
theorem run_stopped_terminal_late :
    (initiator.run (answeredLogon ++ .stop ::
      [.frame (peerHeartbeat 2), .heartbeatTimer, .setConnection 1, .start .reconnect])).state =
        .disconnected := by
  refine (run_stopped_terminal 0 .initiator _ .standard answeredLogon .stop _ ?_
    ((initiator.run answeredLogon).step .stop) (by simp [passed, initiator])
    (by decide +kernel)).2.2.1
  refine ⟨trivial, .inl (by decide +kernel), ?_, trivial, ?_, trivial, trivial, trivial, trivial⟩
  · intro recovering
    exact absurd recovering (by decide +kernel)
  · intro recovering
    exact absurd recovering (by decide +kernel)

/-- A drained Logout stops the session, and the drain makes it active; and a stopped session that
is started sends no Logon but waits for the answer. -/
theorem run_stopped_revived :
    (stoppedInDrain.stopped = true ∧ stoppedInDrain.state = .active) ∧
      (let after := initiator.run [.setConnection 0, .stop, .start .normal];
      after.stopped = true ∧ after.state = .logonSent) := by
  decide +kernel

end Stopped

section LoggedOut

variable {session after : Session} {message : Message} {raw : Bytes}

/-- `handle_logon` assigns a state other than that of a Logout: the HeartBtInt is acceptable, and on an
initiator the reset is allowed. An acceptor refuses a reset only when it is LOGON_RECEIVED. -/
def LogonMoves (session : Session) (message : Message) : Prop :=
  (∃ interval, message.firstValue? 108 = some interval ∧
    (session.validateHeartbeatInt interval).1 = true) ∧
  (session.role = .initiator → message.firstValue? 141 = some (ascii "Y") →
    session.params.initiatorResetOnLogon = true)

theorem LogonPasses.moves (passes : session.LogonPasses message) : session.LogonMoves message := by
  refine ⟨passes.1, ?_⟩
  intro isInitiator resets
  have allowed := passes.2 resets
  rwa [mayReset, isInitiator] at allowed

/-- While the peer's Logout is awaited, no valid message is ahead of its number, and no Logon moves
the session. -/
def NotRevived (session : Session) (message : Message) : Prop :=
  session.stopped = false → session.state = .awaitingLogout →
    ∀ type, session.Admitted message type →
      (makeValidMessageView message).headerCache.msgSeqNum ≤ session.seqProvider.nextIn ∧
      (type = ascii "A" →
        (makeValidMessageView message).headerCache.msgSeqNum = session.seqProvider.nextIn →
        ¬session.LogonMoves message)

/-- In a drain, moreover: the last cached message is not taken out of the cache when a Logout was
sent before, or answers that message. -/
def DrainNotRevived (session : Session) (message : Message) : Prop :=
  session.NotRevived message ∧
    (session.state = .awaitingLogout ∨ session.stopped = true ∨ session.Refuses message →
      (session.recoveryCache.consume session.seqProvider.nextIn).empty = false)

/-- The Logout is awaited, or the session is stopped. -/
def LoggingOut (session : Session) : Prop :=
  session.state = .awaitingLogout ∨ session.stopped = true ∧ session.state = .disconnected

theorem HandlerOutcome.loggingOut {called : Session} {type : Bytes} {view : ValidMessageView}
    (outcome : HandlerOutcome called type view after) (awaits : called.state = .awaitingLogout)
    (refuses : type = ascii "A" → ¬called.LogonPasses view.message) : after.LoggingOut := by
  cases outcome with
  | quiet keeps => exact .inl (keeps.state_eq.trans awaits)
  | refused _ interval keeps => exact .inl keeps.state_eq
  | loggedOn isLogon passes interval state replied keeps afterEq =>
      exact absurd passes (refuses isLogon)
  | renumbered isLogon passes _ _ _ interval replied keeps afterEq =>
      exact absurd passes (refuses isLogon)
  | stopped _ keeps => exact .inr ⟨keeps.stopped_eq, keeps.state_eq⟩
  | moved _ _ afterEq => rw [afterEq]; exact .inl awaits

theorem loggingOut_dispatch (logging : session.LoggingOut) (notRevived : session.NotRevived message) :
    (session.dispatch message raw).LoggingOut ∧
      (session.dispatch message raw).recoveryCache = session.recoveryCache := by
  cases running : session.stopped with
  | true => rw [dispatch_stopped running]; exact ⟨logging, rfl⟩
  | false =>
      have awaits : session.state = .awaitingLogout := by
        rcases logging with awaits | ⟨stopped, -⟩
        · exact awaits
        · simp [running] at stopped
      cases session.dispatch_effect message raw with
      | stopped isStopped _ => simp [running] at isStopped
      | quiet _ keeps => exact ⟨.inl (keeps.state_eq.trans awaits), keeps.cache_eq⟩
      | loggedOut _ _ keeps => exact ⟨.inl keeps.state_eq, keeps.cache_eq⟩
      | handled _ type admitted turn ready keeps afterEq =>
          have readyRunning : ready.stopped = false := keeps.stopped_eq.trans running
          have outcome := (ready.updateIn ((makeValidMessageView message).headerCache.msgSeqNum + 1)
            ).handle_outcome readyRunning type (makeValidMessageView message)
          have refuses := (notRevived running awaits type admitted).2
          rw [afterEq]
          refine ⟨outcome.loggingOut (keeps.state_eq.trans awaits) ?_,
            outcome.cache_eq.trans keeps.cache_eq⟩
          intro isLogon passes
          exact refuses isLogon turn ((logonPasses_congr keeps.role_eq keeps.params_eq message).mp
            ((ready.logonPasses_called _ _ _ message).mp passes)).moves
      | cached _ _ _ _ recovering _ _ _ _ _ => simp [awaits] at recovering
      | gap _ type admitted ahead _ _ _ _ =>
          have := (notRevived running awaits type admitted).1
          omega

/-- A Logout is awaited after `dispatch` only when it was before, or the message is answered with
one. -/
theorem dispatch_awaits (awaits : (session.dispatch message raw).state = .awaitingLogout) :
    (session.state = .awaitingLogout ∨ session.Refuses message) ∧
      (session.dispatch message raw).recoveryCache = session.recoveryCache := by
  cases session.dispatch_effect message raw with
  | stopped _ afterEq => rw [afterEq] at awaits ⊢; exact ⟨.inl awaits, rfl⟩
  | quiet _ keeps => exact ⟨.inl (keeps.state_eq.symm.trans awaits), keeps.cache_eq⟩
  | loggedOut _ refuses keeps => exact ⟨.inr refuses, keeps.cache_eq⟩
  | handled running type admitted turn ready keeps afterEq =>
      have readyRunning : ready.stopped = false := keeps.stopped_eq.trans running
      have outcome := (ready.updateIn ((makeValidMessageView message).headerCache.msgSeqNum + 1)
        ).handle_outcome readyRunning type (makeValidMessageView message)
      rw [← afterEq] at outcome
      refine ⟨?_, outcome.cache_eq.trans keeps.cache_eq⟩
      have passesIff : session.LogonPasses message ↔
          ((ready.updateIn ((makeValidMessageView message).headerCache.msgSeqNum + 1)).called type
            (makeValidMessageView message)).LogonPasses message :=
        (logonPasses_congr keeps.role_eq keeps.params_eq message).symm.trans
          (ready.logonPasses_called _ _ _ message).symm
      cases outcome with
      | quiet quiet =>
          exact .inl (keeps.state_eq.symm.trans (quiet.state_eq.symm.trans awaits))
      | refused refuses interval refused =>
          refine .inr ?_
          rcases refuses with ⟨rfl, fails⟩ | ⟨rfl, fails⟩
          · exact .logon admitted turn fun passes => fails (passesIff.mp passes)
          · exact .reset admitted turn fails
      | loggedOn _ _ interval state replied keepsReplied repliedEq =>
          rw [repliedEq, replied.keeps_becomeActive.state_eq] at awaits
          simp [record, Session.withState] at awaits
      | renumbered _ _ _ _ _ interval replied keepsReplied repliedEq =>
          rw [repliedEq, replied.keeps_becomeActive.state_eq] at awaits
          simp [record, Session.withState] at awaits
      | stopped _ stopped =>
          rw [stopped.state_eq] at awaits
          simp [asStopped] at awaits
      | moved _ _ movedEq =>
          rw [movedEq] at awaits
          exact .inl (keeps.state_eq.symm.trans awaits)
  | cached _ _ _ _ recovering _ _ ready keeps afterEq =>
      rw [afterEq, state_cacheMessage, keeps.state_eq, recovering] at awaits
      simp at awaits
  | gap _ _ _ _ _ requested _ afterEq =>
      rw [afterEq, state_cacheMessage] at awaits
      simp [Session.withCache, Session.withState] at awaits

theorem loggingOut_drainOne (logging : session.LoggingOut)
    (condition : session.DrainNotRevived message) :
    (session.drainOne message raw).LoggingOut ∧
      (session.drainOne message raw).recoveryCache.empty = false := by
  rcases @loggingOut_dispatch session message raw logging condition.1 with ⟨dispatched, cacheEq⟩
  rcases session.drainOne_state message raw with ⟨stateEq, stoppedEq⟩
  rw [LoggingOut, stateEq, stoppedEq, drainOne_cache_eq cacheEq]
  refine ⟨dispatched, condition.2 ?_⟩
  rcases logging with awaits | ⟨stopped, -⟩
  · exact .inl awaits
  · exact .inr (.inl stopped)

theorem loggingOut_stop (logging : session.LoggingOut) : session.stop.LoggingOut := by
  cases running : session.stopped with
  | true => rwa [stop_eq_self running]
  | false => exact .inr ⟨(keeps_stop running).stopped_eq, (keeps_stop running).state_eq⟩

theorem loggingOut_drainLoop {rounds : ℕ} (logging : session.LoggingOut)
    (filled : session.recoveryCache.empty = false)
    (each : EachDrain DrainNotRevived rounds session) : (drainLoop rounds session).LoggingOut := by
  induction rounds generalizing session with
  | zero => exact logging
  | succ rounds ih =>
      simp only [drainLoop]
      split
      · next present =>
          split
          · next parsed =>
              rcases each present parsed with ⟨condition, rest⟩
              rcases @loggingOut_drainOne session _
                (session.recoveryCache.get session.seqProvider.nextIn) logging condition with
                ⟨next, filledNext⟩
              exact ih next filledNext rest
          · have kept := session.keeps_sendLogout (ascii "Parse error during recovery")
            apply loggingOut_stop
            rw [LoggingOut, kept.state_eq, kept.stopped_eq]
            exact logging
      · rw [if_neg (by simp [filled])]
        exact logging

/-- The condition on a frame. -/
def FrameNotRevived (session : Session) (wire : Bytes) : Prop :=
  session.EachCall NotRevived DrainNotRevived wire

theorem loggingOut_receive {wire : Bytes} (logging : session.LoggingOut)
    (condition : session.FrameNotRevived wire) : (session.receive wire).LoggingOut := by
  simp only [receive]
  split
  · next parsed => exact (loggingOut_dispatch logging (condition.1 parsed)).1
  · cases running : session.stopped with
    | true => rwa [stopWithLogout, if_pos running]
    | false => exact .inl (keeps_stopWithLogout running _).state_eq

/-- What is awaited, or over, is not drained. -/
theorem LoggingOut.drain_eq (logging : session.LoggingOut) :
    session.drainRecoveryCache = session := by
  rw [drainRecoveryCache, if_pos]
  rcases logging with awaits | ⟨-, disconnected⟩
  · simp [awaits]
  · simp [disconnected]

end LoggedOut

section Trail

variable {session : Session} {message : Message} {raw : Bytes}

/-- The state that `handle_logon` assigns on its way: an acceptor that takes the HeartBtInt is
LOGON_RECEIVED, whatever becomes of the Logon. -/
def logonStates (session : Session) (view : ValidMessageView) : List SessionState :=
  match view.message.firstValue? 108 with
  | none => []
  | some interval =>
      if session.role = .acceptor && (session.validateHeartbeatInt interval).1 then [.logonReceived]
      else []

/-- `dispatch` calls `handle_logon`. -/
def handlesLogon (session : Session) (message : Message) : Bool :=
  let view := makeValidMessageView message
  !session.stopped && decide ((session.results message).severity ≠ .fatal) &&
    (session.results message).errors.isEmpty &&
    decide (view.headerCache.msgType = some (ascii "A")) && view.headerCache.hasMsgSeqNum &&
    decide (view.headerCache.msgSeqNum = session.seqProvider.nextIn)

/-- The states that `dispatch` assigns, and the one it ends with. No handler but `handle_logon`
assigns the state twice. -/
def dispatchStates (session : Session) (message : Message) (raw : Bytes) : List SessionState :=
  (if session.handlesLogon message then session.logonStates (makeValidMessageView message) else []) ++
    [(session.dispatch message raw).state]

/-- The states of the drain loop. -/
def drainTrail : ℕ → Session → List SessionState
  | 0, _ => []
  | rounds + 1, session =>
      let raw := session.recoveryCache.get session.seqProvider.nextIn
      if session.recoveryCache.contains session.seqProvider.nextIn && (Parser.parse raw).2 = [] then
        session.dispatchStates (Parser.parse raw).1 raw ++
          drainTrail rounds (session.drainOne (Parser.parse raw).1 raw)
      else [(drainLoop (rounds + 1) session).state]

/-- The states of `process_wire_message_`, the one it starts with included. -/
def frameStates (session : Session) (wire : Bytes) : List SessionState :=
  let received := session.receive wire
  session.state ::
    (if (Parser.parse wire).2 = [] then session.dispatchStates (Parser.parse wire).1 wire
      else [received.state]) ++
    if received.recoveryCache.empty || received.state ≠ .recoveringResend then []
    else drainTrail (RecoveryCache.window + 1) received

/-- Every state a session is in while it processes these frames. -/
def trail : Session → List Bytes → List SessionState
  | session, [] => [session.state]
  | session, wire :: rest => session.frameStates wire ++ trail (session.processWireMessage wire) rest

/-- A state of a session that was logged out. -/
def Final (state : SessionState) : Prop := state = .awaitingLogout ∨ state = .disconnected

/-- Once the Logout is awaited there are only final states. -/
def Irrevocable (states : List SessionState) : Prop :=
  states.Pairwise fun earlier later => earlier = .awaitingLogout → Final later

theorem LoggingOut.final (logging : session.LoggingOut) : Final session.state := by
  rcases logging with awaits | ⟨-, disconnected⟩
  · exact .inl awaits
  · exact .inr disconnected

theorem irrevocable_of_final {states : List SessionState} (final : ∀ state ∈ states, Final state) :
    Irrevocable states :=
  List.pairwise_iff_forall_sublist.mpr fun pair _ => final _ (pair.subset (by simp))

theorem irrevocable_of_not_mem {states : List SessionState} (never : .awaitingLogout ∉ states) :
    Irrevocable states := by
  refine List.pairwise_iff_forall_sublist.mpr ?_
  intro earlier later pair awaits
  rw [awaits] at pair
  exact absurd (pair.subset (List.mem_cons_self ..)) never

theorem Irrevocable.append {front rest : List SessionState} (first : Irrevocable front)
    (second : Irrevocable rest) (between : .awaitingLogout ∈ front → ∀ state ∈ rest, Final state) :
    Irrevocable (front ++ rest) := by
  refine List.pairwise_append.mpr ⟨first, second, ?_⟩
  intro earlier mem later memLater awaits
  rw [awaits] at mem
  exact between mem later memLater

theorem mem_logonStates {view : ValidMessageView} {state : SessionState}
    (mem : state ∈ session.logonStates view) :
    state = .logonReceived ∧ session.role = .acceptor ∧
      ∃ interval, view.message.firstValue? 108 = some interval ∧
        (session.validateHeartbeatInt interval).1 = true := by
  rw [logonStates] at mem
  split at mem
  · cases mem
  · next interval found =>
      split at mem
      · next taken =>
          simp only [Bool.and_eq_true, decide_eq_true_eq] at taken
          exact ⟨List.mem_singleton.mp mem, taken.1, interval, found, taken.2⟩
      · cases mem

theorem handlesLogon_iff : session.handlesLogon message = true ↔ session.stopped = false ∧
    session.Admitted message (ascii "A") ∧
      (makeValidMessageView message).headerCache.msgSeqNum = session.seqProvider.nextIn := by
  have admits : isAppMessageType (ascii "A") = true → session.established = true := by
    intro isApp
    exact absurd isApp (by decide)
  simp only [handlesLogon, Bool.and_eq_true, Bool.not_eq_true', decide_eq_true_eq,
    List.isEmpty_iff]
  constructor
  · rintro ⟨⟨⟨⟨⟨running, notFatal⟩, noErrors⟩, typeEq⟩, numbered⟩, turn⟩
    exact ⟨running, ⟨⟨notFatal, noErrors, typeEq, numbered⟩, admits⟩, turn⟩
  · rintro ⟨running, ⟨⟨notFatal, noErrors, typeEq, numbered⟩, -⟩, turn⟩
    exact ⟨⟨⟨⟨⟨running, notFatal⟩, noErrors⟩, typeEq⟩, numbered⟩, turn⟩

/-- The state of a session that is logging out stays final inside `dispatch`. -/
theorem LoggingOut.dispatchStates (logging : session.LoggingOut)
    (notRevived : session.NotRevived message) :
    ∀ state ∈ session.dispatchStates message raw, Final state := by
  intro state mem
  rcases List.mem_append.mp mem with inside | last
  · split at inside
    · next handles =>
        exfalso
        rcases handlesLogon_iff.mp handles with ⟨running, admitted, turn⟩
        have awaits : session.state = .awaitingLogout := by
          rcases logging with awaits | ⟨stopped, -⟩
          · exact awaits
          · simp [running] at stopped
        rcases mem_logonStates inside with ⟨-, isAcceptor, taken⟩
        refine (notRevived running awaits _ admitted).2 rfl turn ⟨taken, ?_⟩
        intro isInitiator
        rw [isAcceptor] at isInitiator
        cases isInitiator
    · cases inside
  · rw [List.mem_singleton.mp last]
    exact (loggingOut_dispatch logging notRevived).1.final

/-- In `dispatch` the Logout is awaited only at the end. -/
theorem irrevocable_dispatchStates (session : Session) (message : Message) (raw : Bytes) :
    Irrevocable (session.dispatchStates message raw) ∧
      (.awaitingLogout ∈ session.dispatchStates message raw →
        (session.dispatch message raw).state = .awaitingLogout) := by
  have others : .awaitingLogout ∉ (if session.handlesLogon message then
      session.logonStates (makeValidMessageView message) else []) := by
    intro mem
    split at mem
    · cases (mem_logonStates mem).1
    · cases mem
  constructor
  · exact (irrevocable_of_not_mem others).append (List.pairwise_singleton ..)
      fun mem => absurd mem others
  · intro mem
    rcases List.mem_append.mp mem with inside | last
    · exact absurd inside others
    · exact (List.mem_singleton.mp last).symm

theorem LoggingOut.drainTrail {rounds : ℕ} (logging : session.LoggingOut)
    (filled : session.recoveryCache.empty = false)
    (each : EachDrain DrainNotRevived rounds session) :
    ∀ state ∈ drainTrail rounds session, Final state := by
  induction rounds generalizing session with
  | zero =>
      intro state mem
      cases mem
  | succ rounds ih =>
      intro state mem
      rw [Session.drainTrail] at mem
      split at mem
      · next continues =>
          simp only [Bool.and_eq_true, decide_eq_true_eq] at continues
          rcases each continues.1 continues.2 with ⟨condition, rest⟩
          rcases List.mem_append.mp mem with here | later
          · exact logging.dispatchStates condition.1 state here
          · rcases @loggingOut_drainOne session _
              (session.recoveryCache.get session.seqProvider.nextIn) logging condition with
              ⟨next, filledNext⟩
            exact ih next filledNext rest state later
      · rw [List.mem_singleton.mp mem]
        exact (loggingOut_drainLoop logging filled each).final

/-- A round that ends with a Logout awaited leaves something in the cache. -/
theorem filled_drainOne (condition : session.DrainNotRevived message)
    (awaits : (session.drainOne message raw).state = .awaitingLogout) :
    (session.drainOne message raw).recoveryCache.empty = false := by
  have dispatched := (session.drainOne_state message raw).1.symm.trans awaits
  rcases dispatch_awaits dispatched with ⟨reason, cacheEq⟩
  rw [drainOne_cache_eq cacheEq]
  refine condition.2 ?_
  rcases reason with before | refuses
  · exact .inl before
  · exact .inr (.inr refuses)

/-- Once a Logout is awaited in a drain, the drain does not revive the session. -/
theorem irrevocable_drainTrail {rounds : ℕ} (running : session.state ≠ .awaitingLogout)
    (each : EachDrain DrainNotRevived rounds session) :
    Irrevocable (drainTrail rounds session) ∧
      (.awaitingLogout ∈ drainTrail rounds session → (drainLoop rounds session).LoggingOut) := by
  induction rounds generalizing session with
  | zero => exact ⟨.nil, fun mem => absurd mem (List.not_mem_nil)⟩
  | succ rounds ih =>
      rw [drainTrail]
      split
      · next continues =>
          simp only [Bool.and_eq_true, decide_eq_true_eq] at continues
          rcases each continues.1 continues.2 with ⟨condition, rest⟩
          rw [drainLoop_succ continues.1 continues.2]
          generalize session.recoveryCache.get session.seqProvider.nextIn = raw at condition rest ⊢
          generalize (Parser.parse raw).1 = message at condition rest ⊢
          rcases session.irrevocable_dispatchStates message raw with ⟨inside, atEnd⟩
          by_cases awaits : (session.drainOne message raw).state = .awaitingLogout
          · have logging : (session.drainOne message raw).LoggingOut := .inl awaits
            have filled := filled_drainOne condition awaits
            have final := logging.drainTrail filled rest
            exact ⟨inside.append (irrevocable_of_final final) fun _ => final,
              fun _ => loggingOut_drainLoop logging filled rest⟩
          · rcases ih awaits rest with ⟨later, loggingLater⟩
            have notInside : .awaitingLogout ∉ session.dispatchStates message raw := fun mem =>
              awaits ((session.drainOne_state message raw).1.trans (atEnd mem))
            refine ⟨inside.append later fun mem => absurd mem notInside, ?_⟩
            intro mem
            rcases List.mem_append.mp mem with here | after
            · exact absurd here notInside
            · exact loggingLater after
      · refine ⟨List.pairwise_singleton .., ?_⟩
        intro mem
        exact .inl (List.mem_singleton.mp mem).symm

theorem LoggingOut.frameStates {wire : Bytes} (logging : session.LoggingOut)
    (condition : session.FrameNotRevived wire) :
    (∀ state ∈ session.frameStates wire, Final state) ∧
      (session.processWireMessage wire).LoggingOut := by
  have received := loggingOut_receive logging condition
  have skips : ((session.receive wire).recoveryCache.empty ||
      decide ((session.receive wire).state ≠ .recoveringResend)) = true := by
    rcases received with awaits | ⟨-, disconnected⟩
    · simp [awaits]
    · simp [disconnected]
  constructor
  · intro state mem
    rw [Session.frameStates, if_pos skips, List.append_nil] at mem
    rcases List.mem_cons.mp mem with rfl | later
    · exact logging.final
    · split at later
      · next parsed => exact logging.dispatchStates (condition.1 parsed) state later
      · rw [List.mem_singleton.mp later]
        exact received.final
  · rw [processWireMessage, received.drain_eq]
    exact received

theorem irrevocable_frameStates {wire : Bytes} (condition : session.FrameNotRevived wire) :
    Irrevocable (session.frameStates wire) ∧
      (.awaitingLogout ∈ session.frameStates wire →
        (session.processWireMessage wire).LoggingOut) := by
  by_cases awaitsBefore : session.state = .awaitingLogout
  · rcases LoggingOut.frameStates (.inl awaitsBefore) condition with ⟨final, logging⟩
    exact ⟨irrevocable_of_final final, fun _ => logging⟩
  -- The states of `receive`.
  have first : Irrevocable (if (Parser.parse wire).2 = [] then
        session.dispatchStates (Parser.parse wire).1 wire else [(session.receive wire).state]) ∧
      (.awaitingLogout ∈ (if (Parser.parse wire).2 = [] then
          session.dispatchStates (Parser.parse wire).1 wire else [(session.receive wire).state]) →
        (session.receive wire).state = .awaitingLogout) := by
    by_cases parsed : (Parser.parse wire).2 = []
    · have receivedEq : session.receive wire = session.dispatch (Parser.parse wire).1 wire := by
        simp only [receive, parsed, if_true]
      rw [if_pos parsed, receivedEq]
      exact session.irrevocable_dispatchStates _ _
    · rw [if_neg parsed]
      exact ⟨List.pairwise_singleton .., fun mem => (List.mem_singleton.mp mem).symm⟩
  rcases first with ⟨inside, atEnd⟩
  have starts : Irrevocable [session.state] := List.pairwise_singleton ..
  have notFirst : .awaitingLogout ∉ [session.state] :=
    fun mem => awaitsBefore (List.mem_singleton.mp mem).symm
  rw [frameStates, processWireMessage, drainRecoveryCache]
  by_cases skips : ((session.receive wire).recoveryCache.empty ||
      decide ((session.receive wire).state ≠ .recoveringResend)) = true
  · rw [if_pos skips, if_pos skips, List.append_nil]
    refine ⟨Irrevocable.append starts inside fun mem => absurd mem notFirst, ?_⟩
    intro mem
    rcases List.mem_cons.mp mem with here | later
    · exact absurd here.symm awaitsBefore
    · exact .inl (atEnd later)
  · rw [if_neg skips, if_neg skips]
    have recovering : (session.receive wire).state = .recoveringResend := by
      simp only [Bool.or_eq_true, decide_eq_true_eq, not_or, not_not] at skips
      exact skips.2
    have running : (session.receive wire).state ≠ .awaitingLogout := by
      rw [recovering]
      intro same
      cases same
    rcases irrevocable_drainTrail running (condition.2 recovering) with ⟨drained, logging⟩
    have front := Irrevocable.append starts inside fun mem => absurd mem notFirst
    refine ⟨front.append drained ?_, ?_⟩
    · intro mem
      rcases List.mem_cons.mp mem with here | later
      · exact absurd here.symm awaitsBefore
      · exact absurd (atEnd later) running
    · intro mem
      rcases List.mem_append.mp mem with early | later
      · rcases List.mem_cons.mp early with here | inReceive
        · exact absurd here.symm awaitsBefore
        · exact absurd (atEnd inReceive) running
      · exact logging later

theorem LoggingOut.trail {wires : List Bytes} (logging : session.LoggingOut)
    (condition : Runs.Meets processWireMessage FrameNotRevived session wires) :
    ∀ state ∈ session.trail wires, Final state := by
  induction wires generalizing session with
  | nil =>
      intro state mem
      rw [List.mem_singleton.mp mem]
      exact logging.final
  | cons wire rest ih =>
      intro state mem
      rcases logging.frameStates condition.1 with ⟨final, next⟩
      rcases List.mem_append.mp mem with here | later
      · exact final state here
      · exact ih next condition.2 state later

theorem irrevocable_trail {wires : List Bytes}
    (condition : Runs.Meets processWireMessage FrameNotRevived session wires) :
    Irrevocable (session.trail wires) := by
  induction wires generalizing session with
  | nil => exact List.pairwise_singleton ..
  | cons wire rest ih =>
      rcases irrevocable_frameStates condition.1 with ⟨here, logging⟩
      exact here.append (ih condition.2) fun mem => (logging mem).trail condition.2

/-- In every run, while frames are processed that meet the condition: every state the session is in
after AWAITING_LOGOUT, inside a handler, between two calls of `dispatch` or between two frames, is
AWAITING_LOGOUT or DISCONNECTED. -/
theorem run_logout_irrevocable (id : ℕ) (role : Role) (params : SessionParameters) (clock : Clock)
    (inputs : List Input) (wires : List Bytes)
    (condition : Runs.Meets processWireMessage FrameNotRevived
      ((Session.new id role params clock).run inputs) wires) :
    (((Session.new id role params clock).run inputs).trail wires).Pairwise fun earlier later =>
      earlier = .awaitingLogout → later = .awaitingLogout ∨ later = .disconnected :=
  irrevocable_trail condition

/-- A heartbeat with an old number is answered with a Logout. -/
def refusedRun : List Input := answeredLogon ++ [.frame (peerHeartbeat 1)]

/-- The old heartbeat, the next one and the peer's Logout. -/
theorem run_logout_irrevocable_logout :
    ((initiator.run answeredLogon).trail [peerHeartbeat 1, peerHeartbeat 2,
        peerWire (ascii "5") 3 []]).Pairwise fun earlier later =>
      earlier = .awaitingLogout → later = .awaitingLogout ∨ later = .disconnected := by
  refine run_logout_irrevocable 0 .initiator _ .standard answeredLogon _ ⟨⟨?_, ?_⟩, ⟨?_, ?_⟩,
    ⟨?_, ?_⟩, trivial⟩
  · intro _ _ awaits
    exact absurd awaits (by decide +kernel)
  · intro recovering
    exact absurd recovering (by decide +kernel)
  · intro _ _ _ type admitted
    refine ⟨by decide +kernel, fun isLogon => ?_⟩
    have typeEq := admitted.accepts.type_eq
    rw [isLogon] at typeEq
    exact absurd typeEq (by decide +kernel)
  · intro recovering
    exact absurd recovering (by decide +kernel)
  · intro _ _ _ type admitted
    refine ⟨by decide +kernel, fun isLogon => ?_⟩
    have typeEq := admitted.accepts.type_eq
    rw [isLogon] at typeEq
    exact absurd typeEq (by decide +kernel)
  · intro recovering
    exact absurd recovering (by decide +kernel)

/-- An acceptor that allows no reset has refused an old heartbeat. -/
def refusingAcceptor : Session :=
  (Session.new 0 .acceptor
    { senderCompId := ascii "A", targetCompId := ascii "B", acceptorResetOnLogon := false }
    .standard).run [.setConnection 0, .start .normal,
      .frame (peerWire (ascii "A") 1 [⟨98, ascii "0"⟩, ⟨108, ascii "30"⟩]),
      .frame (peerHeartbeat 1)]

/-- While the Logout is awaited, a Logon makes the session active and a heartbeat ahead of its
number begins a recovery; an acceptor is LOGON_RECEIVED before it refuses a reset; and a drain that
refuses a Logon makes the session active all the same. -/
theorem run_logout_revoked :
    (initiator.run refusedRun).state = .awaitingLogout ∧
      ((initiator.run refusedRun).processWireMessage
        (peerWire (ascii "A") 2 [⟨98, ascii "0"⟩, ⟨108, ascii "30"⟩])).state = .active ∧
      ((initiator.run refusedRun).processWireMessage (peerHeartbeat 5)).state =
        .recoveringResend ∧
      refusingAcceptor.trail
          [peerWire (ascii "A") 2 [⟨98, ascii "0"⟩, ⟨141, ascii "Y"⟩, ⟨108, ascii "30"⟩]] =
        [.awaitingLogout, .logonReceived, .awaitingLogout, .awaitingLogout] ∧
      (let after := initiator.run (answeredLogon ++
        [.frame (peerWire (ascii "A") 3 [⟨98, ascii "0"⟩, ⟨108, ascii "5"⟩]),
          .frame (peerHeartbeat 2)]);
      after.state = .active ∧ ascii "5" ∈ sentTypes after.trace) := by
  decide +kernel

end Trail

end Session

end FixEngine
