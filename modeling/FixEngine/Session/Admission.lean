import FixEngine.Session.Delivery
import FixEngine.Session.Operations

/-!
# No application message before the Logon

`dispatch` refuses application messages unless the session is active or recovering. Recovery can
be entered without a Logon: an administrative message ahead of the expected number is enough.
In runs where that does not happen before the Logon, application messages reach their handler
only after a Logon was accepted on the same connection.
-/

namespace FixEngine

/-- Since the last start on a connection a Logon was accepted. -/
def logonAcceptedSinceStart (trace : List Event) : Bool :=
  trace.foldl
    (fun accepted event =>
      match event with
      | .started _ => false
      | .logonAccepted => true
      | _ => accepted) false

/-- Every application message in the trace was handled after a Logon had been accepted on its
connection. -/
def AppAfterLogon (trace : List Event) : Prop :=
  ∀ front type seqNum message rest, trace = front ++ .handled type seqNum message :: rest →
    Session.isAppMessageType type = true → logonAcceptedSinceStart front = true

section Trace

variable {trace : List Event}

theorem logonAccepted_outputs (trace : List Event) {outputs : List Event}
    (areOutputs : ∀ e ∈ outputs, e.isOutput = true) :
    logonAcceptedSinceStart (trace ++ outputs) = logonAcceptedSinceStart trace :=
  foldl_outputs (fun _ _ _ _ => rfl) (fun _ _ => rfl) false trace areOutputs

/-- One more event is harmless when it is no application message, or comes after the Logon. -/
theorem AppAfterLogon.snoc (after : AppAfterLogon trace) {event : Event}
    (admitted : ∀ type seqNum message, event = .handled type seqNum message →
      Session.isAppMessageType type = true → logonAcceptedSinceStart trace = true) :
    AppAfterLogon (trace ++ [event]) := by
  intro front type seqNum message rest traceEq app
  rcases List.eq_nil_or_concat rest with rfl | ⟨before, last, rfl⟩
  · obtain ⟨rfl, eventEq⟩ := List.append_inj' traceEq rfl
    exact admitted type seqNum message (List.singleton_inj.mp eventEq) app
  · rw [List.concat_eq_append, ← List.cons_append, ← List.append_assoc] at traceEq
    obtain ⟨frontEq, -⟩ := List.append_inj' traceEq rfl
    exact after front type seqNum message before frontEq app

theorem AppAfterLogon.outputs (after : AppAfterLogon trace) {outputs : List Event}
    (areOutputs : ∀ e ∈ outputs, e.isOutput = true) : AppAfterLogon (trace ++ outputs) := by
  induction outputs generalizing trace with
  | nil => simpa using after
  | cons first rest ih =>
      rw [List.append_cons]
      refine ih (after.snoc ?_) fun e mem => areOutputs e (List.mem_cons_of_mem _ mem)
      rintro type seqNum message rfl
      have := areOutputs _ (List.mem_cons_self ..)
      simp [Event.isOutput] at this

end Trace

namespace Session

/-- A Logon was accepted on the current connection. -/
def LoggedOn (session : Session) : Prop := logonAcceptedSinceStart session.trace = true

/-- Application messages came after the Logon, and the session processes them only then. -/
structure Admits (session : Session) : Prop where
  afterLogon : AppAfterLogon session.trace
  loggedOn : session.established = true → session.LoggedOn

/-- Before the Logon no valid administrative message is ahead of the expected number, and an
application message has at most a fatal validation error. -/
def NoEarlyGap (session : Session) (message : Message) : Prop :=
  session.stopped = false → ¬session.LoggedOn →
    (∀ type, session.Accepts message type → isAppMessageType type = false →
      (makeValidMessageView message).headerCache.msgSeqNum ≤ session.seqProvider.nextIn) ∧
    (∀ type, (makeValidMessageView message).headerCache.msgType = some type →
      isAppMessageType type = true →
        (session.results message).severity = .fatal ∨ session.Accepts message type)

section Steps

variable {session after : Session} {message : Message} {view : ValidMessageView} {type : Bytes}

theorem Keeps.loggedOn_iff {before after : Session} (keeps : Keeps before after) :
    after.LoggedOn ↔ before.LoggedOn := by
  obtain ⟨outputs, traceEq, areOutputs⟩ := keeps.trace_eq
  rw [LoggedOn, LoggedOn, traceEq, logonAccepted_outputs _ areOutputs]

theorem Keeps.afterLogon {before after : Session} (keeps : Keeps before after)
    (inv : AppAfterLogon before.trace) : AppAfterLogon after.trace := by
  obtain ⟨outputs, traceEq, areOutputs⟩ := keeps.trace_eq
  rw [traceEq]
  exact inv.outputs areOutputs

theorem Keeps.admits (keeps : Keeps session after) (admits : session.Admits) :
    after.Admits where
  afterLogon := keeps.afterLogon admits.afterLogon
  loggedOn := fun live => keeps.loggedOn_iff.mpr
    (admits.loggedOn (by rwa [keeps.established_eq] at live))

/-- A session whose connection is logged on may change its state and members freely. -/
theorem admits_of_loggedOn (afterLogon : AppAfterLogon session.trace)
    (loggedOn : session.LoggedOn) : session.Admits := ⟨afterLogon, fun _ => loggedOn⟩

/-- A session that is neither active nor recovering is unconstrained. -/
theorem admits_of_idle (afterLogon : AppAfterLogon session.trace)
    (idle : session.established = false) : session.Admits :=
  ⟨afterLogon, fun live => by simp [idle] at live⟩

theorem admits_becomeActive (afterLogon : AppAfterLogon session.trace) :
    session.becomeActive.Admits := by
  refine session.keeps_becomeActive.admits (admits_of_loggedOn ?_ ?_)
  · exact afterLogon.snoc (by simp)
  · simp [LoggedOn, record, Session.withState, logonAcceptedSinceStart]

theorem admits_handler {called : Session} (admits : called.Admits)
    (outcome : HandlerOutcome called type view after) : after.Admits := by
  cases outcome with
  | quiet keeps => exact keeps.admits admits
  | refused _ interval keeps =>
      exact keeps.admits (admits_of_idle admits.afterLogon rfl)
  | loggedOn _ _ interval state replied keeps afterEq =>
      rw [afterEq]
      exact admits_becomeActive (keeps.afterLogon admits.afterLogon)
  | renumbered _ _ _ _ _ interval replied keeps afterEq =>
      rw [afterEq]
      exact admits_becomeActive (keeps.afterLogon (admits.afterLogon.snoc (by simp)))
  | stopped _ keeps => exact keeps.admits (admits_of_idle admits.afterLogon rfl)
  | moved _ _ afterEq =>
      rw [afterEq]
      exact ⟨admits.afterLogon, admits.loggedOn⟩

theorem loggedOn_recordFault (session : Session) (fault : Fault) :
    (session.recordFault fault).LoggedOn ↔ session.LoggedOn := by
  simp [LoggedOn, recordFault, record, logonAcceptedSinceStart]

theorem afterLogon_recordFault (afterLogon : AppAfterLogon session.trace) (fault : Fault) :
    AppAfterLogon (session.recordFault fault).trace := afterLogon.snoc (by simp)

theorem admits_recordFault (admits : session.Admits) (fault : Fault) :
    (session.recordFault fault).Admits :=
  ⟨afterLogon_recordFault admits.afterLogon fault,
    fun live => (session.loggedOn_recordFault fault).mpr (admits.loggedOn live)⟩

theorem admits_cacheMessage (admits : session.Admits) (seqNum : ℕ) (raw : Bytes) :
    (session.cacheMessage seqNum raw).Admits := by
  have checked : (if session.recoveryCache.insertAsserts seqNum raw = true then session
      else session.recordFault .cacheInsert).Admits := by
    split
    · exact admits
    · exact admits_recordFault admits _
  exact ⟨checked.afterLogon, checked.loggedOn⟩

theorem loggedOn_cacheMessage (session : Session) (seqNum : ℕ) (raw : Bytes) :
    (session.cacheMessage seqNum raw).LoggedOn ↔ session.LoggedOn := by
  simp only [cacheMessage]
  split
  · exact Iff.rfl
  · exact session.loggedOn_recordFault .cacheInsert

theorem admits_dispatch (raw : Bytes) (admits : session.Admits)
    (noGap : session.NoEarlyGap message) : (session.dispatch message raw).Admits := by
  cases session.dispatch_outcome message raw with
  | stopped _ afterEq => rw [afterEq]; exact admits
  | quiet _ _ _ keeps => exact keeps.admits admits
  | refused _ _ keeps _ _ _ _ => exact keeps.admits (admits_of_idle admits.afterLogon rfl)
  | checked running type accepts admitted ready keeps afterEq =>
      rw [afterEq]
      have readyAdmits := keeps.admits admits
      have readyRunning : ready.stopped = false := keeps.stopped_eq.trans running
      cases checkSequence_outcome readyRunning type (makeValidMessageView message) raw with
      | inSequence seqEq sequenceEq =>
          rw [sequenceEq]
          have outcome := (ready.updateIn ((makeValidMessageView message).headerCache.msgSeqNum + 1)
            ).handle_outcome readyRunning type (makeValidMessageView message)
          refine admits_handler ⟨?_, ?_⟩ outcome
          · refine readyAdmits.afterLogon.snoc ?_
            rintro type' seqNum message' handledEq app
            cases handledEq
            exact readyAdmits.loggedOn (keeps.established_eq.trans (admitted app))
          · intro live
            have logged : ready.LoggedOn := readyAdmits.loggedOn live
            simpa [LoggedOn, called, record, updateIn, withSeqProvider, logonAcceptedSinceStart]
              using logged
      | cached _ _ _ _ cachedEq =>
          rw [cachedEq]
          exact admits_cacheMessage readyAdmits _ raw
      | gap ahead _ requested keepsRequested gapEq =>
          rw [gapEq]
          have requestedAfter := keepsRequested.afterLogon readyAdmits.afterLogon
          suffices logged : ready.LoggedOn from
            @admits_cacheMessage ((requested.withState .recoveringResend).withCache _)
              ⟨requestedAfter, fun _ => keepsRequested.loggedOn_iff.mpr logged⟩ _ raw
          -- An application message is admitted only after the Logon; the others by assumption.
          by_contra notLogged
          have early : ¬session.LoggedOn := fun logged => notLogged (keeps.loggedOn_iff.mpr logged)
          cases app : isAppMessageType type with
          | true => exact early (admits.loggedOn (admitted app))
          | false =>
              have := (noGap running early).1 type accepts app
              rw [keeps.nextIn_eq] at ahead
              omega
      | quiet keepsQuiet => exact keepsQuiet.admits readyAdmits
      | tooHigh _ _ _ keepsHigh =>
          exact keepsHigh.admits (admits_of_idle readyAdmits.afterLogon rfl)
      | tooLow _ _ keepsLow =>
          exact keepsLow.admits (admits_of_idle readyAdmits.afterLogon rfl)

theorem admits_stop (admits : session.Admits) : session.stop.Admits := by
  cases running : session.stopped with
  | true => rw [stop_eq_self running]; exact admits
  | false => exact Keeps.admits (keeps_stop running) (admits_of_idle admits.afterLogon rfl)

theorem admits_stopWithLogout (admits : session.Admits) (reason : Bytes) :
    (session.stopWithLogout reason).Admits := by
  cases running : session.stopped with
  | true => simpa only [stopWithLogout, running, if_true] using admits
  | false =>
      exact (keeps_stopWithLogout running reason).admits (admits_of_idle admits.afterLogon rfl)

/-- What holds between the rounds of the drain, which only starts during a recovery. -/
def DrainAdmits (session : Session) : Prop :=
  AppAfterLogon session.trace ∧ session.LoggedOn

theorem loggedOn_handler {called : Session} (logged : called.LoggedOn)
    (outcome : HandlerOutcome called type view after) : after.LoggedOn := by
  have active : ∀ replied : Session, replied.becomeActive.LoggedOn := by
    intro replied
    rw [replied.keeps_becomeActive.loggedOn_iff]
    simp [LoggedOn, record, Session.withState, logonAcceptedSinceStart]
  cases outcome with
  | quiet keeps => exact keeps.loggedOn_iff.mpr logged
  | refused _ interval keeps => exact keeps.loggedOn_iff.mpr logged
  | loggedOn _ _ interval state replied keeps afterEq => rw [afterEq]; exact active replied
  | renumbered _ _ _ _ _ interval replied keeps afterEq => rw [afterEq]; exact active replied
  | stopped _ keeps => exact keeps.loggedOn_iff.mpr logged
  | moved _ _ afterEq => rw [afterEq]; exact logged

/-- No message takes the Logon back. -/
theorem loggedOn_dispatch (message : Message) (raw : Bytes) (logged : session.LoggedOn) :
    (session.dispatch message raw).LoggedOn := by
  cases session.dispatch_outcome message raw with
  | stopped _ afterEq => rw [afterEq]; exact logged
  | quiet _ _ _ keeps => exact keeps.loggedOn_iff.mpr logged
  | refused _ _ keeps _ _ _ _ => exact keeps.loggedOn_iff.mpr logged
  | checked running type accepts admitted ready keeps afterEq =>
      rw [afterEq]
      have readyLogged := keeps.loggedOn_iff.mpr logged
      have readyRunning : ready.stopped = false := keeps.stopped_eq.trans running
      cases checkSequence_outcome readyRunning type (makeValidMessageView message) raw with
      | inSequence seqEq sequenceEq =>
          rw [sequenceEq]
          have outcome := (ready.updateIn ((makeValidMessageView message).headerCache.msgSeqNum + 1)
            ).handle_outcome readyRunning type (makeValidMessageView message)
          refine loggedOn_handler ?_ outcome
          simpa [LoggedOn, called, record, updateIn, withSeqProvider, logonAcceptedSinceStart]
            using readyLogged
      | cached _ _ _ _ cachedEq =>
          rw [cachedEq]
          exact (ready.loggedOn_cacheMessage _ raw).mpr readyLogged
      | gap _ _ requested keepsRequested gapEq =>
          rw [gapEq]
          exact (loggedOn_cacheMessage _ _ raw).mpr (keepsRequested.loggedOn_iff.mpr readyLogged)
      | quiet keepsQuiet => exact keepsQuiet.loggedOn_iff.mpr readyLogged
      | tooHigh _ _ _ keepsHigh => exact keepsHigh.loggedOn_iff.mpr readyLogged
      | tooLow _ _ keepsLow => exact keepsLow.loggedOn_iff.mpr readyLogged

theorem drainAdmits_drainOne (raw : Bytes) (inside : session.DrainAdmits)
    (noGap : session.NoEarlyGap message) : (session.drainOne message raw).DrainAdmits := by
  have dispatched := admits_dispatch raw (admits_of_loggedOn inside.1 inside.2) noGap
  have logged := loggedOn_dispatch message raw inside.2
  simp only [drainOne]
  split
  · exact ⟨dispatched.afterLogon, logged⟩
  · exact ⟨afterLogon_recordFault dispatched.afterLogon _, (loggedOn_recordFault _ _).mpr logged⟩

theorem admits_processWireMessage {wire : Bytes} (admits : session.Admits)
    (each : EachDispatch NoEarlyGap session wire) : (session.processWireMessage wire).Admits := by
  refine processWireMessage_rule Admits DrainAdmits
    ?_ ?_ ?_ ?_ ?_ ?_ ?_ ?_ admits each
  · exact fun _ admits noGap => admits_dispatch wire admits noGap
  · exact fun admits => admits_stopWithLogout admits _
  · exact fun current admits recovering =>
      ⟨admits.afterLogon, admits.loggedOn (by simp [established, recovering])⟩
  · exact fun current raw _ inside noGap => drainAdmits_drainOne raw inside noGap
  · exact fun current inside => admits_of_loggedOn inside.1 inside.2
  · exact fun current inside => admits_of_loggedOn inside.1 inside.2
  · exact fun current inside => admits_recordFault (admits_of_loggedOn inside.1 inside.2) _
  · exact fun current inside => admits_stop ((current.keeps_sendLogout _).admits
      (admits_of_loggedOn inside.1 inside.2))

theorem admits_idle (admits : session.Admits) (outcome : IdleOutcome session after) :
    after.Admits := by
  cases outcome with
  | quiet keeps => exact keeps.admits admits
  | connected conn afterEq => rw [afterEq]; exact ⟨admits.afterLogon, admits.loggedOn⟩
  | loggedOut keeps => exact keeps.admits (admits_of_idle admits.afterLogon rfl)
  | stopped keeps => exact keeps.admits (admits_of_idle admits.afterLogon rfl)
  | down released keeps afterEq =>
      rw [afterEq]
      exact admits_of_idle ((keeps.afterLogon admits.afterLogon).snoc (by simp)) rfl
  | started state waits keeps =>
      refine keeps.admits (admits_of_idle (admits.afterLogon.snoc (by simp)) ?_)
      rcases waits with rfl | rfl <;> rfl
  | renumbered _ _ reading keepsReading keeps =>
      refine keeps.admits (admits_of_idle ?_ rfl)
      exact (keepsReading.afterLogon (admits.afterLogon.snoc (by simp))).snoc (by simp)
  | restarted _ state waits keeps =>
      refine keeps.admits (admits_of_idle (admits.afterLogon.snoc (by simp)) ?_)
      rcases waits with rfl | rfl <;> rfl

end Steps

section Runs

/-- The condition on a step: every message dispatched in it respects the Logon. -/
def StepNoEarlyGap (session : Session) : Input → Prop
  | .frame wire => session.EachDispatch NoEarlyGap wire
  | _ => True

theorem admits_step {session : Session} {input : Input} (admits : session.Admits)
    (noGap : session.StepNoEarlyGap input) : (session.step input).Admits := by
  by_cases isFrame : ∃ wire, input = .frame wire
  · obtain ⟨wire, rfl⟩ := isFrame
    exact admits_processWireMessage admits noGap
  · exact admits_idle admits (session.step_outcome fun wire same => isFrame ⟨wire, same⟩)

theorem admits_new (id : ℕ) (role : Role) (params : SessionParameters) (clock : Clock) :
    (Session.new id role params clock).Admits :=
  ⟨fun front type seqNum message rest traceEq => by simp [Session.new] at traceEq,
    fun live => by simp [Session.new, established] at live⟩

/-- Logging out sends a Logout. -/
theorem stopWithLogout_sends {session : Session} (running : session.stopped = false)
    (reason : Bytes) :
    ∃ outputs logout, (session.stopWithLogout reason).trace =
      session.trace ++ (outputs ++ [.sent (ascii "5") logout false]) := by
  rw [stopWithLogout, if_neg (by simp [running])]
  have sent := trace_sendMessage (session.withFactory (session.msgFactory.logout reason).2) running
    (ascii "5") (session.msgFactory.logout reason).1 false
  rcases sent with ⟨written, traceEq, -⟩
  rw [← List.append_assoc written] at traceEq
  exact ⟨_, _, traceEq⟩

/-- An application message before the Logon ends the session and reaches no handler. -/
theorem early_app_refused {session : Session} {wire type : Bytes} (admits : session.Admits)
    (running : session.stopped = false) (early : ¬session.LoggedOn)
    (parsed : (Parser.parse wire).2 = [])
    (type_eq : (makeValidMessageView (Parser.parse wire).1).headerCache.msgType = some type)
    (app : isAppMessageType type = true) (noGap : session.NoEarlyGap (Parser.parse wire).1) :
    (session.processWireMessage wire).state = .awaitingLogout ∧
      ∃ events logout, (session.processWireMessage wire).trace =
          session.trace ++ (events ++ [.sent (ascii "5") logout false]) ∧
        ∀ e ∈ events, e.isOutput = true := by
  have receiveEq : session.receive wire = session.dispatch (Parser.parse wire).1 wire := by
    simp only [receive, parsed, if_true]
  have idle : ¬session.established = true := fun live => early (admits.loggedOn live)
  cases session.dispatch_outcome (Parser.parse wire).1 wire with
  | stopped isStopped _ => simp [running] at isStopped
  | quiet _ notFatal unaccepted _ =>
      rcases (noGap running early).2 type type_eq app with fatal | accepts
      · exact absurd fatal notFatal
      · exact absurd accepts (unaccepted type)
  | checked _ type' accepts admitted _ _ _ =>
      have same : type' = type := Option.some.inj (accepts.type_eq.symm.trans type_eq)
      exact absurd (admitted (same ▸ app)) idle
  | refused _ _ keeps ready keepsReady reason afterEq =>
      have state : (session.receive wire).state = .awaitingLogout := by
        rw [receiveEq, keeps.state_eq]
        rfl
      have drained : session.processWireMessage wire = session.receive wire := by
        rw [processWireMessage, drainRecoveryCache, state]
        simp
      rw [drained]
      obtain ⟨before, beforeEq, beforeOutputs⟩ := keepsReady.trace_eq
      obtain ⟨outputs, logout, traceEq⟩ := stopWithLogout_sends
        (keepsReady.stopped_eq.trans running) reason
      obtain ⟨all, allEq, allOutputs⟩ := keeps.trace_eq
      have fullEq : (session.receive wire).trace =
          session.trace ++ (before ++ outputs ++ [.sent (ascii "5") logout false]) := by
        rw [receiveEq, afterEq, traceEq, beforeEq]
        simp
      have allIs : all = before ++ outputs ++ [.sent (ascii "5") logout false] :=
        List.append_cancel_left ((allEq.symm.trans (congrArg Session.trace receiveEq.symm)).trans
          fullEq)
      refine ⟨state, before ++ outputs, logout, fullEq, fun e mem => allOutputs e ?_⟩
      rw [allIs]
      exact List.mem_append_left _ mem

/-- In every run in which no valid administrative message leaves a gap before the Logon,
application messages are handled only after a Logon was accepted on their connection, and those
that come earlier are answered with a Logout and reach no handler. -/
theorem run_app_after_logon (id : ℕ) (role : Role) (params : SessionParameters) (clock : Clock)
    (inputs : List Input)
    (noGap : Runs.Meets step StepNoEarlyGap (Session.new id role params clock) inputs) :
    AppAfterLogon ((Session.new id role params clock).run inputs).trace ∧
      ∀ front wire rest type, inputs = front ++ .frame wire :: rest →
        let before := (Session.new id role params clock).run front
        let after := before.step (.frame wire)
        before.stopped = false → ¬before.LoggedOn → (Parser.parse wire).2 = [] →
        (makeValidMessageView (Parser.parse wire).1).headerCache.msgType = some type →
        isAppMessageType type = true →
          after.state = .awaitingLogout ∧
            ∃ events logout,
              after.trace = before.trace ++ (events ++ [.sent (ascii "5") logout false]) ∧
              ∀ e ∈ events, e.isOutput = true := by
  have reached : ∀ {front}, Runs.Meets step StepNoEarlyGap (Session.new id role params clock)
      front → ((Session.new id role params clock).run front).Admits := fun meets =>
    meets.invariant (admits_new id role params clock)
      fun session input admits here => admits_step admits here
  constructor
  · exact (reached noGap).afterLogon
  · rintro front wire rest type rfl before after running early parsed typeEq app
    obtain ⟨earlier, here, -⟩ := Runs.meets_append.mp noGap
    exact early_app_refused (reached earlier) running early parsed typeEq app (here.1 parsed)

end Runs

section Example

/-- An acceptor is connected, gets a Logon and then a Custom message. -/
def customRun : List Input :=
  [.setConnection 0, .start .normal, .frame ((peerFactory 1).logon 30 false).1,
    .frame ((peerFactory 2).customMessage (ascii "hi")).1]

/-- A heartbeat ahead of its number comes in the place of the Logon, then a Custom message. -/
def gapRun : List Input :=
  [.setConnection 0, .start .normal, .frame ((peerFactory 5).heartBeat []).1,
    .frame ((peerFactory 1).customMessage (ascii "hi")).1]

theorem noEarlyGap_of_number {session : Session} {message : Message} (type : Bytes)
    (type_eq : (makeValidMessageView message).headerCache.msgType = some type)
    (admin : isAppMessageType type = false)
    (next : (makeValidMessageView message).headerCache.msgSeqNum ≤ session.seqProvider.nextIn) :
    session.NoEarlyGap message := by
  refine fun _ _ => ⟨fun _ _ _ => next, fun type' typeEq' app => ?_⟩
  have same : type' = type := Option.some.inj (typeEq'.symm.trans type_eq)
  rw [same, admin] at app
  simp at app

theorem run_app_after_logon_custom :
    AppAfterLogon ((Session.new 1 .acceptor leftParams .standard).run customRun).trace :=
  (run_app_after_logon 1 .acceptor leftParams .standard customRun
    ⟨trivial, trivial,
      ⟨fun _ => noEarlyGap_of_number (ascii "A") (by decide +kernel) (by decide)
        (by decide +kernel), fun recovering => absurd recovering (by decide +kernel)⟩,
      ⟨fun _ _ early => absurd (show logonAcceptedSinceStart _ = true by decide +kernel) early,
        fun recovering => absurd recovering (by decide +kernel)⟩,
      trivial⟩).1

/-- The early gap lets the Custom message through, and no Logon was ever accepted. -/
theorem run_handles_app_unlogged :
    .logonAccepted ∉ ((Session.new 1 .acceptor leftParams .standard).run gapRun).trace ∧
      .handled MessageFactory.customType 1
          (Parser.parse ((peerFactory 1).customMessage (ascii "hi")).1).1 ∈
        ((Session.new 1 .acceptor leftParams .standard).run gapRun).trace ∧
      isAppMessageType MessageFactory.customType = true := by
  decide +kernel

end Example

end Session

end FixEngine
