import FixEngine.Core.Session
import FixEngine.Wire.Encode

/-!
# What the operations of a session leave alone

Most of what a session does is sending: it touches the write queue, the store, the timers and
the outbound number, and nothing the inbound logic depends on. `Keeps` is that frame, and there
is one lemma for each operation. An operation that does change something else is described as
keeping everything of the session with that change made.
-/

namespace FixEngine

/-- Events that record a message sent or a fault outside the recovery cache. -/
def Event.isOutput : Event → Bool
  | .sent _ _ _ => true
  | .fault reason => !reason.ofCache
  | _ => false

/-- Outputs are messages and faults. -/
theorem Event.output_cases {event : Event} (isOutput : event.isOutput = true) :
    (∃ type wire isResend, event = .sent type wire isResend) ∨
      ∃ reason, event = .fault reason := by
  cases event with
  | sent type wire isResend => exact .inl ⟨type, wire, isResend, rfl⟩
  | fault reason => exact .inr ⟨reason, rfl⟩
  | _ => cases isOutput

/-- Outputs do not show in a fold over the trace whose step ignores them. -/
theorem foldl_outputs {β : Type} {step : β → Event → β}
    (sent : ∀ state type wire isResend, step state (.sent type wire isResend) = state)
    (fault : ∀ state reason, step state (.fault reason) = state) (start : β) (trace : List Event)
    {outputs : List Event} (areOutputs : ∀ e ∈ outputs, e.isOutput = true) :
    (trace ++ outputs).foldl step start = trace.foldl step start := by
  rw [List.foldl_append]
  induction outputs with
  | nil => rfl
  | cons first rest ih =>
      have tail := ih fun e mem => areOutputs e (List.mem_cons_of_mem _ mem)
      rcases Event.output_cases (areOutputs first List.mem_cons_self) with
        ⟨type, wire, isResend, rfl⟩ | ⟨reason, rfl⟩
      · rw [List.foldl_cons, sent, tail]
      · rw [List.foldl_cons, fault, tail]

/-- The types of the messages sent, in order. -/
def sentTypes (trace : List Event) : List Bytes :=
  trace.filterMap fun event =>
    match event with
    | .sent type _ _ => some type
    | _ => none

@[simp]
theorem sentTypes_append (front rest : List Event) :
    sentTypes (front ++ rest) = sentTypes front ++ sentTypes rest := by
  simp [sentTypes]

namespace MessageFactory

section Resends

variable (factory : MessageFactory) (msgSeqNum newSeqNo : ℕ) (wire : Bytes) (index : MsgIndex)

@[simp]
theorem params_regenerateMessage :
    (factory.regenerateMessage wire index).2.params = factory.params := by
  simp [regenerateMessage]

@[simp]
theorem seqProvider_regenerateMessage :
    (factory.regenerateMessage wire index).2.seqProvider = factory.seqProvider := by
  simp [regenerateMessage]

@[simp]
theorem params_sequenceResetGapFill :
    (factory.sequenceResetGapFill msgSeqNum newSeqNo).2.params = factory.params := by
  simp [sequenceResetGapFill]

@[simp]
theorem seqProvider_sequenceResetGapFill :
    (factory.sequenceResetGapFill msgSeqNum newSeqNo).2.seqProvider = factory.seqProvider := by
  simp [sequenceResetGapFill]

end Resends

end MessageFactory

namespace Session

/-- `after` differs from `before` in nothing the inbound logic reads, and has only sent
something in between. -/
structure Keeps (before after : Session) : Prop where
  id_eq : after.id = before.id
  role_eq : after.role = before.role
  params_eq : after.params = before.params
  state_eq : after.state = before.state
  stopped_eq : after.stopped = before.stopped
  nextIn_eq : after.seqProvider.nextIn = before.seqProvider.nextIn
  cache_eq : after.recoveryCache = before.recoveryCache
  framer_eq : after.framer = before.framer
  conn_eq : after.conn = before.conn
  trace_eq : ∃ outputs, after.trace = before.trace ++ outputs ∧ ∀ e ∈ outputs, e.isOutput = true

namespace Keeps

variable {first second third : Session}

theorem refl (session : Session) : Keeps session session :=
  ⟨rfl, rfl, rfl, rfl, rfl, rfl, rfl, rfl, rfl, [], by simp⟩

theorem trans (left : Keeps first second) (right : Keeps second third) : Keeps first third := by
  obtain ⟨outputs, traceEq, areOutputs⟩ := left.trace_eq
  obtain ⟨more, moreEq, moreOutputs⟩ := right.trace_eq
  refine ⟨right.id_eq.trans left.id_eq, right.role_eq.trans left.role_eq,
    right.params_eq.trans left.params_eq, right.state_eq.trans left.state_eq,
    right.stopped_eq.trans left.stopped_eq, right.nextIn_eq.trans left.nextIn_eq,
    right.cache_eq.trans left.cache_eq, right.framer_eq.trans left.framer_eq,
    right.conn_eq.trans left.conn_eq, outputs ++ more, ?_, ?_⟩
  · rw [moreEq, traceEq, List.append_assoc]
  · intro e mem
    rcases List.mem_append.mp mem with inFirst | inSecond
    · exact areOutputs e inFirst
    · exact moreOutputs e inSecond

end Keeps

section Output

variable (session : Session)

theorem keeps_recordFault (fault : Fault) (other : fault.ofCache = false := by rfl) :
    Keeps session (session.recordFault fault) :=
  ⟨rfl, rfl, rfl, rfl, rfl, rfl, rfl, rfl, rfl, [.fault fault], rfl,
    by simp [Event.isOutput, other]⟩

theorem keeps_recordSent (type wire : Bytes) (isResend : Bool) :
    Keeps session (session.record (.sent type wire isResend)) :=
  ⟨rfl, rfl, rfl, rfl, rfl, rfl, rfl, rfl, rfl, [.sent type wire isResend], rfl,
    by simp [Event.isOutput]⟩

theorem keeps_scheduleHeartbeat : Keeps session session.scheduleHeartbeat :=
  ⟨rfl, rfl, rfl, rfl, rfl, rfl, rfl, rfl, rfl, [], by simp [scheduleHeartbeat]⟩

theorem keeps_scheduleTestRequestTimeout : Keeps session session.scheduleTestRequestTimeout :=
  ⟨rfl, rfl, rfl, rfl, rfl, rfl, rfl, rfl, rfl, [], by simp [scheduleTestRequestTimeout]⟩

theorem keeps_scheduleLogonTimeout (expected : SessionState) :
    Keeps session (session.scheduleLogonTimeout expected) :=
  ⟨rfl, rfl, rfl, rfl, rfl, rfl, rfl, rfl, rfl, [], by simp [scheduleLogonTimeout]⟩

theorem keeps_doRead : Keeps session session.doRead := by
  rw [doRead]
  split
  · exact .refl session
  · split
    · exact session.keeps_recordFault _
    · exact ⟨rfl, rfl, rfl, rfl, rfl, rfl, rfl, rfl, rfl, [], by simp⟩

theorem keeps_doWrite : Keeps session session.doWrite := by
  rw [doWrite]
  split
  · exact ⟨rfl, rfl, rfl, rfl, rfl, rfl, rfl, rfl, rfl, [], by simp⟩
  · split
    · exact .refl session
    · split
      · exact session.keeps_recordFault _
      · exact ⟨rfl, rfl, rfl, rfl, rfl, rfl, rfl, rfl, rfl, [], by simp⟩

theorem keeps_sendBytes (data : Bytes) : Keeps session (session.sendBytes data) := by
  have queued : Keeps session { session with writeQ := session.writeQ ++ [⟨data, 0⟩] } :=
    ⟨rfl, rfl, rfl, rfl, rfl, rfl, rfl, rfl, rfl, [], by simp⟩
  have inflight : Keeps session
      { session with writeQ := session.writeQ ++ [⟨data, 0⟩], writeInflight := true } :=
    ⟨rfl, rfl, rfl, rfl, rfl, rfl, rfl, rfl, rfl, [], by simp⟩
  simp only [sendBytes]
  split
  · exact queued
  · exact inflight.trans (keeps_doWrite _)

theorem keeps_storeOutbound (wire : Bytes) : Keeps session (session.storeOutbound wire) := by
  simp only [storeOutbound]
  split
  · exact ⟨rfl, rfl, rfl, rfl, rfl, rfl, rfl, rfl, rfl, [], by simp⟩
  · exact ⟨rfl, rfl, rfl, rfl, rfl, rfl, rfl, rfl, rfl, [.fault .storeSequence], rfl,
      by simp [Event.isOutput, Fault.ofCache]⟩

theorem Keeps.scheduleIfEstablished {session sent : Session} (keeps : Keeps session sent) :
    Keeps session (if sent.established then sent.scheduleHeartbeat else sent) := by
  split
  · exact keeps.trans sent.keeps_scheduleHeartbeat
  · exact keeps

theorem keeps_sendMessage (type wire : Bytes) (isResend : Bool) :
    Keeps session (session.sendMessage type wire isResend) := by
  simp only [sendMessage]
  split
  · exact .refl session
  · have stored : Keeps session
        (if isResend = true then session.sendBytes wire
          else (session.sendBytes wire).storeOutbound wire) := by
      split
      · exact session.keeps_sendBytes wire
      · exact (session.keeps_sendBytes wire).trans (keeps_storeOutbound _ wire)
    exact (stored.trans (keeps_recordSent _ type wire isResend)).scheduleIfEstablished

theorem keeps_withFactory {factory : MessageFactory} (params_eq : factory.params = session.params)
    (nextIn_eq : factory.seqProvider.nextIn = session.seqProvider.nextIn) :
    Keeps session (session.withFactory factory) :=
  ⟨rfl, rfl, params_eq, rfl, rfl, nextIn_eq, rfl, rfl, rfl, [], by simp [withFactory]⟩

theorem keeps_sendBuilt (type : Bytes) {built : Bytes × MessageFactory} (isResend : Bool)
    (params_eq : built.2.params = session.params)
    (nextIn_eq : built.2.seqProvider.nextIn = session.seqProvider.nextIn) :
    Keeps session (session.sendBuilt type built isResend) :=
  (session.keeps_withFactory params_eq nextIn_eq).trans (keeps_sendMessage _ _ _ _)

/-- All stamped messages go out this way. -/
theorem keeps_sendStamped (type buildType : Bytes) (fields : List Field) :
    Keeps session
      (session.sendBuilt type (session.msgFactory.build buildType fields) false) :=
  session.keeps_sendBuilt type false (by simp [msgFactory])
    (by simp [msgFactory, SeqProvider.updateOut])

theorem keeps_sendLogon (reset : Bool) : Keeps session (session.sendLogon reset) :=
  session.keeps_sendStamped _ _ _

theorem keeps_sendReject (refSeqNum reason tag : ℕ) (text : Bytes) :
    Keeps session (session.sendReject refSeqNum reason tag text) :=
  session.keeps_sendStamped _ _ _

theorem keeps_sendLogout (reason : Bytes) : Keeps session (session.sendLogout reason) :=
  session.keeps_sendStamped _ _ _

theorem keeps_sendHeartbeat (testReqId : Bytes) :
    Keeps session (session.sendHeartbeat testReqId) :=
  session.keeps_sendStamped _ _ _

theorem keeps_sendTestRequest (testReqId : Bytes) :
    Keeps session (session.sendTestRequest testReqId) :=
  session.keeps_sendStamped _ _ _

theorem keeps_sendResendRequest (beginSeqNo endSeqNo : ℕ) :
    Keeps session (session.sendResendRequest beginSeqNo endSeqNo) :=
  session.keeps_sendStamped _ _ _

theorem keeps_sendCustom (payload : Bytes) : Keeps session (session.sendCustom payload) :=
  session.keeps_sendStamped _ _ _

theorem keeps_sendFromApp (message : Message) (msgType : Bytes) :
    Keeps session (session.sendFromApp message msgType) := by
  rw [sendFromApp]
  split
  · exact .refl session
  · exact session.keeps_sendStamped _ _ _

theorem keeps_sendSequenceResetGapFill (msgSeqNum newSeqNo : ℕ) :
    Keeps session (session.sendSequenceResetGapFill msgSeqNum newSeqNo) :=
  session.keeps_sendBuilt _ true (by simp [msgFactory]) (by simp [msgFactory])

theorem keeps_resendStored (seqNum : ℕ) : Keeps session (session.resendStored seqNum) := by
  rw [resendStored]
  split
  · exact session.keeps_recordFault _
  · exact session.keeps_sendBuilt _ true (by simp [msgFactory]) (by simp [msgFactory])

theorem keeps_answerResend (rounds : ℕ) (stream : ResendStream) :
    Keeps session (answerResend rounds stream session) := by
  induction rounds generalizing stream session with
  | zero =>
      rw [answerResend]
      split
      · exact session.keeps_recordFault _
      · exact .refl session
  | succ rounds ih =>
      simp only [answerResend]
      split
      · refine Keeps.trans ?_ (ih _ _)
        have checked : Keeps session
            (if stream.entry.isNone = true then session.recordFault .storeIndex else session) := by
          split
          · exact session.keeps_recordFault _
          · exact .refl session
        split
        · exact checked.trans (keeps_sendSequenceResetGapFill _ _ _)
        · exact checked.trans (keeps_resendStored _ _)
      · exact .refl session

end Output

section Handlers

variable (session : Session) (view : ValidMessageView)

theorem keeps_handleHeartbeat : Keeps session session.handleHeartbeat :=
  ⟨rfl, rfl, rfl, rfl, rfl, rfl, rfl, rfl, rfl, [], by simp [handleHeartbeat]⟩

theorem keeps_handleTestRequest : Keeps session (session.handleTestRequest view) := by
  rw [handleTestRequest]
  split
  · exact session.keeps_recordFault _
  · exact session.keeps_sendHeartbeat _

theorem keeps_handleResendRequest : Keeps session (session.handleResendRequest view) := by
  rw [handleResendRequest]
  split
  · exact session.keeps_answerResend _ _
  · exact session.keeps_recordFault _
  · exact session.keeps_recordFault _

theorem keeps_handleReject : Keeps session (session.handleReject view) := by
  rw [handleReject]
  split
  · exact session.keeps_recordFault _
  · exact .refl session

theorem keeps_handleCustom : Keeps session (session.handleCustom view) := by
  simp only [handleCustom]
  split
  · exact .refl session
  · exact session.keeps_sendCustom _

end Handlers

end Session

end FixEngine
