import FixEngine.Session.Operations
import FixEngine.Session.Runs

/-!
# Reads and writes need a connection

`on_transport_down_` clears the connection and the write queue, but not what is already on its
way: the completion of the other direction, a timer that has expired, a message of the
application. None of the senders looks at the connection, `do_read` does not either, and the
handler of a write takes the front of the queue unseen. As long as nothing of that kind runs
between the loss of a connection and the next one, and a write is reported as done only while one
is in flight, reads and writes start on a connection and the queue has a front.
-/

namespace FixEngine

namespace Session

/-- What runs on the strand: the handler of a read that brought data, or another input. -/
inductive Task
  | read (data : Bytes)
  | input (input : Input)

/-- The session after a task of its strand. -/
def serve (session : Session) : Task → Session
  | .read data => session.onRead (.ok data)
  | .input input => session.step input

/-- No read or write was started without a connection, and no front of an empty queue was taken. -/
structure Connected (session : Session) : Prop where
  started : .fault .noConnection ∉ session.trace
  written : .fault .emptyWriteQueue ∉ session.trace

/-- The invariant: without a connection nothing is queued, and something is queued while a write
is in flight. -/
structure Tended (session : Session) : Prop where
  connected : session.Connected
  detached : session.conn = none → session.writeQ = []
  inflight : session.writeInflight = true → session.writeQ ≠ []

/-- The session is stopped or has a connection, so it may send and read. -/
structure Attached (session : Session) : Prop where
  tended : session.Tended
  attached : session.stopped = true ∨ session.conn ≠ none

section Steps

variable {session after : Session}

theorem Connected.trace {events : List Event} (connected : session.Connected)
    (traceEq : after.trace = session.trace ++ events)
    (started : .fault .noConnection ∉ events) (written : .fault .emptyWriteQueue ∉ events) :
    after.Connected := by
  constructor
  · rw [traceEq, List.mem_append, not_or]
    exact ⟨connected.started, started⟩
  · rw [traceEq, List.mem_append, not_or]
    exact ⟨connected.written, written⟩

theorem Tended.calm (tended : session.Tended) (calm : Calm session after) : after.Tended := by
  rcases calm.trace_eq with ⟨events, traceEq, areCalm⟩
  refine ⟨tended.connected.trace traceEq ?_ ?_, ?_, ?_⟩
  · intro mem
    have := areCalm _ mem
    simp [Event.isCalm] at this
  · intro mem
    have := areCalm _ mem
    simp [Event.isCalm] at this
  · rw [calm.conn_eq, calm.writeQ_eq]
    exact tended.detached
  · rw [calm.writeInflight_eq, calm.writeQ_eq]
    exact tended.inflight

theorem Attached.calm (attached : session.Attached) (calm : Calm session after) :
    after.Attached := by
  refine ⟨attached.tended.calm calm, ?_⟩
  rw [calm.stopped_eq, calm.conn_eq]
  exact attached.attached

theorem conn_doWrite (session : Session) : session.doWrite.conn = session.conn := by
  rw [doWrite]
  split
  · rfl
  · split
    · rfl
    · split
      · rfl
      · rfl

/-- `do_write` looks at the queue first, and the queue is empty without a connection. -/
theorem tended_doWrite (connected : session.Connected)
    (detached : session.conn = none → session.writeQ = []) : session.doWrite.Tended := by
  rw [doWrite]
  split
  · exact ⟨⟨connected.started, connected.written⟩, detached, by simp⟩
  · next front rest queued =>
      have busy : session.writeQ ≠ [] := by simp [queued]
      split
      · exact ⟨connected, detached, fun _ => busy⟩
      · split
        · next lost => exact absurd (detached lost) busy
        · exact ⟨⟨connected.started, connected.written⟩, detached, fun _ => busy⟩

theorem attached_doRead (attached : session.Attached) : session.doRead.Attached := by
  rw [doRead]
  split
  · exact attached
  · next running =>
      split
      · next lost =>
          rcases attached.attached with stopped | present
          · exact absurd stopped running
          · exact absurd lost present
      · next conn present =>
          exact ⟨⟨⟨attached.tended.connected.started, attached.tended.connected.written⟩,
            attached.tended.detached, attached.tended.inflight⟩, .inr (by simp [present])⟩

theorem attached_sendBytes (attached : session.Attached) (running : session.stopped = false)
    (data : Bytes) : (session.sendBytes data).Attached := by
  have present : session.conn ≠ none := by
    rcases attached.attached with stopped | present
    · simp [running] at stopped
    · exact present
  have connected := attached.tended.connected
  simp only [sendBytes]
  split
  · exact ⟨⟨⟨connected.started, connected.written⟩, fun lost => absurd lost present, by simp⟩,
      .inr present⟩
  · have written := @tended_doWrite
      { session with writeQ := session.writeQ ++ [⟨data, 0⟩], writeInflight := true }
      ⟨connected.started, connected.written⟩ fun lost => absurd lost present
    refine ⟨written, .inr ?_⟩
    rw [conn_doWrite]
    exact present

theorem attached_storeOutbound (attached : session.Attached) (wire : Bytes) :
    (session.storeOutbound wire).Attached := by
  have connected := attached.tended.connected
  simp only [storeOutbound]
  split
  · exact ⟨⟨⟨connected.started, connected.written⟩, attached.tended.detached,
      attached.tended.inflight⟩, attached.attached⟩
  · refine ⟨⟨?_, attached.tended.detached, attached.tended.inflight⟩, attached.attached⟩
    exact @Connected.trace session _ [.fault .storeSequence] connected rfl (by simp) (by simp)

theorem attached_record_sent (attached : session.Attached) (type wire : Bytes) (isResend : Bool) :
    (session.record (.sent type wire isResend)).Attached := by
  refine ⟨⟨?_, attached.tended.detached, attached.tended.inflight⟩, attached.attached⟩
  exact attached.tended.connected.trace rfl (by simp) (by simp)

theorem attached_sendMessage (attached : session.Attached) (type wire : Bytes) (isResend : Bool) :
    (session.sendMessage type wire isResend).Attached := by
  rw [sendMessage]
  split
  · exact attached
  · next running =>
      have queued := attached_sendBytes attached (by simpa using running) wire
      have stored : (if isResend = true then session.sendBytes wire
          else (session.sendBytes wire).storeOutbound wire).Attached := by
        split
        · exact queued
        · exact attached_storeOutbound queued wire
      exact (attached_record_sent stored type wire isResend).calm (calm_scheduleIfEstablished _)

theorem attached_send (attached : session.Attached) (outgoing : Outgoing) :
    (session.send outgoing).Attached := by
  have stamped : (session.withFactory (outgoing.built session.msgFactory).2).Attached :=
    ⟨⟨⟨attached.tended.connected.started, attached.tended.connected.written⟩,
      attached.tended.detached, attached.tended.inflight⟩, attached.attached⟩
  exact attached_sendMessage stamped _ _ _

theorem tended_stop (tended : session.Tended) : session.stop.Tended := by
  have dropped : ∀ released : Session, released.trace = session.trace →
      released.dropWrites.Tended := by
    intro released traceEq
    refine ⟨⟨?_, ?_⟩, fun _ => rfl, ?_⟩
    · rw [dropWrites, traceEq]
      exact tended.connected.started
    · rw [dropWrites, traceEq]
      exact tended.connected.written
    · intro inflight
      simp [dropWrites] at inflight
  rw [stop]
  split
  · exact tended
  · apply dropped
    split
    · rfl
    · rw [closeConnection]
      split <;> rfl

theorem attached_stop (attached : session.Attached) : session.stop.Attached :=
  ⟨tended_stop attached.tended, .inl session.stopped_stop⟩

theorem Attached.performs {permits : Outgoing → Prop} (attached : session.Attached)
    (performs : Performs permits session after) : after.Attached :=
  performs.invariant (fun _ _ calm attached => attached.calm calm)
    (fun _ outgoing _ attached => attached_send attached outgoing)
    (fun _ attached => attached_stop attached) attached

theorem tended_onTransportDown (tended : session.Tended) : session.onTransportDown.Tended := by
  rw [onTransportDown]
  split
  · exact tended
  split
  · exact tended
  · have released : (session.closeConnection.cancelTimers.disconnect.record
        .reconnectRequested).trace = session.trace ++ [.reconnectRequested] := by
      simp only [record, disconnect, cancelTimers, closeConnection]
      split <;> rfl
    refine ⟨tended.connected.trace released (by simp) (by simp), fun _ => rfl, ?_⟩
    intro inflight
    simp [record, disconnect] at inflight

end Steps

section Frames

variable {session : Session}

theorem attached_stopWithLogout (attached : session.Attached) (reason : Bytes) :
    (session.stopWithLogout reason).Attached :=
  attached.performs (@performs_stopWithLogout (fun _ => True) session reason trivial)

theorem attached_processWireMessage (attached : session.Attached) (wire : Bytes) :
    (session.processWireMessage wire).Attached :=
  attached.performs (session.performs_processWireMessage wire)

theorem attached_processMessages (rounds : ℕ) (attached : session.Attached) :
    (processMessages rounds session).Attached := by
  have framed : ∀ (processed : Session) framer, Calm processed (processed.withFramer framer) :=
    fun _ _ => calm_of_same rfl rfl
  induction rounds generalizing session with
  | zero =>
      rw [processMessages]
      split
      · exact attached.calm (session.calm_recordFault _)
      · exact attached
  | succ rounds ih =>
      simp only [processMessages]
      split
      · exact ih ((attached_processWireMessage attached _).calm (framed _ _))
      · exact attached

end Frames

section Runs

variable {session : Session}

/-- While the session runs without a connection nothing that sends or reads may run, and a write
may be reported as done only while one is in flight. -/
def Attended (session : Session) : Task → Prop
  | .read _ => session.stopped = true ∨ session.conn ≠ none
  | .input (.frame _) => session.stopped = true ∨ session.conn ≠ none
  | .input (.sendFromApp _ _) => session.stopped = true ∨ session.conn ≠ none
  | .input .heartbeatTimer => session.stopped = true ∨ session.conn ≠ none
  | .input .inboundTimer => session.stopped = true ∨ session.conn ≠ none
  | .input (.readFailed .transient) => session.stopped = true ∨ session.conn ≠ none
  | .input (.writeDone (.ok _)) => session.stopped = true ∨ session.writeInflight = true
  | _ => True

theorem tended_onRead (tended : session.Tended) (data : Bytes)
    (attended : session.stopped = true ∨ session.conn ≠ none) :
    (session.onRead (.ok data)).Tended := by
  have attached : session.Attached := ⟨tended, attended⟩
  rw [onRead]
  split
  · exact tended
  · have appended : Calm session (session.withFramer (session.framer.append data)) :=
      calm_of_same rfl rfl
    exact (attached_doRead (attached_processMessages _ (attached.calm appended))).tended

theorem tended_onWrite (tended : session.Tended) {result : Except IoError ℕ}
    (attended : session.Attended (.input (.writeDone result))) :
    (session.onWrite result).Tended := by
  simp only [onWrite]
  split
  · exact tended
  next running =>
  cases result with
  | error reason =>
      cases reason with
      | aborted => exact tended
      | transient => exact tended_doWrite tended.connected tended.detached
      | down => exact tended_onTransportDown tended
  | ok accepted =>
      have inflight : session.writeInflight = true := by
        rcases attended with stopped | inflight
        · exact absurd stopped running
        · exact inflight
      simp only []
      split
      · next empty => exact absurd empty (tended.inflight inflight)
      · next front rest queued =>
          refine tended_doWrite ⟨tended.connected.started, tended.connected.written⟩ ?_
          intro lost
          have empty := tended.detached lost
          rw [queued] at empty
          cases empty

theorem tended_startNormal (tended : session.Tended) : session.startNormal.Tended := by
  rw [startNormal]
  split
  · exact tended
  next conn present =>
  have attached : session.Attached := ⟨tended, .inr (by simp [present])⟩
  have reading := attached_doRead (attached.calm (session.calm_record (.started .normal)))
  simp only []
  cases session.role with
  | acceptor =>
      exact (reading.calm ((calm_withState _ _).trans (calm_scheduleLogonTimeout _ _))).tended
  | initiator =>
      have numbered : (if (session.record (.started .normal)).doRead.params.initiatorResetOnLogon
          then (session.record (.started .normal)).doRead.resetSequence
            (session.record (.started .normal)).doRead.seqProvider.reset
          else (session.record (.started .normal)).doRead).Attached := by
        split
        · exact reading.calm (calm_resetSequence _ _)
        · exact reading
      exact ((attached_send numbered (.logon _)).calm
        ((calm_withState _ _).trans (calm_scheduleLogonTimeout _ _))).tended

theorem tended_startAfterReconnect (tended : session.Tended) :
    session.startAfterReconnect.Tended := by
  rw [startAfterReconnect]
  split
  · exact tended
  next conn present =>
  split
  · exact tended
  have started := tended.calm (session.calm_record (.started .reconnect))
  have cleaned : (session.record (.started .reconnect)).cleanUp.Attached := by
    refine ⟨⟨⟨started.connected.started, started.connected.written⟩, fun _ => rfl, ?_⟩, .inr ?_⟩
    · intro inflight
      simp [cleanUp] at inflight
    · exact show session.conn ≠ none by simp [present]
  simp only []
  cases session.role with
  | acceptor =>
      exact (attached_doRead (cleaned.calm
        ((calm_withState _ _).trans (calm_scheduleLogonTimeout _ _)))).tended
  | initiator =>
      exact (attached_doRead ((attached_send cleaned (.logon false)).calm
        ((calm_withState _ _).trans (calm_scheduleLogonTimeout _ _)))).tended

theorem tended_onInboundTimer (attached : session.Attached) : session.onInboundTimer.Tended := by
  rw [onInboundTimer]
  split
  · exact attached.tended
  split
  · exact (attached_stopWithLogout attached _).tended
  · have expecting : session.expectResponse.Attached :=
      ⟨⟨⟨attached.tended.connected.started, attached.tended.connected.written⟩,
        attached.tended.detached, attached.tended.inflight⟩, attached.attached⟩
    exact ((attached_send expecting (.testRequest _)).calm
      (calm_scheduleTestRequestTimeout _)).tended

/-- Every task that is attended keeps the invariant. -/
theorem tended_serve (tended : session.Tended) {task : Task} (attended : session.Attended task) :
    (session.serve task).Tended := by
  cases task with
  | read data => exact tended_onRead tended data attended
  | input input =>
      cases input with
      | frame wire => exact (attached_processWireMessage ⟨tended, attended⟩ wire).tended
      | sendFromApp message msgType =>
          simp only [serve, step, sendFromApp]
          split
          · exact tended
          · exact (attached_send ⟨tended, attended⟩ (.app message msgType)).tended
      | heartbeatTimer =>
          simp only [serve, step, onHeartbeatTimer]
          split
          · exact tended
          · exact ((attached_send ⟨tended, attended⟩ (.heartbeat [])).calm
              (calm_scheduleHeartbeat _)).tended
      | inboundTimer => exact tended_onInboundTimer ⟨tended, attended⟩
      | logonTimer expected =>
          simp only [serve, step, onLogonTimer]
          split
          · exact tended
          split
          · exact tended_stop tended
          · exact tended
      | logoutTimer =>
          simp only [serve, step, onLogoutTimer]
          split
          · exact tended
          · exact tended_stop tended
      | writeDone result => exact tended_onWrite tended attended
      | readFailed reason =>
          simp only [serve, step, onRead]
          split
          · exact tended
          · cases reason with
            | aborted => exact tended
            | transient => exact (attached_doRead ⟨tended, attended⟩).tended
            | down => exact tended_onTransportDown tended
      | setConnection conn =>
          exact ⟨⟨tended.connected.started, tended.connected.written⟩,
            fun lost => by simp [serve, step, setConnection] at lost, tended.inflight⟩
      | start mode =>
          cases mode with
          | normal => exact tended_startNormal tended
          | reconnect => exact tended_startAfterReconnect tended
      | stop => exact tended_stop tended

/-- Reads and writes are started on a connection, and a completed write finds its message at the
front of the queue, in every state that a run of attended tasks reaches. -/
theorem run_io_connected (id : ℕ) (role : Role) (params : SessionParameters) (clock : Clock)
    (tasks : List Task)
    (attended : Runs.Meets serve Attended (Session.new id role params clock) tasks) :
    .fault .noConnection ∉ (tasks.foldl serve (Session.new id role params clock)).trace ∧
      .fault .emptyWriteQueue ∉ (tasks.foldl serve (Session.new id role params clock)).trace := by
  have fresh : (Session.new id role params clock).Tended :=
    ⟨⟨by simp [Session.new], by simp [Session.new]⟩, fun _ => rfl, by simp [Session.new]⟩
  have tended := attended.invariant fresh fun session task tended attends =>
    tended_serve tended attends
  exact ⟨tended.connected.started, tended.connected.written⟩

end Runs

section Example

/-- The Logon of an initiator is written, and its connection is lost. -/
def lostAfterLogon : List Task :=
  [.input (.setConnection 0), .input (.start .normal), .input (.writeDone (.ok 10)),
    .input (.readFailed .down)]

theorem run_io_connected_lost :
    .fault .noConnection ∉ (lostAfterLogon.foldl serve initiator).trace ∧
      .fault .emptyWriteQueue ∉ (lostAfterLogon.foldl serve initiator).trace :=
  run_io_connected 0 .initiator _ .standard lostAfterLogon
    ⟨trivial, trivial, .inr (by decide +kernel), trivial, trivial⟩

/-- After the loss a message of the application is written, and a read started, on no connection,
and the write that was under way is taken for one of an empty queue. -/
theorem run_io_unconnected :
    let connected := [.input (.setConnection 0), .input (.start .normal)].foldl serve initiator
    let unread := connected.serve (.input (.readFailed .down))
    let unwritten := connected.serve (.input (.writeDone (.error .down)))
    connected.pendingReads = [0] ∧ connected.pendingWrites.map Prod.fst = [0] ∧
      connected.conn = some 0 ∧
      .fault .noConnection ∈ (unread.serve (.input (.sendFromApp [⟨9250, ascii "x"⟩]
        MessageFactory.customType))).trace ∧
      .fault .emptyWriteQueue ∈ (unread.serve (.input (.writeDone (.ok 10)))).trace ∧
      .fault .noConnection ∈ (unwritten.serve (.read [])).trace := by
  decide +kernel

end Example

end Session

end FixEngine
