import FixEngine.Session.Runs

/-!
# At-most-once delivery

Between two resets of the sequence numbers the numbers handed to the handlers increase, because
`next_in` does not decrease. The one inbound message that can move it backwards is an
in-sequence SequenceReset in gap-fill mode, whose target the session takes unchecked; and the
counter wraps after the last 64-bit number.
-/

namespace FixEngine

/-- The numbers handed to handlers since the last reset. -/
def handledSinceReset (trace : List Event) : List ℕ :=
  trace.foldl
    (fun numbers event =>
      match event with
      | .seqReset => []
      | .handled _ seqNum _ => numbers ++ [seqNum]
      | _ => numbers) []

section Trace

variable (trace : List Event)

theorem handledSinceReset_outputs {outputs : List Event}
    (areOutputs : ∀ e ∈ outputs, e.isOutput = true) :
    handledSinceReset (trace ++ outputs) = handledSinceReset trace :=
  foldl_outputs (fun _ _ _ _ => rfl) (fun _ _ => rfl) [] trace areOutputs

@[simp]
theorem handledSinceReset_handled (type : Bytes) (seqNum : ℕ) (message : Message) :
    handledSinceReset (trace ++ [.handled type seqNum message]) =
      handledSinceReset trace ++ [seqNum] := by
  simp [handledSinceReset]

@[simp]
theorem handledSinceReset_seqReset : handledSinceReset (trace ++ [.seqReset]) = [] := by
  simp [handledSinceReset]

@[simp]
theorem handledSinceReset_logonAccepted :
    handledSinceReset (trace ++ [.logonAccepted]) = handledSinceReset trace := by
  simp [handledSinceReset]

@[simp]
theorem handledSinceReset_started (mode : StartMode) :
    handledSinceReset (trace ++ [.started mode]) = handledSinceReset trace := by
  simp [handledSinceReset]

@[simp]
theorem handledSinceReset_fault (trace : List Event) (fault : Fault) :
    handledSinceReset (trace ++ [.fault fault]) = handledSinceReset trace := by
  simp [handledSinceReset]

theorem handledSinceReset_reconnectRequested :
    handledSinceReset (trace ++ [.reconnectRequested]) = handledSinceReset trace := by
  simp [handledSinceReset]

end Trace

namespace Session

/-- The numbers handled since the last reset increase and lie below the expected one. -/
structure InOrder (session : Session) : Prop where
  increasing : (handledSinceReset session.trace).Pairwise (· < ·)
  below : ∀ seqNum ∈ handledSinceReset session.trace, seqNum < session.seqProvider.nextIn

/-- The expected number did not decrease without a reset, and the handled numbers stay in
order. -/
structure Advances (before after : Session) : Prop where
  grown : ∃ events, after.trace = before.trace ++ events ∧
    (.seqReset ∈ events ∨ before.seqProvider.nextIn ≤ after.seqProvider.nextIn)
  inOrder : before.InOrder → after.InOrder

/-- An in-sequence message does not exhaust the counter, and one that fills a gap moves the
expected number forwards. -/
def MovesForward (session : Session) (message : Message) : Prop :=
  ∀ type, session.stopped = false → session.Accepts message type →
    (makeValidMessageView message).headerCache.msgSeqNum = session.seqProvider.nextIn →
      session.seqProvider.nextIn + 1 < word64 ∧
        (type = ascii "4" → gapFill (makeValidMessageView message) = true →
          session.seqProvider.nextIn < newSeqNo (makeValidMessageView message))

namespace Advances

variable {first second third : Session}

theorem trans (left : Advances first second) (right : Advances second third) :
    Advances first third := by
  obtain ⟨events, eventsEq, grown⟩ := left.grown
  obtain ⟨more, moreEq, grownMore⟩ := right.grown
  refine ⟨⟨events ++ more, by rw [moreEq, eventsEq, List.append_assoc], ?_⟩,
    fun inOrder => right.inOrder (left.inOrder inOrder)⟩
  rcases grown with reset | le
  · exact .inl (List.mem_append_left _ reset)
  · rcases grownMore with reset | le'
    · exact .inl (List.mem_append_right _ reset)
    · exact .inr (Nat.le_trans le le')

/-- Events that are neither resets nor calls of handlers, and the same expected number. -/
theorem of_unhandled (events : List Event) (trace_eq : second.trace = first.trace ++ events)
    (unhandled : handledSinceReset second.trace = handledSinceReset first.trace)
    (nextIn_eq : second.seqProvider.nextIn = first.seqProvider.nextIn) : Advances first second where
  grown := ⟨events, trace_eq, .inr (Nat.le_of_eq nextIn_eq.symm)⟩
  inOrder := fun inOrder => ⟨by rw [unhandled]; exact inOrder.increasing,
    by rw [unhandled, nextIn_eq]; exact inOrder.below⟩

theorem of_keeps (keeps : Keeps first second) : Advances first second := by
  obtain ⟨outputs, traceEq, areOutputs⟩ := keeps.trace_eq
  refine of_unhandled outputs traceEq ?_ keeps.nextIn_eq
  rw [traceEq, handledSinceReset_outputs _ areOutputs]

/-- A change of members that leaves trace and numbers alone. -/
theorem of_same (trace_eq : second.trace = first.trace)
    (nextIn_eq : second.seqProvider.nextIn = first.seqProvider.nextIn) : Advances first second :=
  of_unhandled [] (by simp [trace_eq]) (by rw [trace_eq]) nextIn_eq

theorem refl (session : Session) : Advances session session := of_same rfl rfl

/-- Such a change, and then something sent. -/
theorem via {base : Session} (keeps : Keeps base second) (trace_eq : base.trace = first.trace)
    (nextIn_eq : base.seqProvider.nextIn = first.seqProvider.nextIn) : Advances first second :=
  (of_same trace_eq nextIn_eq).trans (of_keeps keeps)

end Advances

section Steps

variable {session after : Session} {message : Message} {view : ValidMessageView}

theorem advances_becomeActive (session : Session) : Advances session session.becomeActive := by
  have accepted : Advances session ((session.withState .active).record .logonAccepted) :=
    .of_unhandled [.logonAccepted] rfl (handledSinceReset_logonAccepted session.trace) rfl
  exact accepted.trans (.of_keeps session.keeps_becomeActive)

theorem advances_resetSequence (session : Session) (provider : SeqProvider) :
    Advances session (session.resetSequence provider) := by
  have emptied : handledSinceReset (session.resetSequence provider).trace = [] :=
    handledSinceReset_seqReset session.trace
  exact ⟨⟨[.seqReset], rfl, .inl (by simp)⟩, fun _ => ⟨by rw [emptied]; exact .nil,
    by rw [emptied]; simp⟩⟩

theorem newSeqNo_lt (view : ValidMessageView) : newSeqNo view < word64 := by
  have read : ∀ text : Bytes, (fromChars 64 text).value.getD 0 < word64 := by
    intro text
    simp only [fromChars]
    split
    · simp [word64]
    · split
      · next fits => exact fits
      · simp [word64]
  cases found : view.message.firstValue? 36 with
  | none => simp [newSeqNo, found, word64]
  | some text => simpa [newSeqNo, found] using read text

/-- The message that is next in sequence is handed to its handler. -/
theorem advances_called (type : Bytes)
    (seq_eq : view.headerCache.msgSeqNum = session.seqProvider.nextIn)
    (room : session.seqProvider.nextIn + 1 < word64) :
    Advances session
      ((session.updateIn (view.headerCache.msgSeqNum + 1)).called type view) := by
  set next := (session.updateIn (view.headerCache.msgSeqNum + 1)).called type view with nextDef
  have nextIn : next.seqProvider.nextIn = session.seqProvider.nextIn + 1 := by
    rw [← seq_eq]
    exact Nat.mod_eq_of_lt (by rw [seq_eq]; exact room)
  have traceEq : next.trace = session.trace ++
      [.handled type view.headerCache.msgSeqNum view.message] := rfl
  have handled : handledSinceReset next.trace =
      handledSinceReset session.trace ++ [session.seqProvider.nextIn] := by
    rw [traceEq, handledSinceReset_handled, seq_eq]
  refine ⟨⟨_, traceEq, .inr (by omega)⟩, fun inOrder => ⟨?_, ?_⟩⟩
  · rw [handled, List.pairwise_append]
    refine ⟨inOrder.increasing, by simp, ?_⟩
    intro seqNum mem next nextMem
    rw [List.mem_singleton.mp nextMem]
    exact inOrder.below seqNum mem
  · intro seqNum mem
    rw [handled, List.mem_append, List.mem_singleton] at mem
    rcases mem with earlier | rfl
    · have := inOrder.below seqNum earlier
      omega
    · omega

theorem advances_handler {type : Bytes} {called : Session}
    (outcome : HandlerOutcome called type view after)
    (forwards : type = ascii "4" → gapFill view = true →
      called.seqProvider.nextIn ≤ newSeqNo view) : Advances called after := by
  cases outcome with
  | quiet keeps => exact .of_keeps keeps
  | refused _ interval keeps => exact .via keeps rfl rfl
  | loggedOn _ _ interval state replied keeps afterEq =>
      rw [afterEq]
      have accepted : Advances called replied := .via keeps rfl rfl
      exact accepted.trans (advances_becomeActive replied)
  | renumbered _ _ _ _ _ interval replied keeps afterEq =>
      rw [afterEq]
      have renumbered := advances_resetSequence
        ((called.withInterval interval).withState .logonReceived) called.seqProvider.acceptorReset
      have accepted : Advances called ((called.withInterval interval).withState .logonReceived) :=
        .of_same rfl rfl
      exact ((accepted.trans renumbered).trans (.of_keeps keeps)).trans
        (advances_becomeActive replied)
  | stopped _ keeps => exact .via keeps rfl rfl
  | moved isReset accepted afterEq =>
      rw [afterEq]
      have le : called.seqProvider.nextIn ≤ newSeqNo view := by
        rcases accepted with filled | le
        · exact forwards isReset filled
        · exact le
      have nextIn : (called.updateIn (newSeqNo view)).seqProvider.nextIn = newSeqNo view :=
        Nat.mod_eq_of_lt (newSeqNo_lt view)
      refine ⟨⟨[], (List.append_nil _).symm, .inr (by rw [nextIn]; exact le)⟩,
        fun inOrder => ⟨inOrder.increasing, fun seqNum mem => ?_⟩⟩
      rw [nextIn]
      exact Nat.lt_of_lt_of_le (inOrder.below seqNum mem) le

theorem advances_recordFault (session : Session) (fault : Fault) :
    Advances session (session.recordFault fault) :=
  .of_unhandled [.fault fault] rfl (handledSinceReset_fault _ _) rfl

theorem advances_cacheMessage (session : Session) (seqNum : ℕ) (raw : Bytes) :
    Advances session (session.cacheMessage seqNum raw) := by
  simp only [cacheMessage]
  split
  · exact .of_same rfl rfl
  · exact (session.advances_recordFault _).trans (.of_same rfl rfl)

theorem advances_dispatch (raw : Bytes) (forward : session.MovesForward message) :
    Advances session (session.dispatch message raw) := by
  cases session.dispatch_outcome message raw with
  | stopped _ afterEq => rw [afterEq]; exact .refl session
  | quiet _ _ _ keeps => exact .of_keeps keeps
  | refused _ _ keeps _ _ _ _ => exact .via keeps rfl rfl
  | checked running type accepts admitted ready keeps afterEq =>
      rw [afterEq]
      refine (Advances.of_keeps keeps).trans ?_
      have readyRunning : ready.stopped = false := keeps.stopped_eq.trans running
      cases checkSequence_outcome readyRunning type (makeValidMessageView message) raw with
      | inSequence seqEq sequenceEq =>
          obtain ⟨room, forwards⟩ := forward type running accepts (seqEq.trans keeps.nextIn_eq)
          rw [sequenceEq]
          have called := advances_called type seqEq (by rw [keeps.nextIn_eq]; exact room)
          have outcome := (ready.updateIn ((makeValidMessageView message).headerCache.msgSeqNum + 1)
            ).handle_outcome readyRunning type (makeValidMessageView message)
          refine called.trans (advances_handler outcome ?_)
          intro isReset filled
          have next : ((ready.updateIn ((makeValidMessageView message).headerCache.msgSeqNum + 1)
              ).called type (makeValidMessageView message)).seqProvider.nextIn =
              session.seqProvider.nextIn + 1 := by
            rw [← keeps.nextIn_eq, ← seqEq]
            exact Nat.mod_eq_of_lt (by rw [seqEq, keeps.nextIn_eq]; exact room)
          rw [next]
          exact forwards isReset filled
      | cached _ _ _ _ cachedEq =>
          rw [cachedEq]
          exact ready.advances_cacheMessage _ raw
      | gap _ _ requested keepsRequested gapEq =>
          rw [gapEq]
          refine (Advances.of_keeps keepsRequested).trans (Advances.trans ?_
            (advances_cacheMessage _ _ raw))
          exact .of_same rfl rfl
      | quiet keepsQuiet => exact .of_keeps keepsQuiet
      | tooHigh _ _ _ keepsHigh => exact .via keepsHigh rfl rfl
      | tooLow _ _ keepsLow => exact .via keepsLow rfl rfl

theorem advances_stop (session : Session) : Advances session session.stop := by
  cases running : session.stopped with
  | true => rw [stop_eq_self running]; exact .refl session
  | false => exact .via (keeps_stop running) rfl rfl

theorem advances_stopWithLogout (session : Session) (reason : Bytes) :
    Advances session (session.stopWithLogout reason) := by
  cases running : session.stopped with
  | true => simp only [stopWithLogout, running, if_true]; exact .refl session
  | false => exact .via (keeps_stopWithLogout running reason) rfl rfl

theorem advances_drainOne (raw : Bytes) (forward : session.MovesForward message) :
    Advances session (session.drainOne message raw) := by
  refine (advances_dispatch raw forward).trans ?_
  simp only [drainOne]
  split
  · exact .of_same rfl rfl
  · exact .trans (advances_recordFault _ _) (.of_same rfl rfl)

theorem advances_processWireMessage {wire : Bytes}
    (each : EachDispatch MovesForward session wire) :
    Advances session (session.processWireMessage wire) := by
  refine processWireMessage_rule (Advances session) (Advances session)
    ?_ ?_ ?_ ?_ ?_ ?_ ?_ ?_ (.refl session) each
  · exact fun _ _ forward => advances_dispatch wire forward
  · exact fun _ => session.advances_stopWithLogout _
  · exact fun _ advances _ => advances
  · exact fun current raw _ advances forward =>
      advances.trans (advances_drainOne raw forward)
  · exact fun _ advances => advances
  · exact fun _ advances => advances.trans (.of_same rfl rfl)
  · exact fun current advances => advances.trans (current.advances_recordFault _)
  · exact fun current advances =>
      (advances.trans (.of_keeps (current.keeps_sendLogout _))).trans (advances_stop _)

theorem advances_idle (outcome : IdleOutcome session after) : Advances session after := by
  cases outcome with
  | quiet keeps => exact .of_keeps keeps
  | connected conn afterEq => rw [afterEq]; exact .of_same rfl rfl
  | loggedOut keeps => exact .via keeps rfl rfl
  | stopped keeps => exact .via keeps rfl rfl
  | down released keeps afterEq =>
      rw [afterEq]
      exact (Advances.of_keeps keeps).trans (.of_unhandled [.reconnectRequested] rfl
        (handledSinceReset_reconnectRequested _) rfl)
  | started state _ keeps =>
      refine Advances.trans ?_ (.of_keeps keeps)
      exact .of_unhandled [.started .normal] rfl (handledSinceReset_started _ _) rfl
  | renumbered _ _ reading keepsReading keeps =>
      have started : Advances session (session.record (.started .normal)) :=
        .of_unhandled [.started .normal] rfl (handledSinceReset_started _ _) rfl
      have reset := advances_resetSequence reading reading.seqProvider.reset
      exact (started.trans (.of_keeps keepsReading)).trans (reset.trans (.via keeps rfl rfl))
  | restarted _ state _ keeps =>
      refine Advances.trans ?_ (.of_keeps keeps)
      exact .of_unhandled [.started .reconnect] rfl (handledSinceReset_started _ _) rfl

end Steps

section Runs

/-- The condition on a step: every message dispatched in it moves forward. -/
def StepMovesForward (session : Session) : Input → Prop
  | .frame wire => session.EachDispatch MovesForward wire
  | _ => True

theorem advances_step {session : Session} {input : Input}
    (forward : session.StepMovesForward input) : Advances session (session.step input) := by
  by_cases isFrame : ∃ wire, input = .frame wire
  · obtain ⟨wire, rfl⟩ := isFrame
    exact advances_processWireMessage forward
  · exact advances_idle (session.step_outcome fun wire same => isFrame ⟨wire, same⟩)

theorem inOrder_new (id : ℕ) (role : Role) (params : SessionParameters) (clock : Clock) :
    (Session.new id role params clock).InOrder :=
  ⟨.nil, by simp [Session.new, handledSinceReset]⟩

/-- In every run whose messages all move forward, the expected number decreases only by a reset
and no number is handed to a handler twice between two resets. -/
theorem run_delivers_once (id : ℕ) (role : Role) (params : SessionParameters) (clock : Clock)
    (inputs : List Input)
    (forward : Runs.Meets step StepMovesForward (Session.new id role params clock) inputs) :
    (∀ front input rest, inputs = front ++ input :: rest →
        let before := (Session.new id role params clock).run front
        let after := before.step input
        before.seqProvider.nextIn ≤ after.seqProvider.nextIn ∨
          ∃ events, after.trace = before.trace ++ events ∧ .seqReset ∈ events) ∧
      (handledSinceReset ((Session.new id role params clock).run inputs).trace).Nodup := by
  constructor
  · rintro front input rest rfl
    obtain ⟨-, here, -⟩ := Runs.meets_append.mp forward
    obtain ⟨events, traceEq, reset | le⟩ := (advances_step here).grown
    · exact .inr ⟨events, traceEq, reset⟩
    · exact .inl le
  · have inOrder := forward.invariant (inOrder_new id role params clock)
      fun session input inOrder here => (advances_step here).inOrder inOrder
    exact inOrder.increasing.imp fun lt => Nat.ne_of_lt lt

end Runs

section Example

/-- The parameters of the two ends of a connection. -/
def leftParams : SessionParameters :=
  { senderCompId := ascii "A", targetCompId := ascii "B" }

/-- The parameters of a session that its peer knows by the right names. -/
def rightParams : SessionParameters :=
  { senderCompId := ascii "B", targetCompId := ascii "A" }

/-- The factory of the peer, at a given outbound number. -/
def peerFactory (nextOut : ℕ) : MessageFactory :=
  ⟨{}, rightParams, ⟨1, nextOut⟩, .standard⟩

/-- An initiator is connected and sends its Logon. -/
def initiatorStart : List Input := [.setConnection 0, .start .normal]

/-- The peer answers the Logon and sends a heartbeat. -/
def heartbeatRun : List Input :=
  initiatorStart ++
    [.frame ((peerFactory 1).logon 30 false).1, .frame ((peerFactory 2).heartBeat []).1]

/-- Then it fills a gap that ends before it starts, and sends another heartbeat. -/
def backwardsRun : List Input :=
  heartbeatRun ++
    [.frame ((peerFactory 3).sequenceReset 2 true).1, .frame ((peerFactory 2).heartBeat []).1]

/-- Messages other than SequenceReset move forward while numbers are left. -/
theorem movesForward_of_type {session : Session} {message : Message} (type : Bytes)
    (type_eq : (makeValidMessageView message).headerCache.msgType = some type)
    (notReset : type ≠ ascii "4") (room : session.seqProvider.nextIn + 1 < word64) :
    session.MovesForward message := by
  intro type' _ accepts _
  have same : type' = type := Option.some.inj (accepts.type_eq.symm.trans type_eq)
  exact ⟨room, fun isReset => absurd (same.symm.trans isReset) notReset⟩

/-- After the heartbeat the peer fills a gap up to number 6, and sends another one. -/
def forwardRun : List Input :=
  heartbeatRun ++
    [.frame ((peerFactory 3).sequenceReset 6 true).1, .frame ((peerFactory 6).heartBeat []).1]

theorem run_delivers_once_gapFill :
    (handledSinceReset
        ((Session.new 0 .initiator leftParams .standard).run forwardRun).trace).Nodup ∧
      handledSinceReset
        ((Session.new 0 .initiator leftParams .standard).run forwardRun).trace = [1, 2, 3, 6] := by
  refine ⟨(run_delivers_once 0 .initiator leftParams .standard forwardRun
    ⟨trivial, trivial,
      ⟨fun _ => movesForward_of_type (ascii "A") (by decide +kernel) (by decide)
        (by decide +kernel), fun recovering => absurd recovering (by decide +kernel)⟩,
      ⟨fun _ => movesForward_of_type (ascii "0") (by decide +kernel) (by decide)
        (by decide +kernel), fun recovering => absurd recovering (by decide +kernel)⟩,
      ⟨fun _ => ?_, fun recovering => absurd recovering (by decide +kernel)⟩,
      ⟨fun _ => movesForward_of_type (ascii "0") (by decide +kernel) (by decide)
        (by decide +kernel), fun recovering => absurd recovering (by decide +kernel)⟩,
      trivial⟩).2, by decide +kernel⟩
  intro type _ _ _
  exact ⟨by decide +kernel, fun _ _ => by decide +kernel⟩

/-- The gap fill takes the expected number back, and the number 2 is handled again. -/
theorem run_handles_twice :
    ((Session.new 0 .initiator leftParams .standard).run heartbeatRun).seqProvider.nextIn = 3 ∧
      ((Session.new 0 .initiator leftParams .standard).run
        (backwardsRun.take 5)).seqProvider.nextIn = 2 ∧
      .seqReset ∉ ((Session.new 0 .initiator leftParams .standard).run backwardsRun).trace ∧
      handledSinceReset
        ((Session.new 0 .initiator leftParams .standard).run backwardsRun).trace =
          [1, 2, 3, 2] := by
  decide +kernel

end Example

end Session

end FixEngine
