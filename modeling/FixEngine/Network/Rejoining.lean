import FixEngine.Lib.Exchange
import FixEngine.Network.GapRecovery

/-!
# After a reconnect

The connection drops and what was under way is lost. Both sides come back on a new connection, the
initiator sends a Logon under its next number, and from then on each handles what the other has sent
since. Whatever the order, the exchange has one end.
-/

namespace FixEngine

open Relation (ReflTransGen)

namespace Session

/-- The connection is lost and the manager has set another. -/
def rejoin (session : Session) (conn : ℕ) : Session :=
  (session.onTransportDown.setConnection conn).start .reconnect

/-- The session before it waits for a Logon or sends one. -/
def returned (session : Session) (conn : ℕ) : Session :=
  ((session.onTransportDown.setConnection conn).record (.started .reconnect)).cleanUp

section Rejoin

variable {session : Session}

theorem onTransportDown_eq (running : session.stopped = false) (live : session.state ≠ .disconnected)
    (settled : session.reconnecting = false) : session.onTransportDown =
      session.closeConnection.cancelTimers.disconnect.record .reconnectRequested := by
  rw [onTransportDown, if_neg (by simp [live, running]), if_neg (by simp [settled])]

/-- What is left of the old connection. -/
theorem returned_eq (running : session.stopped = false) (live : session.state ≠ .disconnected)
    (settled : session.reconnecting = false) (conn : ℕ) :
    ∃ closed, session.returned conn =
      { session with
        closed := closed
        logonTimer := session.logonTimer.cancel
        inboundTimer := session.inboundTimer.cancel
        heartbeatTimer := session.heartbeatTimer.cancel
        logoutTimer := session.logoutTimer.cancel
        reconnecting := false
        conn := some conn
        state := .disconnected
        writeInflight := false
        writeQ := []
        recoveryCache := session.recoveryCache.clear.clear
        framer := session.framer.reset.reset
        awaitingTestRequestResponse := false
        testReqId := 0
        trace := session.trace ++ [.reconnectRequested] ++ [.started .reconnect] } := by
  rw [returned, onTransportDown_eq running live settled, closeConnection]
  split
  · exact ⟨session.closed, rfl⟩
  · next old connected => exact ⟨session.closed ++ [old], rfl⟩

theorem role_onTransportDown (session : Session) :
    session.onTransportDown.role = session.role := by
  rw [onTransportDown, closeConnection]
  split
  · rfl
  split
  · rfl
  split <;> rfl

theorem stopped_onTransportDown (session : Session) :
    session.onTransportDown.stopped = session.stopped := by
  rw [onTransportDown, closeConnection]
  split
  · rfl
  split
  · rfl
  split <;> rfl

theorem rejoin_initiator (running : session.stopped = false) (isInitiator : session.role = .initiator)
    (conn : ℕ) : session.rejoin conn =
      ((((session.returned conn).sendLogon false).withState .logonSent).scheduleLogonTimeout
        .logonSent).doRead := by
  simp only [rejoin, start, startAfterReconnect, setConnection, stopped_onTransportDown, running,
    role_onTransportDown, isInitiator, returned, Bool.false_eq_true, if_false]

theorem rejoin_acceptor (running : session.stopped = false) (isAcceptor : session.role = .acceptor)
    (conn : ℕ) : session.rejoin conn =
      (((session.returned conn).withState .awaitingLogon).scheduleLogonTimeout
        .awaitingLogon).doRead := by
  simp only [rejoin, start, startAfterReconnect, setConnection, stopped_onTransportDown, running,
    role_onTransportDown, isAcceptor, returned, Bool.false_eq_true, if_false]

end Rejoin

end Session

namespace Conversation

/-- A session that waits for the exchange of Logons, having said `phrases` and heard `heard`. -/
structure Rejoined (setup : Setup) (role : Role) (phrases : List Phrase) (heard : ℕ)
    (handled : List Bytes) (session : Session) : Prop where
  recalls : Recalls setup role phrases session
  nextIn_eq : session.seqProvider.nextIn = heard + 1
  state_eq : session.state = stateAt role 0
  interval_eq : role = .initiator → session.params.heartBeatInt = setup.interval
  deliveries_eq : deliveries session.trace = handled.map Session.delivered

theorem Recalls.mirrors_other {setup : Setup} {role : Role} {mine theirs : Session}
    {said heard : List Phrase} (recalls : Recalls setup role said mine)
    (others : Recalls setup role.peer heard theirs) (proper : setup.Proper) :
    mine.params.Mirrors theirs.params := by
  have mirrors := recalls.mirrors proper
  rcases SessionParameters.texts_of_unpaced others.params_eq with ⟨-, sender, target, -⟩
  exact ⟨mirrors.sender_eq.trans target.symm, mirrors.target_eq.trans sender.symm⟩

section Rejoined

variable {setup : Setup} {role : Role} {phrases : List Phrase} {written : Bytes} {heard : ℕ}
  {state : SessionState} {handled : List Bytes} {session : Session}

theorem Engaged.returned
    (engaged : Engaged setup role phrases written (heard + 1) state handled session)
    (live : state ≠ .disconnected) (conn : ℕ) :
    Recalls setup role phrases (session.returned conn) ∧
      (session.returned conn).seqProvider = session.seqProvider ∧
      (session.returned conn).params = session.params ∧
      (session.returned conn).conn = some conn ∧
      deliveries (session.returned conn).trace = handled.map Session.delivered := by
  have recalls := engaged.speaks.toRecalls
  rcases Session.returned_eq recalls.running (by rw [engaged.attends.state_eq]; exact live)
    recalls.settled conn with ⟨closed, same⟩
  have sent_eq : sentMessages (session.trace ++ [.reconnectRequested] ++ [.started .reconnect]) =
      sentMessages session.trace := by
    simp [sentMessages]
  have deliveries_eq : deliveries (session.trace ++ [.reconnectRequested] ++ [.started .reconnect]) =
      deliveries session.trace := by
    simp [deliveries]
  rw [same]
  refine ⟨⟨recalls.running, rfl, recalls.role_eq, recalls.id_eq, recalls.params_eq,
    recalls.times_eq, recalls.nextOut_eq, ?_, ?_, ?_⟩, rfl, rfl, rfl,
    deliveries_eq.trans engaged.deliveries_eq⟩
  · rw [sent_eq]
    exact recalls.length_eq
  · rw [sent_eq]
    exact recalls.spoken
  · rw [sent_eq]
    exact recalls.archived

/-- What a side says of its own accord after a reconnect. -/
def greeting (setup : Setup) : Role → List Phrase
  | .initiator => [.logon false setup.interval]
  | .acceptor => []

theorem Engaged.rejoin (proper : setup.Proper)
    (engaged : Engaged setup role phrases written (heard + 1) state handled session)
    (live : state ≠ .disconnected) (room : phrases.length + 1 < 2 ^ 63) (conn : ℕ) :
    Rejoined setup role (phrases ++ greeting setup role) heard handled (session.rejoin conn) := by
  rcases engaged.returned live conn with ⟨recalls, numbers, params_eq, connected, deliveries_eq⟩
  have role_eq := engaged.speaks.role_eq
  have running := engaged.speaks.running
  have rejoinInitiator := fun isInitiator => Session.rejoin_initiator running isInitiator conn
  have rejoinAcceptor := fun isAcceptor => Session.rejoin_acceptor running isAcceptor conn
  obtain ⟨back, backDef⟩ : ∃ back, back = session.returned conn := ⟨_, rfl⟩
  rw [← backDef] at recalls numbers params_eq connected deliveries_eq
  rw [← backDef] at rejoinInitiator rejoinAcceptor
  have nextIn_eq : back.seqProvider.nextIn = heard + 1 := by
    rw [numbers]
    exact engaged.attends.nextIn_eq
  have interval_eq : role = .initiator →
      back.params.heartBeatInt = setup.interval := by
    rw [params_eq]
    exact engaged.attends.interval_eq
  cases role with
  | acceptor =>
      have reading : session.rejoin conn = { (back.withState
          .awaitingLogon).scheduleLogonTimeout .awaitingLogon with
          pendingReads := back.pendingReads ++ [conn] } := by
        rw [rejoinAcceptor role_eq]
        exact Session.doRead_eq recalls.running connected
      rw [reading, greeting, List.append_nil]
      exact ⟨recalls.of_voice rfl, nextIn_eq, rfl, interval_eq, deliveries_eq⟩
  | initiator =>
      have le := proper.interval_le
      have agreed := interval_eq rfl
      have encrypt := (SessionParameters.texts_of_unpaced recalls.params_eq).2.2.2.1
      have small := @Phrase.length_fields_le (setup.params .initiator)
        (.logon false setup.interval) (2 ^ 16) trivial (proper.encrypt_le _)
        (by rintro reset interval ⟨⟩; omega) (by intros; contradiction)
      have fields_eq : (Outgoing.logon false).fields back.params =
          (Phrase.logon false setup.interval).fields (setup.params .initiator) := by
        simp only [Outgoing.fields, Phrase.fields, encrypt, agreed, toInt32_eq (by omega :
          setup.interval < 2 ^ 31)]
      have sent := @Recalls.send _ _ _ (.logon false setup.interval) _ (.logon false) recalls
        (proper.presentable _) rfl rfl fields_eq (recalls.fits proper (by omega)) room
      have keeps := @keeps_send back (.logon false) rfl
      have reading : session.rejoin conn = { ((back.send
          (.logon false)).withState .logonSent).scheduleLogonTimeout .logonSent with
          pendingReads := (back.send (.logon false)).pendingReads ++ [conn] } := by
        rw [rejoinInitiator role_eq]
        exact Session.doRead_eq sent.running (keeps.conn_eq.trans connected)
      rw [reading]
      refine ⟨sent.of_voice rfl, keeps.nextIn_eq.trans nextIn_eq, rfl, ?_,
        keeps.deliveries_eq.trans deliveries_eq⟩
      intro _
      exact (congrArg SessionParameters.heartBeatInt keeps.params_eq).trans agreed

end Rejoined

end Conversation

namespace Network

open Conversation

/-- Sessions answer each other by frames. -/
def sessions : Process Session Bytes where
  receive := Session.processWireMessage
  sent := wires
  sent_receive := by
    intro session wire
    rcases (session.performs_processWireMessage wire).sentMessages_grow with ⟨more, grown⟩
    rw [wires, wires, grown, List.map_append]
    exact List.prefix_append _ _

/-- The initiator and the acceptor, as far as each has read. -/
def between (initiator acceptor : Process.Reader Session) : Role → Process.Reader Session
  | .initiator => initiator
  | .acceptor => acceptor

/-- One side reads the next message that the other has sent since the reconnect. -/
abbrev Exchange : (Role → Process.Reader Session) → (Role → Process.Reader Session) → Prop :=
  Process.Step sessions Role.peer

section Exchange

variable {initiator acceptor : Process.Reader Session} {wire : Bytes}

theorem exchange_initiator (next : (wires acceptor.state)[initiator.heard]? = some wire) :
    Exchange (between initiator acceptor)
      (between ⟨initiator.state.processWireMessage wire, initiator.heard + 1⟩ acceptor) := by
  have step := @Process.Step.mk _ _ _ _ sessions Role.peer
    (between initiator acceptor) .initiator wire next
  have same : Function.update (between initiator acceptor) .initiator
      ⟨initiator.state.processWireMessage wire, initiator.heard + 1⟩ =
      between ⟨initiator.state.processWireMessage wire, initiator.heard + 1⟩ acceptor := by
    funext role
    cases role <;> rfl
  rw [← same]
  exact step

theorem exchange_acceptor (next : (wires initiator.state)[acceptor.heard]? = some wire) :
    Exchange (between initiator acceptor)
      (between initiator ⟨acceptor.state.processWireMessage wire, acceptor.heard + 1⟩) := by
  have step := @Process.Step.mk _ _ _ _ sessions Role.peer
    (between initiator acceptor) .acceptor wire next
  have same : Function.update (between initiator acceptor) .acceptor
      ⟨acceptor.state.processWireMessage wire, acceptor.heard + 1⟩ =
      between initiator ⟨acceptor.state.processWireMessage wire, acceptor.heard + 1⟩ := by
    funext role
    cases role <;> rfl
  rw [← same]
  exact step

end Exchange

/-- Both sides after the reconnect: what was sent before it is not read any more. -/
def rejoined (net : Network) (conn : Role → ℕ) (role : Role) : Process.Reader Session :=
  ⟨(net role).session.rejoin (conn role), (wires (net role.peer).session).length⟩

/-- The session asked for what it misses last of all, and keeps the request of the other for later. -/
structure AwaitsPeer (mine theirs : Session) : Prop where
  running : mine.stopped = false
  recovering : mine.state = .recoveringResend
  missing : mine.recoveryCache.contains mine.seqProvider.nextIn = false
  asked : ∃ earlier request, wires mine = earlier ++ [request] ∧
    (Session.viewOf request).headerCache.msgType = some (ascii "2")
  kept : ∃ number request, mine.recoveryCache.held number = some request ∧
    request ∈ wires theirs ∧ (Session.viewOf request).headerCache.msgType = some (ascii "2")

section Deadlock

variable {setup : Setup} {net : Network}

theorem rejoined_of_run (proper : setup.Proper) {conversation : Conversation}
    (related : Related setup net conversation) (room : net.Room) (conn : Role → ℕ) (role : Role) :
    Rejoined setup role ((conversation role).said ++ greeting setup role)
      (conversation role).heard (net role).processed (net.rejoined conn role).state := by
  have engaged := (related.follows role).converses.engaged
  have said : (sentTypes (net role).session.trace).length < 2 ^ 62 := room role
  rw [sentTypes_eq, List.length_map, engaged.speaks.length_eq] at said
  refine engaged.rejoin proper ?_ (by omega) (conn role)
  cases (conversation role).heard <;> cases role <;> simp [stateAt]

theorem wires_snoc {before after : Session} {type wire : Bytes}
    (sent : sentMessages after.trace = sentMessages before.trace ++ [(type, wire)]) :
    wires after = wires before ++ [wire] := by
  rw [wires, sent, List.map_append]
  rfl

/-- The Logon of the initiator shows the acceptor that it misses messages, its request shows the
initiator the same, and the request of the initiator is not the message the acceptor waits for. -/
theorem deadlocks {left right : Session} {said theirs : List Phrase} {heardLeft heardRight : ℕ}
    {handledLeft handledRight : List Bytes} (proper : setup.Proper)
    (narrow : ∀ role n, ((setup.clock role).times n).length < word16)
    (initiator : Rejoined setup .initiator (said ++ [.logon false setup.interval]) heardLeft
      handledLeft left)
    (acceptor : Rejoined setup .acceptor theirs heardRight handledRight right)
    (few : said.length < 2 ^ 62 ∧ theirs.length < 2 ^ 62)
    (lost : heardLeft < theirs.length ∧ heardRight < said.length)
    (near : theirs.length - heardLeft < RecoveryCache.window ∧
      said.length + 1 - heardRight < RecoveryCache.window) :
    ∃ waitsLeft waitsRight,
      ReflTransGen Exchange (between ⟨left, theirs.length⟩ ⟨right, said.length⟩)
        (between ⟨waitsLeft, theirs.length + 1⟩ ⟨waitsRight, said.length + 2⟩) ∧
      (wires waitsLeft).length = said.length + 2 ∧ (wires waitsRight).length = theirs.length + 1 ∧
      AwaitsPeer waitsLeft waitsRight ∧ AwaitsPeer waitsRight waitsLeft := by
  have writesLeft := initiator.recalls.writes proper (narrow _)
  have writesRight := acceptor.recalls.writes proper (narrow _)
  have lengthLeft : (wires left).length = said.length + 1 := by
    rw [initiator.recalls.length_wires, List.length_append, List.length_singleton]
  have lengthRight : (wires right).length = theirs.length := acceptor.recalls.length_wires
  have nextOutLeft : left.seqProvider.nextOut = said.length + 2 := by
    rw [initiator.recalls.nextOut_eq, List.length_append, List.length_singleton]
  have nextOutRight : right.seqProvider.nextOut = theirs.length + 1 := acceptor.recalls.nextOut_eq
  have notApp : Session.isAppMessageType (ascii "2") = false := by decide
  -- The acceptor reads the Logon.
  rcases initiator.recalls.spoken said.length (.logon false setup.interval) (by simp) with
    ⟨logon, logonSent, spoken⟩
  have logonAt : (wires left)[said.length]? = some logon := by
    rw [wires, List.getElem?_map, logonSent]
    rfl
  have logonRead : ((Phrase.logon false setup.interval).letter (setup.params .initiator)
      (said.length + 1)).ReadBy right logon :=
    spoken.written.readBy (proper.presentable .initiator) (acceptor.recalls.mirrors proper)
      (Phrase.legible_letter trivial spoken.number_lt)
  have logonNotApp : Session.isAppMessageType (ascii "A") = false := by decide
  rcases Session.recovers_processWireMessage writesRight (by rw [acceptor.state_eq]; decide)
    (fun app => absurd app (by rw [Phrase.letter, Phrase.type, logonNotApp]; decide)) logonRead
    (by rw [acceptor.nextIn_eq]; exact Nat.succ_lt_succ lost.2)
    (by rw [acceptor.nextIn_eq]; simp only [Phrase.letter]; omega) with
    ⟨waitsRight, request, requestWritten, requestSent, baseRight⟩
  obtain ⟨asking, askingDef⟩ : ∃ asking, asking = right.processWireMessage logon := ⟨_, rfl⟩
  rw [← askingDef] at waitsRight requestSent baseRight
  have wiresRight := wires_snoc requestSent
  have requestAt : (wires asking)[theirs.length]? = some request := by
    rw [wiresRight, ← lengthRight, List.getElem?_concat_length]
  -- The initiator reads the request of the acceptor.
  rw [nextOutRight] at requestWritten
  have requestRead := @Letter.Written.readBy _ _ _ left requestWritten
    (acceptor.recalls.presentable proper)
    (initiator.recalls.mirrors_other acceptor.recalls proper)
    (Letter.legible_resendRequest _ _ (by omega))
  rcases Session.recovers_processWireMessage writesLeft (by rw [initiator.state_eq]; decide)
    (fun app => absurd app (by rw [Letter.resendRequest, notApp]; decide)) requestRead
    (by rw [initiator.nextIn_eq]; exact Nat.succ_lt_succ lost.1)
    (by rw [initiator.nextIn_eq]; simp only [Letter.resendRequest]; omega) with
    ⟨waitsLeft, reply, replyWritten, replySent, -⟩
  obtain ⟨replying, replyingDef⟩ : ∃ replying, replying = left.processWireMessage request :=
    ⟨_, rfl⟩
  rw [← replyingDef] at waitsLeft replySent
  have wiresLeft := wires_snoc replySent
  have replyAt : (wires replying)[said.length + 1]? = some reply := by
    rw [wiresLeft, ← lengthLeft, List.getElem?_concat_length]
  -- The acceptor keeps the request of the initiator.
  rw [nextOutLeft] at replyWritten
  have replyRead := @Letter.Written.readBy _ _ _ asking replyWritten
    (initiator.recalls.presentable proper)
    (by rw [waitsRight.params_eq]; exact acceptor.recalls.mirrors_other initiator.recalls proper)
    (Letter.legible_resendRequest _ _ (by omega))
  have absent : ∀ n, n ≠ said.length + 1 → asking.recoveryCache.contains n = false := by
    intro n other
    by_contra present
    exact other ((waitsRight.contains_iff n).mp (by simpa using present))
  have expected := waitsRight.nextIn_eq.trans acceptor.nextIn_eq
  have within : asking.recoveryCache.inWindow (said.length + 2) = true :=
    RecoveryCache.inWindow_iff.mpr ⟨by rw [baseRight, acceptor.nextIn_eq]; omega,
      by rw [baseRight, acceptor.nextIn_eq]; omega⟩
  rcases Session.keeps_ahead waitsRight.running waitsRight.recovering waitsRight.valid replyRead
    (by rw [expected]; simp only [Letter.resendRequest]; omega) within
    (absent (said.length + 2) (by omega)) (absent _ (by rw [expected]; omega)) with
    ⟨running, recovering, nextIn_eq, valid, held_eq, sent_eq⟩
  obtain ⟨keeping, keepingDef⟩ : ∃ keeping, keeping = asking.processWireMessage reply := ⟨_, rfl⟩
  rw [← keepingDef] at running recovering nextIn_eq valid held_eq sent_eq
  have wiresKeeping : wires keeping = wires asking := by rw [wires, wires, sent_eq]
  refine ⟨replying, keeping, ?_, by rw [wiresLeft, List.length_append, lengthLeft]; rfl,
    by rw [wiresKeeping, wiresRight, List.length_append, lengthRight]; rfl, ?_, ?_⟩
  · have first := @exchange_acceptor ⟨left, theirs.length⟩ ⟨right, said.length⟩ logon logonAt
    have second := @exchange_initiator ⟨left, theirs.length⟩
      ⟨right.processWireMessage logon, said.length + 1⟩ request (by rw [← askingDef]; exact requestAt)
    have third := @exchange_acceptor ⟨left.processWireMessage request, theirs.length + 1⟩
      ⟨right.processWireMessage logon, said.length + 1⟩ reply (by rw [← replyingDef]; exact replyAt)
    rw [keepingDef, askingDef, replyingDef]
    exact ((ReflTransGen.single first).tail second).tail third
  · refine ⟨waitsLeft.running, waitsLeft.recovering, ?_, ⟨wires left, reply, wiresLeft,
      replyRead.accepts.type_eq⟩, theirs.length + 1, request, ?_, ?_, requestRead.accepts.type_eq⟩
    · by_contra present
      have same := (waitsLeft.contains_iff _).mp (by simpa using present)
      rw [waitsLeft.nextIn_eq, initiator.nextIn_eq] at same
      simp only [Letter.resendRequest] at same
      omega
    · rw [waitsLeft.held_eq]
      exact Function.update_self _ _ _
    · rw [wiresKeeping, wiresRight]
      simp
  · refine ⟨running, recovering, ?_, ⟨wires right, request, wiresKeeping.trans wiresRight,
      requestRead.accepts.type_eq⟩, said.length + 2, reply, ?_, ?_, replyRead.accepts.type_eq⟩
    · rw [nextIn_eq, ← RecoveryCache.held_eq_none_iff, held_eq, expected,
        Function.update_of_ne (by simp only [Letter.resendRequest]; omega),
        RecoveryCache.held_eq_none_iff]
      exact absent _ (by omega)
    · rw [held_eq]
      exact Function.update_self _ _ _
    · rw [wiresLeft]
      simp

/-- When messages on their way to both sides were lost, and no more than the caches can bridge, then
the sessions do not get over the reconnect: in whatever order they read what the other has sent since,
the exchange leads to the one state in which nothing is left to read, and in that state each waits for
the other's answer and keeps the other's request, unanswered. -/
theorem mutual_loss_deadlocks (proper : setup.Proper)
    (narrow : ∀ role n, ((setup.clock role).times n).length < word16)
    (run : ReflTransGen Step setup.network net) (room : net.Room) (conn : Role → ℕ)
    (lost : ∀ role, (net role).session.seqProvider.nextIn <
      (net role.peer).session.seqProvider.nextOut)
    (near : ∀ role, (net role.peer).session.seqProvider.nextOut + 1 -
      (net role).session.seqProvider.nextIn < RecoveryCache.window) :
    ∃ last, sessions.Quiet Role.peer last ∧
      (∀ readers, ReflTransGen Exchange (net.rejoined conn) readers →
        ReflTransGen Exchange readers last) ∧
      ∀ role, AwaitsPeer (last role).state (last role.peer).state := by
  rcases related_run proper run with ⟨conversation, -, related⟩
  have engaged : ∀ role, _ := fun role => (related.follows role).converses.engaged
  have numbers : ∀ role, (net role).session.seqProvider.nextIn = (conversation role).heard + 1 ∧
      (net role).session.seqProvider.nextOut = (conversation role).said.length + 1 :=
    fun role => ⟨(engaged role).attends.nextIn_eq, (engaged role).speaks.nextOut_eq⟩
  have length_eq : ∀ role, (wires (net role).session).length = (conversation role).said.length :=
    fun role => (engaged role).speaks.length_wires
  have few : ∀ role, (conversation role).said.length < 2 ^ 62 := by
    intro role
    have small : (sentTypes (net role).session.trace).length < 2 ^ 62 := room role
    rwa [sentTypes_eq, List.length_map, (engaged role).speaks.length_eq] at small
  have initiator := rejoined_of_run proper related room conn .initiator
  have acceptor := rejoined_of_run proper related room conn .acceptor
  rw [greeting] at initiator
  rw [greeting, List.append_nil] at acceptor
  have lostLeft := lost .initiator
  have lostRight := lost .acceptor
  have nearLeft := near .initiator
  have nearRight := near .acceptor
  rw [(numbers _).1, (numbers _).2] at lostLeft lostRight nearLeft nearRight
  simp only [Role.peer] at lostLeft lostRight nearLeft nearRight
  rcases deadlocks proper narrow initiator acceptor ⟨few .initiator, few .acceptor⟩
    ⟨by omega, by omega⟩ ⟨by omega, by omega⟩ with
    ⟨waitsLeft, waitsRight, reached, lengthLeft, lengthRight, awaitsLeft, awaitsRight⟩
  have start : net.rejoined conn = between
      ⟨(net.rejoined conn .initiator).state, (conversation .acceptor).said.length⟩
      ⟨(net.rejoined conn .acceptor).state, (conversation .initiator).said.length⟩ := by
    funext role
    rw [← length_eq, ← length_eq]
    cases role <;> rfl
  rw [← start] at reached
  have quiet : sessions.Quiet Role.peer (between
      ⟨waitsLeft, (conversation .acceptor).said.length + 1⟩
      ⟨waitsRight, (conversation .initiator).said.length + 2⟩) := by
    intro role
    cases role with
    | initiator => exact lengthRight.le
    | acceptor => exact lengthLeft.le
  refine ⟨_, quiet, fun readers other => quiet.reached reached other, ?_⟩
  intro role
  cases role with
  | initiator => exact awaitsLeft
  | acceptor => exact awaitsRight

end Deadlock

section Example

/-- The application of the initiator has sent a message too, and none of the three has been read. -/
def pairApart : Network :=
  Function.update pairAhead .initiator (pairSays pairLoggedOn (ascii "z"))

theorem run_pairApart : ReflTransGen Step pair.network pairApart := by
  have here : pairAhead .initiator = pairLoggedOn := Function.update_self _ _ _
  have sends : Peer.Step (pairAhead Role.initiator.peer).written (pairAhead .initiator)
      (pairSays pairLoggedOn (ascii "z")) := by
    rw [here]
    exact .app _ (ascii "z") (by decide +kernel) (by decide) (by decide)
      (by rw [Peer.Fits]; decide +kernel)
  refine .tail run_pairAhead (.mk _ .initiator _ ?_ sends)
  rintro (_ | _) <;> decide +kernel

theorem mutual_loss_deadlocks_pair :
    ∃ last, sessions.Quiet Role.peer last ∧
      ReflTransGen Exchange (pairApart.rejoined fun _ => 1) last ∧
      (last .initiator).state.state = .recoveringResend ∧
      (last .acceptor).state.state = .recoveringResend := by
  have narrow : ∀ role n, ((pair.clock role).times n).length < word16 :=
    fun role n => (by decide : (ascii "Now").length < word16)
  have room : pairApart.Room := by
    rintro (_ | _) <;> decide +kernel
  rcases @mutual_loss_deadlocks pair pairApart proper_pair narrow run_pairApart room (fun _ => 1)
    (by rintro (_ | _) <;> decide +kernel) (by rintro (_ | _) <;> decide +kernel) with
    ⟨last, quiet, reached, awaits⟩
  exact ⟨last, quiet, reached _ .refl, (awaits .initiator).recovering, (awaits .acceptor).recovering⟩

end Example

end Network

end FixEngine
