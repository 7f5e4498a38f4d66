import FixEngine.Network.Hearing

/-!
# The network holds the conversation

Every step of the network is matched by steps of the conversation: a read by the phrases whose last
byte it brings, a timer or the application by a remark, a write by none. What holds of the
conversation holds, through `Related`, of the two sessions: their numbers agree, and the handlers of each
are called with the messages of the other, once each and in order.
-/

namespace FixEngine

open Relation (ReflTransGen)

namespace Session

section Plumbing

variable {session : Session} {conn place count found : ℕ} {offered : Bytes}

/-- A write to the connection changes what is queued and what is outstanding. -/
theorem doWrite_eq (connected : session.conn = some conn) :
    ∃ inflight pending, session.doWrite =
      { session with writeInflight := inflight, pendingWrites := pending } := by
  rw [doWrite]
  split
  · exact ⟨false, session.pendingWrites, rfl⟩
  split
  · exact ⟨session.writeInflight, session.pendingWrites, rfl⟩
  split
  · next lost => simp [connected] at lost
  · exact ⟨session.writeInflight, _, rfl⟩

/-- So does its completion. -/
theorem finishWrite_eq (piping : Piping conn session)
    (outstanding : session.pendingWrites[place]? = some (found, offered)) {result : Except IoError ℕ}
    (alive : (∃ count, result = .ok count) ∨ result = .error .transient) :
    ∃ writeQ inflight pending, session.finishWrite place result =
      { session with writeQ := writeQ, writeInflight := inflight, pendingWrites := pending } := by
  rcases piping.front outstanding with ⟨-, write, rest, queued, -⟩
  have connected : (session.withoutWrite place).conn = some conn := piping.connected
  have running : (session.withoutWrite place).stopped = false := piping.running
  rcases alive with ⟨count, rfl⟩ | rfl
  · rw [finishWrite, onWrite_ok piping.running queued]
    split
    · rcases @doWrite_eq { session.withoutWrite place with writeQ := rest } conn connected with
        ⟨inflight, pending, same⟩
      exact ⟨rest, inflight, pending, same⟩
    · rcases @doWrite_eq { session.withoutWrite place with
        writeQ := { write with sent := write.sent + count } :: rest } conn connected with
        ⟨inflight, pending, same⟩
      exact ⟨_, inflight, pending, same⟩
  · rcases doWrite_eq connected with ⟨inflight, pending, same⟩
    refine ⟨session.writeQ, inflight, pending, ?_⟩
    rw [finishWrite, onWrite, if_neg (by simp [running])]
    exact same

/-- A read is started on the connection. -/
theorem doRead_eq (running : session.stopped = false) (connected : session.conn = some conn) :
    session.doRead = { session with pendingReads := session.pendingReads ++ [conn] } := by
  rw [doRead, if_neg (by simp [running])]
  split
  · next lost => simp [connected] at lost
  · next other same =>
      rw [connected] at same
      cases same
      rfl

end Plumbing

end Session

theorem Timer.expire_idle {α : Type} {timer : Timer α} (idle : timer.waiting = none) :
    timer.expire = timer := by
  rw [Timer.expire, idle]

namespace Conversation

section Quiet

variable {setup : Setup} {role : Role} {next : ℕ} {state : SessionState} {phrases : List Phrase}
  {phrase : Phrase} {written more : Bytes} {handled : List Bytes} {session after : Session}

/-- The queue may change as long as no byte is lost. -/
theorem Engaged.requeue (engaged : Engaged setup role phrases written next state handled session)
    {writeQ : List PendingWrite} {inflight : Bool} {pending : List (ℕ × Bytes)}
    (same : after = { session with
      writeQ := writeQ, writeInflight := inflight, pendingWrites := pending })
    (piping : Session.Piping (setup.conn role) after)
    (kept : more ++ after.waiting = session.waiting) :
    Engaged setup role phrases (written ++ more) next state handled after := by
  subst same
  have speaks := engaged.speaks
  refine ⟨⟨⟨speaks.running, speaks.settled, speaks.role_eq, speaks.id_eq, speaks.params_eq,
    speaks.times_eq, speaks.nextOut_eq, speaks.length_eq, speaks.spoken, speaks.archived⟩, piping, ?_⟩,
    ⟨engaged.attends.nextIn_eq, engaged.attends.state_eq, engaged.attends.interval_eq,
    engaged.attends.testReqId_lt, engaged.attends.idle, engaged.attends.noLogout⟩,
    engaged.deliveries_eq⟩
  rw [List.append_assoc, kept]
  exact speaks.bytes_eq

theorem Engaged.withFramer (engaged : Engaged setup role phrases written next state handled session)
    (framer : Framer) :
    Engaged setup role phrases written next state handled (session.withFramer framer) :=
  ⟨engaged.speaks.of_voice rfl, ⟨engaged.attends.nextIn_eq, engaged.attends.state_eq,
    engaged.attends.interval_eq, engaged.attends.testReqId_lt, engaged.attends.idle,
    engaged.attends.noLogout⟩, engaged.deliveries_eq⟩

theorem Engaged.withReads (engaged : Engaged setup role phrases written next state handled session)
    (reads : List ℕ) :
    Engaged setup role phrases written next state handled { session with pendingReads := reads } :=
  ⟨engaged.speaks.of_voice rfl, ⟨engaged.attends.nextIn_eq, engaged.attends.state_eq,
    engaged.attends.interval_eq, engaged.attends.testReqId_lt, engaged.attends.idle,
    engaged.attends.noLogout⟩, engaged.deliveries_eq⟩

theorem Engaged.doRead (engaged : Engaged setup role phrases written next state handled session) :
    Engaged setup role phrases written next state handled session.doRead := by
  rw [Session.doRead_eq engaged.speaks.piping.running engaged.speaks.piping.connected]
  exact engaged.withReads _

/-- Time passes for the session. -/
theorem Engaged.expire (engaged : Engaged setup role phrases written next state handled session)
    (timer : Session.TimerName) :
    Engaged setup role phrases written next state handled (session.expire timer) := by
  have attends := engaged.attends
  refine ⟨engaged.speaks.of_voice (session.voice_expire timer), ?_, by
    cases timer <;> exact engaged.deliveries_eq⟩
  cases timer with
  | logon =>
      exact ⟨attends.nextIn_eq, attends.state_eq, attends.interval_eq, attends.testReqId_lt,
        attends.idle, attends.noLogout⟩
  | inbound =>
      refine ⟨attends.nextIn_eq, attends.state_eq, attends.interval_eq, attends.testReqId_lt, ?_,
        attends.noLogout⟩
      intro off
      have idle := attends.idle off
      simp only [Session.expire, Timer.expire_idle idle.2.2.2]
      exact idle
  | heartbeat =>
      refine ⟨attends.nextIn_eq, attends.state_eq, attends.interval_eq, attends.testReqId_lt, ?_,
        attends.noLogout⟩
      intro off
      have idle := attends.idle off
      simp only [Session.expire, Timer.expire_idle idle.2.1]
      exact idle
  | logout =>
      refine ⟨attends.nextIn_eq, attends.state_eq, attends.interval_eq, attends.testReqId_lt,
        attends.idle, ?_⟩
      simp only [Session.expire, Timer.expire_idle attends.noLogout.2]
      exact attends.noLogout

/-- A session that is logged on may wait for anything but a Logout. -/
theorem Engaged.withTimers (engaged : Engaged setup role phrases written next .active handled session)
    (heartbeat inbound : Timer Unit) :
    Engaged setup role phrases written next .active handled
      { session with heartbeatTimer := heartbeat, inboundTimer := inbound } := by
  have attends := engaged.attends
  refine ⟨engaged.speaks.of_voice rfl, ⟨attends.nextIn_eq, attends.state_eq, attends.interval_eq,
    attends.testReqId_lt, fun off => ?_, attends.noLogout⟩, engaged.deliveries_eq⟩
  have on : session.state = .active := attends.state_eq
  simp [Session.established, on] at off

end Quiet

/-- The peer is the speaker, and the framer has passed on what it has processed. -/
structure Follows (setup : Setup) (role : Role) (speaker : Speaker) (peer : Peer) : Prop where
  converses : Converses setup role speaker peer.processed peer.written peer.session
  tracks : ∃ discarded, peer.session.framer.Tracks peer.received peer.processed discarded

/-- The wires of what a session has sent. -/
def wires (session : Session) : List Bytes := (sentMessages session.trace).map Prod.snd

section Reading

variable {setup : Setup} {role : Role} {speaker other : Speaker} {conversation : Conversation}
  {phrase : Phrase} {written theirs received stream wire : Bytes} {processed incoming : List Bytes}
  {session : Session}

/-- One wire for each phrase. -/
theorem Recalls.wires_getElem {phrases : List Phrase}
    (recalls : Recalls setup role phrases session) {i : ℕ}
    (found : (wires session)[i]? = some wire) : ∃ phrase, phrases[i]? = some phrase ∧
      Spoken setup role (i + 1) phrase wire := by
  have inside : i < phrases.length := by
    rw [← recalls.length_eq, ← List.length_map Prod.snd]
    exact (List.getElem?_eq_some_iff.mp found).1
  rcases recalls.spoken i _ (List.getElem?_eq_getElem inside) with ⟨same, sent, spoken⟩
  rw [wires, List.getElem?_map, sent] at found
  cases found
  exact ⟨_, List.getElem?_eq_getElem inside, spoken⟩

theorem Recalls.length_wires {phrases : List Phrase}
    (recalls : Recalls setup role phrases session) :
    (wires session).length = phrases.length := by
  rw [wires, List.length_map, recalls.length_eq]

theorem Recalls.framed {phrases : List Phrase}
    (recalls : Recalls setup role phrases session) :
    ∀ wire ∈ wires session, Framed wire := by
  intro wire mem
  rcases List.getElem?_of_mem mem with ⟨i, found⟩
  rcases recalls.wires_getElem found with ⟨phrase, -, spoken⟩
  exact spoken.framed

/-- What has arrived has some of the wires of the other side, from the first on. -/
theorem Speaks.frames_arrived {phrases : List Phrase}
    (speaks : Speaks setup role phrases written session) (arrived : received <+: written) :
    Reference.frames received <+: wires session := by
  rcases arrived with ⟨rest, rfl⟩
  have whole : received ++ (rest ++ session.waiting) = (wires session).flatten := by
    rw [← List.append_assoc]
    exact speaks.bytes_eq
  exact frames_of_arrived speaks.framed whole

theorem length_reply_le (speaker : Speaker) (role : Role) (phrase : Phrase) :
    (speaker.reply role phrase).length ≤ 1 := by
  cases phrase with
  | logon reset interval =>
      rw [Speaker.reply]
      split <;> simp
  | heartbeat testReqId => simp [Speaker.reply]
  | testRequest testReqId => simp [Speaker.reply]
  | custom payload =>
      rw [Speaker.reply]
      split <;> simp

/-- The wire at the front of the framer is that of the next phrase. -/
theorem next_phrase (speaks : Speaks setup role.peer other.said theirs session)
    {framer : Framer} {discarded : ℕ} (tracks : framer.Tracks stream processed discarded)
    (available : framer.hasMessage = true)
    (arrived : Reference.frames stream <+: wires session) :
    ∃ phrase, other.said[processed.length]? = some phrase ∧
      Spoken setup role.peer (processed.length + 1) phrase framer.getMessage := by
  have next := tracks.consume available
  have consumed := List.IsPrefix.trans next.queued_prefix arrived
  have found : (wires session)[processed.length]? = some framer.getMessage := by
    rcases consumed with ⟨rest, same⟩
    rw [← same, List.append_assoc, List.append_assoc,
      List.getElem?_append_right (Nat.le_refl _), Nat.sub_self]
    rfl
  exact speaks.wires_getElem found

/-- The first message the framer has is heard. -/
theorem Converses.hear_next (proper : setup.Proper)
    (sound : Sound setup.reset setup.interval conversation)
    (converses : Converses setup role (conversation role) processed written session)
    (next : (conversation role.peer).said[(conversation role).heard]? = some phrase)
    (spoken : Spoken setup role.peer ((conversation role).heard + 1) phrase wire)
    (room : (conversation role).said.length + 1 < 2 ^ 63) :
    Converses setup role ((conversation role).hear role phrase) (processed ++ [wire]) written
      (session.processWireMessage wire) := by
  have incoming := sound.orderly role.peer
  rw [Role.peer_peer] at incoming
  rcases incoming.next next with ⟨plain, first, later⟩
  refine converses.hear proper spoken plain first later ?_ room
  rintro rfl none
  by_contra spokenYet
  have some := sound.answered.mp spokenYet
  omega

/-- The loop after a read: the messages that are complete are heard, one after the other. -/
theorem Converses.processMessages (proper : setup.Proper) {peerSession : Session}
    (speaks : Speaks setup role.peer other.said theirs peerSession)
    (arrived : Reference.frames stream <+: wires peerSession)
    {rounds discarded : ℕ} (sound : Sound setup.reset setup.interval conversation)
    (converses : Converses setup role (conversation role) processed written session)
    (same : conversation role.peer = other)
    (tracks : session.framer.Tracks stream processed discarded)
    (rounds_eq : rounds = session.framer.completed.size)
    (room : (conversation role).said.length + other.said.length <
      2 ^ 63 - 1 + (conversation role).heard) :
    ∃ later, ReflTransGen Step conversation later ∧ later role.peer = other ∧
      Converses setup role (later role) (processed ++ session.passedFrames rounds) written
        (session.processMessages rounds) ∧
      ∃ discarded, (session.processMessages rounds).framer.Tracks stream
        (processed ++ session.passedFrames rounds) discarded := by
  induction rounds generalizing conversation session processed discarded with
  | zero =>
      have none : session.framer.hasMessage = false := by
        simp [Framer.hasMessage, ← rounds_eq]
      refine ⟨conversation, .refl, same, ?_⟩
      simp only [Session.passedFrames, Session.processMessages, none, Bool.false_eq_true, if_false,
        List.append_nil]
      exact ⟨converses, discarded, tracks⟩
  | succ rounds ih =>
      have available : session.framer.hasMessage = true := by
        simp [Framer.hasMessage, ← rounds_eq]
      rcases next_phrase speaks tracks available arrived with ⟨phrase, next, spoken⟩
      rw [converses.processed_eq] at next spoken
      have inside := (List.getElem?_eq_some_iff.mp next).1
      rw [← same] at next
      have heard := converses.hear_next proper sound next spoken (by omega)
      have step := Step.hear conversation role phrase next
      obtain ⟨after, afterDef⟩ : ∃ after, after = Function.update conversation role
        ((conversation role).hear role phrase) := ⟨_, rfl⟩
      rw [← afterDef] at step
      have mine : after role = (conversation role).hear role phrase := by
        rw [afterDef, Function.update_self]
      have theirsSame : after role.peer = other := by
        rw [afterDef, Function.update_of_ne role.peer_ne, same]
      obtain ⟨consumed, consumedDef⟩ : ∃ consumed, consumed =
        (session.processWireMessage session.framer.getMessage).withFramer
          (session.processWireMessage session.framer.getMessage).framer.consumeMessage := ⟨_, rfl⟩
      have framer_eq : consumed.framer = session.framer.consumeMessage := by
        rw [consumedDef, Session.withFramer, Session.framer_processWireMessage]
      have converses' : Converses setup role (after role)
          (processed ++ [session.framer.getMessage]) written consumed := by
        rw [mine, consumedDef]
        exact ⟨heard.engaged.withFramer _, heard.processed_eq, heard.response_eq⟩
      have tracks' : consumed.framer.Tracks stream (processed ++ [session.framer.getMessage])
          session.framer.completed.front.last := by
        rw [framer_eq]
        exact tracks.consume available
      have size_eq : rounds = consumed.framer.completed.size := by
        rw [framer_eq]
        simp only [Framer.consumeMessage, Ring.popFront]
        omega
      have grown : (after role).said.length ≤ (conversation role).said.length + 1 ∧
          (after role).heard = (conversation role).heard + 1 := by
        rw [mine]
        have reply := length_reply_le (conversation role) role phrase
        refine ⟨?_, rfl⟩
        simp only [Speaker.hear, Speaker.say, List.length_append]
        omega
      rcases ih (sound.step step) converses' theirsSame tracks' size_eq (by omega) with
        ⟨later, steps, laterSame, laterConverses, laterTracks⟩
      refine ⟨later, .head step steps, laterSame, ?_⟩
      simp only [Session.passedFrames, Session.processMessages, available, if_true, ← consumedDef]
      rw [List.append_assoc, List.singleton_append] at laterConverses
      rw [List.append_assoc, List.singleton_append] at laterTracks
      exact ⟨laterConverses, laterTracks⟩

end Reading

section Steps

variable {setup : Setup} {role : Role} {speaker other : Speaker} {conversation : Conversation}
  {phrase : Phrase} {incoming data : Bytes} {peer after : Peer} {session peerSession : Session}

theorem Follows.withSession (follows : Follows setup role speaker peer)
    (engaged : Engaged setup role speaker.said peer.written (speaker.heard + 1)
      (stateAt role speaker.heard) peer.processed session)
    (framer_eq : session.framer = peer.session.framer) :
    Follows setup role speaker (peer.withSession session) := by
  refine ⟨⟨engaged, follows.converses.processed_eq, follows.converses.response_eq⟩, ?_⟩
  rw [Peer.withSession, framer_eq]
  exact follows.tracks

/-- Only a session that has heard the Logon is established, and then it is active. -/
theorem Converses.loggedOn {processed : List Bytes} {written : Bytes}
    (converses : Converses setup role speaker processed written session)
    (established : session.established = true) :
    0 < speaker.heard ∧ stateAt role speaker.heard = .active := by
  have state_eq := converses.engaged.attends.state_eq
  cases heard : speaker.heard with
  | zero =>
      rw [heard] at state_eq
      cases role <;> simp [Session.established, state_eq, stateAt] at established
  | succ heard => exact ⟨Nat.succ_pos _, by cases role <;> rfl⟩

/-- A session that is logged on says something of its own accord. -/
theorem Follows.remark (follows : Follows setup role (conversation role) peer)
    (established : peer.session.established = true) (plain : phrase.Plain)
    (spontaneous : phrase.Spontaneous)
    (engaged : Engaged setup role ((conversation role).said ++ [phrase]) peer.written
      ((conversation role).heard + 1) .active peer.processed session)
    (framer_eq : session.framer = peer.session.framer) :
    ∃ later, ReflTransGen Step conversation later ∧ later role.peer = conversation role.peer ∧
      Follows setup role (later role) (peer.withSession session) := by
  rcases follows.converses.loggedOn established with ⟨loggedOn, active⟩
  refine ⟨_, .single (.remark conversation role phrase loggedOn plain spontaneous),
    Function.update_of_ne role.peer_ne _ _, ?_⟩
  rw [Function.update_self]
  refine ⟨⟨?_, follows.converses.processed_eq, follows.converses.response_eq⟩, ?_⟩
  · simp only [Speaker.say, active]
    exact engaged
  · rw [Peer.withSession, framer_eq]
    exact follows.tracks

theorem Follows.heartbeat (proper : setup.Proper)
    (follows : Follows setup role (conversation role) peer) {place : ℕ}
    (expired : peer.session.heartbeatTimer.expired[place]? = some ())
    (room : (conversation role).said.length < 2 ^ 62) :
    ∃ later, ReflTransGen Step conversation later ∧ later role.peer = conversation role.peer ∧
      Follows setup role (later role) (peer.withSession (peer.session.fireHeartbeat place)) := by
  have engaged := follows.converses.engaged
  have established : peer.session.established = true := by
    by_contra off
    rw [(engaged.attends.idle (by simpa using off)).1] at expired
    simp at expired
  rcases follows.converses.loggedOn established with ⟨-, active⟩
  rw [active] at engaged
  have taken := engaged.withTimers (peer.session.heartbeatTimer.take place)
    peer.session.inboundTimer
  have short : (Phrase.heartbeat []).Plain := by
    refine ⟨?_, ?_⟩ <;> simp
  have small := @Phrase.length_fields_le (setup.params role) (.heartbeat []) (2 ^ 16) short
    (proper.encrypt_le role) (by intros; contradiction) (by intros; contradiction)
  have sent := @Engaged.send _ _ _ _ _ (.heartbeat []) _ _ _ (.heartbeat []) taken
    (proper.presentable role) rfl rfl rfl (taken.speaks.fits proper (by omega)) (by omega)
  have fired : peer.session.fireHeartbeat place = (({ peer.session with
      heartbeatTimer := peer.session.heartbeatTimer.take place }).send
        (.heartbeat [])).scheduleHeartbeat := by
    rw [Session.fireHeartbeat, Session.onHeartbeatTimer,
      if_neg (by simp [engaged.speaks.piping.running])]
    rfl
  rw [fired]
  refine follows.remark established short rfl (sent.withTimers _ _) ?_
  exact (keeps_send rfl).framer_eq

theorem Follows.inbound (proper : setup.Proper)
    (follows : Follows setup role (conversation role) peer) {place : ℕ}
    (expired : peer.session.inboundTimer.expired[place]? = some ())
    (answered : peer.session.awaitingTestRequestResponse = false)
    (room : (conversation role).said.length < 2 ^ 62) :
    ∃ later, ReflTransGen Step conversation later ∧ later role.peer = conversation role.peer ∧
      Follows setup role (later role) (peer.withSession (peer.session.fireInbound place)) := by
  have engaged := follows.converses.engaged
  have established : peer.session.established = true := by
    by_contra off
    rw [(engaged.attends.idle (by simpa using off)).2.2.1] at expired
    simp at expired
  rcases follows.converses.loggedOn established with ⟨-, active⟩
  rw [active] at engaged
  obtain ⟨text, textDef⟩ : ∃ text, text = Session.testRequestText peer.session.testReqId :=
    ⟨_, rfl⟩
  have plain : (Phrase.testRequest text).Plain := by
    have fixed : soh ∉ ascii "TESTREQ_" ∧ (ascii "TESTREQ_").length = 8 := by decide
    have width : (decimal peer.session.testReqId).length ≤ 20 := by
      have lt := engaged.attends.testReqId_lt
      exact length_decimal_le (by decide) (by simp only [word64] at lt; omega)
    rw [textDef]
    refine ⟨Session.testRequestText_ne_nil _, ?_, ?_⟩
    · simp only [Session.testRequestText, List.mem_append, not_or]
      exact ⟨fixed.1, soh_not_mem_decimal _⟩
    · simp only [Session.testRequestText, List.length_append, fixed.2]
      omega
  obtain ⟨expecting, expectingDef⟩ : ∃ expecting, expecting = ({ peer.session with
    inboundTimer := peer.session.inboundTimer.take place }).expectResponse := ⟨_, rfl⟩
  have taken := engaged.withTimers peer.session.heartbeatTimer
    (peer.session.inboundTimer.take place)
  have ready : Engaged setup role (conversation role).said peer.written
      ((conversation role).heard + 1) .active peer.processed expecting := by
    rw [expectingDef]
    exact ⟨taken.speaks.of_voice rfl, ⟨taken.attends.nextIn_eq, taken.attends.state_eq,
      taken.attends.interval_eq, Nat.mod_lt _ (by decide), taken.attends.idle,
      taken.attends.noLogout⟩, taken.deliveries_eq⟩
  have small := @Phrase.length_fields_le (setup.params role) (.testRequest text) (2 ^ 16) plain
    (proper.encrypt_le role) (by intros; contradiction) (by intros; contradiction)
  have sent := @Engaged.send _ _ _ _ _ (.testRequest text) _ _ _ (.testRequest text) ready
    (proper.presentable role) rfl rfl rfl (ready.speaks.fits proper (by omega)) (by omega)
  have fired : peer.session.fireInbound place =
      (expecting.send (.testRequest text)).scheduleTestRequestTimeout := by
    rw [Session.fireInbound, Session.onInboundTimer,
      if_neg (by simp [engaged.speaks.piping.running]), if_neg (by simp [answered]), expectingDef,
      textDef]
    rfl
  rw [fired]
  refine follows.remark established plain trivial (sent.withTimers _ _) ?_
  rw [Session.scheduleTestRequestTimeout]
  refine (keeps_send rfl).framer_eq.trans ?_
  rw [expectingDef]
  rfl

theorem Follows.app (proper : setup.Proper)
    (follows : Follows setup role (conversation role) peer) {payload : Bytes}
    (isActive : peer.session.state = .active) (nonempty : payload ≠ []) (noDelimiter : soh ∉ payload)
    (fits : Peer.Fits peer.session payload) (room : (conversation role).said.length < 2 ^ 62) :
    ∃ later, ReflTransGen Step conversation later ∧ later role.peer = conversation role.peer ∧
      Follows setup role (later role) (peer.withSession
        (peer.session.sendFromApp (Peer.customMessage payload) MessageFactory.customType)) := by
  have engaged := follows.converses.engaged
  have established : peer.session.established = true := by simp [Session.established, isActive]
  rcases follows.converses.loggedOn established with ⟨-, active⟩
  rw [active] at engaged
  have type_eq : (Outgoing.app (Peer.customMessage payload) MessageFactory.customType).type =
      (Phrase.custom payload).type := (by decide :
        MessageFactory.customType.take 8 = MessageFactory.customType)
  have plain : (Phrase.custom payload).Plain := ⟨nonempty, noDelimiter⟩
  have sent := @Engaged.send _ _ _ _ _ (.custom payload) _ _ _
    (.app (Peer.customMessage payload) MessageFactory.customType) engaged (proper.presentable role)
    rfl type_eq rfl fits (by omega)
  have sends : peer.session.sendFromApp (Peer.customMessage payload) MessageFactory.customType =
      peer.session.send (.app (Peer.customMessage payload) MessageFactory.customType) := by
    rw [Session.sendFromApp, if_neg (by simp [engaged.speaks.piping.running])]
    rfl
  rw [sends]
  exact follows.remark established plain trivial sent (keeps_send rfl).framer_eq

/-- A read brings some of the bytes that the other side has written. -/
theorem Follows.read (proper : setup.Proper)
    (sound : Sound setup.reset setup.interval conversation)
    (follows : Follows setup role (conversation role) peer)
    (speaks : Speaks setup role.peer (conversation role.peer).said incoming peerSession)
    (arrived : peer.received ++ data <+: incoming)
    (room : (conversation role).said.length < 2 ^ 62)
    (theirs_lt : (conversation role.peer).said.length < 2 ^ 62) :
    ∃ later, ReflTransGen Step conversation later ∧ later role.peer = conversation role.peer ∧
      Follows setup role (later role) (peer.read data) ∧
      (peer.read data).received = peer.received ++ data := by
  have running := follows.converses.engaged.speaks.piping.running
  rcases follows.tracks with ⟨discarded, tracks⟩
  rcases tracks.append data with ⟨kept, appended, -⟩
  obtain ⟨session, sessionDef⟩ : ∃ session, session =
    peer.session.withFramer (peer.session.framer.append data) := ⟨_, rfl⟩
  have converses : Converses setup role (conversation role) peer.processed peer.written session := by
    rw [sessionDef]
    exact ⟨follows.converses.engaged.withFramer _, follows.converses.processed_eq,
      follows.converses.response_eq⟩
  have tracks' : session.framer.Tracks (peer.received ++ data) peer.processed kept := by
    rw [sessionDef]
    exact appended
  have heard := converses.processMessages proper speaks (speaks.frames_arrived arrived)
    sound rfl tracks' rfl (by omega)
  rcases heard with ⟨later, steps, same, laterConverses, elsewhere, laterTracks⟩
  refine ⟨later, steps, same, ?_, ?_⟩
  · have reading : (peer.read data).toReading =
        { session := (session.processMessages session.framer.completed.size).doRead
          received := peer.received ++ data
          processed := peer.processed ++ session.passedFrames session.framer.completed.size } := by
      simp only [Peer.read, Reading.read, running, Bool.false_eq_true, if_false, Session.onRead,
        ← sessionDef]
    have session_eq := congrArg Reading.session reading
    have received_eq := congrArg Reading.received reading
    have processed_eq := congrArg Reading.processed reading
    refine ⟨⟨?_, ?_, laterConverses.response_eq⟩, elsewhere, ?_⟩
    · rw [session_eq, processed_eq]
      exact laterConverses.engaged.doRead
    · rw [processed_eq]
      exact laterConverses.processed_eq
    · rw [session_eq, received_eq, processed_eq, Session.framer_doRead]
      exact laterTracks
  · exact Reading.received_read running

/-- What can happen at one end is matched by the conversation. -/
theorem Follows.step (proper : setup.Proper)
    (sound : Sound setup.reset setup.interval conversation)
    (follows : Follows setup role (conversation role) peer)
    (speaks : Speaks setup role.peer (conversation role.peer).said incoming peerSession)
    (arrived : peer.received <+: incoming) (room : (conversation role).said.length < 2 ^ 62)
    (theirs_lt : (conversation role.peer).said.length < 2 ^ 62)
    (step : Peer.Step incoming peer after) :
    ∃ later, ReflTransGen Step conversation later ∧ later role.peer = conversation role.peer ∧
      Follows setup role (later role) after ∧ after.received <+: incoming ∧
      peer.written <+: after.written := by
  have engaged := follows.converses.engaged
  have running := engaged.speaks.piping.running
  have quiet : ∀ {session : Session}, Engaged setup role (conversation role).said peer.written
      ((conversation role).heard + 1) (stateAt role (conversation role).heard) peer.processed
        session → session.framer = peer.session.framer →
      ∃ later, ReflTransGen Step conversation later ∧ later role.peer = conversation role.peer ∧
        Follows setup role (later role) (peer.withSession session) ∧ peer.received <+: incoming ∧
        peer.written <+: peer.written := by
    intro session engaged framer_eq
    exact ⟨conversation, .refl, rfl, follows.withSession engaged framer_eq, arrived,
      List.prefix_refl _⟩
  have said : (∃ later, ReflTransGen Step conversation later ∧
      later role.peer = conversation role.peer ∧ Follows setup role (later role) after) →
      after.received = peer.received → after.written = peer.written →
      ∃ later, ReflTransGen Step conversation later ∧ later role.peer = conversation role.peer ∧
        Follows setup role (later role) after ∧ after.received <+: incoming ∧
        peer.written <+: after.written := by
    rintro ⟨later, steps, same, laterFollows⟩ received_eq written_eq
    rw [received_eq, written_eq]
    exact ⟨later, steps, same, laterFollows, arrived, List.prefix_refl _⟩
  cases step with
  | write place found count offered outstanding fits =>
      have accepted := Session.piping_accept engaged.speaks.piping outstanding fits
      rcases Session.finishWrite_eq engaged.speaks.piping outstanding (.inl ⟨count, rfl⟩) with
        ⟨writeQ, inflight, pending, same⟩
      refine ⟨conversation, .refl, rfl, ⟨⟨engaged.requeue same accepted.1 accepted.2,
        follows.converses.processed_eq, follows.converses.response_eq⟩, ?_⟩, arrived,
        List.prefix_append _ _⟩
      rw [Peer.withSession, same]
      exact follows.tracks
  | rewrite place found offered outstanding =>
      have failed := Session.piping_fail engaged.speaks.piping outstanding
      rcases Session.finishWrite_eq engaged.speaks.piping outstanding (.inr rfl) with
        ⟨writeQ, inflight, pending, same⟩
      have requeued := @Engaged.requeue _ _ _ _ _ _ [] _ _ _ engaged _ _ _ same failed.1 failed.2
      rw [List.append_nil] at requeued
      exact quiet requeued (by rw [same])
  | read place found data outstanding more =>
      have started : Follows setup role (conversation role)
          (peer.withSession (peer.session.withoutRead place)) :=
        follows.withSession (engaged.withReads _) rfl
      rcases started.read proper sound speaks more room theirs_lt with
        ⟨later, steps, same, laterFollows, received_eq⟩
      have written_eq : ((peer.withSession (peer.session.withoutRead place)).read data).written =
          peer.written := rfl
      refine ⟨later, steps, same, laterFollows, ?_, by rw [written_eq]⟩
      rw [received_eq]
      exact more
  | reread place found outstanding =>
      have started := engaged.withReads (peer.session.pendingReads.eraseIdx place)
      have again : (peer.session.withoutRead place).onRead (.error .transient) =
          (peer.session.withoutRead place).doRead := by
        rw [Session.onRead, if_neg (by simp [Session.withoutRead, running])]
      rw [again]
      exact quiet started.doRead (Session.framer_doRead _)
  | expire timer => exact quiet (engaged.expire timer) (by cases timer <;> rfl)
  | heartbeat place expired => exact said (follows.heartbeat proper expired room) rfl rfl
  | inbound place expired answered =>
      exact said (follows.inbound proper expired answered room) rfl rfl
  | logon place expectedState expired inTime =>
      have fired : peer.session.fireLogon place expectedState =
          { peer.session with logonTimer := peer.session.logonTimer.take place } := by
        rw [Session.fireLogon, Session.onLogonTimer, if_neg (by simp [running]), if_neg inTime]
      rw [fired]
      exact quiet ⟨engaged.speaks.of_voice rfl, ⟨engaged.attends.nextIn_eq,
        engaged.attends.state_eq, engaged.attends.interval_eq, engaged.attends.testReqId_lt,
        engaged.attends.idle, engaged.attends.noLogout⟩, engaged.deliveries_eq⟩ rfl
  | logout place expired =>
      rw [engaged.attends.noLogout.1] at expired
      simp at expired
  | app payload active nonempty noDelimiter fits =>
      exact said (follows.app proper active nonempty noDelimiter fits room) rfl rfl

end Steps

end Conversation

/-- A side that has just been started on its connection. -/
def Setup.started (setup : Setup) (role : Role) : Session :=
  ((Session.new (setup.id role) role (setup.params role) (setup.clock role)).setConnection
    (setup.conn role)).startNormal

/-- Both sides have been started. -/
def Setup.network (setup : Setup) : Network := fun role => { session := setup.started role }

/-- The conversation begins with the Logon of the initiator. -/
def Setup.conversation (setup : Setup) : Conversation :=
  Conversation.opening setup.reset setup.interval setup.response

namespace Conversation

section Opening

variable {setup : Setup} {role : Role} {next : ℕ} {state : SessionState} {phrases : List Phrase}
  {written : Bytes} {handled : List Bytes} {session : Session}

/-- A new session on its connection. -/
theorem engaged_new (setup : Setup) (role : Role) :
    Engaged setup role [] [] 1 .disconnected []
      ((Session.new (setup.id role) role (setup.params role) (setup.clock role)).setConnection
        (setup.conn role)) := by
  refine ⟨⟨⟨rfl, rfl, rfl, rfl, rfl, rfl, rfl, rfl, (by intros; contradiction),
    fun _ => MessageStore.archived_new⟩, ⟨rfl, rfl, rfl, ?_⟩, rfl⟩, ⟨rfl, rfl, ?_, ?_, ?_, ?_⟩, rfl⟩
  · simp [Session.new, Session.setConnection]
  · rintro rfl
    rfl
  · exact (by decide : 0 < word64)
  · exact fun _ => ⟨rfl, rfl, rfl, rfl⟩
  · exact ⟨rfl, rfl⟩

/-- It may wait for a Logon in a state in which it is not logged on. -/
theorem Engaged.await (engaged : Engaged setup role phrases written next state handled session)
    (off : session.established = false) (later : SessionState) :
    Engaged setup role phrases written next later handled
      ((session.withState later).scheduleLogonTimeout later) :=
  ⟨engaged.speaks.of_voice rfl, ⟨engaged.attends.nextIn_eq, rfl, engaged.attends.interval_eq,
    engaged.attends.testReqId_lt, fun _ => engaged.attends.idle off, engaged.attends.noLogout⟩,
    engaged.deliveries_eq⟩

theorem Engaged.started (engaged : Engaged setup role phrases written next state handled session)
    (mode : StartMode) :
    Engaged setup role phrases written next state handled (session.record (.started mode)) := by
  refine ⟨engaged.speaks.of_voice (session.voice_record rfl), ⟨engaged.attends.nextIn_eq,
    engaged.attends.state_eq, engaged.attends.interval_eq, engaged.attends.testReqId_lt,
    engaged.attends.idle, engaged.attends.noLogout⟩, ?_⟩
  have same : deliveries (session.record (.started mode)).trace = deliveries session.trace := by
    simp [Session.record, deliveries]
  rw [same]
  exact engaged.deliveries_eq

theorem Engaged.established_eq
    (engaged : Engaged setup role phrases written next .disconnected handled session) :
    session.established = false := by
  simp [Session.established, engaged.attends.state_eq]

/-- The acceptor waits for the Logon, the initiator has sent it. -/
theorem engaged_started (proper : setup.Proper) (role : Role) :
    Engaged setup role (setup.conversation role).said [] 1 (stateAt role 0) []
      (setup.started role) ∧ (setup.started role).framer = .new := by
  have reading := ((engaged_new setup role).started .normal).doRead
  obtain ⟨session, sessionDef⟩ : ∃ session, session =
    (((Session.new (setup.id role) role (setup.params role) (setup.clock role)).setConnection
      (setup.conn role)).record (.started .normal)).doRead := ⟨_, rfl⟩
  rw [← sessionDef] at reading
  cases role with
  | acceptor =>
      have started : setup.started .acceptor =
          (session.withState .awaitingLogon).scheduleLogonTimeout .awaitingLogon := by
        rw [sessionDef]
        have isAcceptor := reading.speaks.role_eq
        rw [sessionDef] at isAcceptor
        simp only [Setup.started, Session.startNormal, Session.setConnection]
        rfl
      rw [started]
      exact ⟨reading.await reading.established_eq .awaitingLogon, by rw [sessionDef]; rfl⟩
  | initiator =>
      obtain ⟨numbered, numberedDef⟩ : ∃ numbered, numbered =
        (if session.params.initiatorResetOnLogon then
          session.resetSequence session.seqProvider.reset else session) := ⟨_, rfl⟩
      have numbering : Engaged setup .initiator [] [] 1 .disconnected [] numbered ∧
          numbered.params = session.params := by
        rw [numberedDef]
        split
        · refine ⟨⟨reading.speaks.of_voice ?_, ⟨rfl, reading.attends.state_eq,
            reading.attends.interval_eq, reading.attends.testReqId_lt, reading.attends.idle,
            reading.attends.noLogout⟩, ?_⟩, rfl⟩
          · have numbers : (session.withSeqProvider session.seqProvider.reset).voice =
                session.voice := by
              simp [Session.voice, Session.withSeqProvider, SeqProvider.reset,
                reading.speaks.nextOut_eq]
            exact (Session.voice_record _ rfl).trans numbers
          · have same : deliveries (session.resetSequence session.seqProvider.reset).trace =
                deliveries session.trace := by
              simp [Session.resetSequence, Session.withSeqProvider, Session.record, deliveries]
            rw [same]
            exact reading.deliveries_eq
        · exact ⟨reading, rfl⟩
      have reset_eq : numbered.params.initiatorResetOnLogon = setup.reset :=
        (SessionParameters.texts_of_unpaced numbering.1.speaks.params_eq).2.2.2.2.1
      have encrypt := (SessionParameters.texts_of_unpaced numbering.1.speaks.params_eq).2.2.2.1
      have interval_eq := numbering.1.attends.interval_eq rfl
      have le := proper.interval_le
      have small := @Phrase.length_fields_le (setup.params .initiator)
        (.logon setup.reset setup.interval) (2 ^ 16) trivial (proper.encrypt_le _)
        (by rintro reset interval ⟨⟩; omega) (by intros; contradiction)
      have fields_eq : (Outgoing.logon setup.reset).fields numbered.params =
          (Phrase.logon setup.reset setup.interval).fields (setup.params .initiator) := by
        simp only [Outgoing.fields, Phrase.fields, encrypt, interval_eq, toInt32_eq (by omega :
          setup.interval < 2 ^ 31)]
      have sent := numbering.1.send (proper.presentable _) rfl rfl fields_eq
        (numbering.1.speaks.fits proper (by omega)) (by simp)
      have started : setup.started .initiator =
          ((numbered.send (.logon setup.reset)).withState .logonSent).scheduleLogonTimeout
            .logonSent := by
        rw [← reset_eq, numberedDef, sessionDef]
        rfl
      have framer_eq : numbered.framer = .new := by
        rw [numberedDef, sessionDef]
        split <;> rfl
      rw [started]
      exact ⟨sent.await sent.established_eq .logonSent, (keeps_send rfl).framer_eq.trans framer_eq⟩

end Opening

/-- The network is in the conversation: its ends are the speakers, and no byte was made up. -/
structure Related (setup : Setup) (net : Network) (conversation : Conversation) : Prop where
  sound : Sound setup.reset setup.interval conversation
  follows : ∀ role, Follows setup role (conversation role) (net role)
  arrived : ∀ role, (net role).received <+: (net role.peer).written

section Related

variable {setup : Setup} {net : Network} {conversation : Conversation} {role : Role}

theorem related_network (proper : setup.Proper) :
    Related setup setup.network setup.conversation := by
  refine ⟨sound_opening setup.response fun role => ?_, fun role => ?_, fun role =>
    List.prefix_refl []⟩
  · exact ⟨(proper.response_plain role).1, (proper.response_plain role).2.1⟩
  · rcases engaged_started proper role with ⟨engaged, framer_eq⟩
    have tracks : ∃ discarded, (setup.started role).framer.Tracks [] [] discarded := by
      rw [framer_eq]
      exact ⟨0, Framer.tracks_new⟩
    cases role <;> exact ⟨⟨engaged, rfl, rfl⟩, tracks⟩

/-- Every step of the network is matched by steps of the conversation. -/
theorem simulates (proper : setup.Proper) :
    Simulation.Simulates Network.Step Step (Related setup) := by
  intro net next conversation related step
  cases step with
  | mk role after room step =>
      have said_lt : ∀ side, (conversation side).said.length < 2 ^ 62 := by
        intro side
        have sent := room side
        rw [sentTypes_eq, List.length_map,
          (related.follows side).converses.engaged.speaks.length_eq] at sent
        exact sent
      rcases (related.follows role).step proper related.sound
        (related.follows role.peer).converses.engaged.speaks (related.arrived role) (said_lt role)
        (said_lt role.peer) step with ⟨later, steps, same, follows, arrived, grown⟩
      have cases : ∀ side : Role, side = role ∨ side = role.peer := by
        intro side
        cases side <;> cases role <;> simp [Role.peer]
      refine ⟨later, steps, Simulation.invariant related.sound Sound.step steps, ?_, ?_⟩
      · intro side
        rcases cases side with rfl | rfl
        · rw [Function.update_self]
          exact follows
        · rw [Function.update_of_ne role.peer_ne, same]
          exact related.follows role.peer
      · intro side
        rcases cases side with rfl | rfl
        · rw [Function.update_self, Function.update_of_ne (Role.peer_ne _)]
          exact arrived
        · rw [Role.peer_peer, Function.update_self, Function.update_of_ne role.peer_ne]
          have before := related.arrived role.peer
          rw [Role.peer_peer] at before
          exact before.trans grown

/-- Every run of the network is a run of the conversation. -/
theorem related_run (proper : setup.Proper) (run : ReflTransGen Network.Step setup.network net) :
    ∃ conversation, ReflTransGen Step setup.conversation conversation ∧
      Related setup net conversation :=
  Simulation.Simulates.run (simulates proper) (related_network proper) run

end Related

section Agreement

variable {setup : Setup} {net : Network} {conversation : Conversation} {role : Role}

theorem Related.sentTypes_mem (related : Related setup net conversation) {type : Bytes}
    (mem : type ∈ sentTypes (net role).session.trace) :
    type ∈ [ascii "A", ascii "0", ascii "1", MessageFactory.customType] := by
  have speaks := (related.follows role).converses.engaged.speaks
  rw [sentTypes_eq] at mem
  rcases List.mem_map.mp mem with ⟨⟨found, wire⟩, inSent, rfl⟩
  rcases List.getElem?_of_mem inSent with ⟨i, at_i⟩
  have inside : i < (conversation role).said.length := by
    rw [← speaks.length_eq]
    exact (List.getElem?_eq_some_iff.mp at_i).1
  rcases speaks.spoken i _ (List.getElem?_eq_getElem inside) with ⟨same, sent, -⟩
  rw [at_i] at sent
  cases sent
  cases (conversation role).said[i] <;> simp [Phrase.type]

/-- Each message has the number of its place. -/
theorem Related.numberOf_wire (proper : setup.Proper) (related : Related setup net conversation)
    {i : ℕ} {wire : Bytes} (found : (wires (net role).session)[i]? = some wire) :
    Session.numberOf wire = i + 1 := by
  have speaks := (related.follows role).converses.engaged.speaks
  rcases speaks.wires_getElem found with ⟨phrase, said, spoken⟩
  have plain := (related.sound.orderly role).plain phrase (List.mem_of_getElem? said)
  have mirrors := (related.follows role.peer).converses.engaged.speaks.mirrors proper
  rw [Role.peer_peer] at mirrors
  exact (spoken.written.readBy (proper.presentable role) mirrors
    (Phrase.legible_letter plain spoken.number_lt)).number_eq

/-- The messages that were processed are the first that the other side sent. -/
theorem Related.processed_eq (related : Related setup net conversation) :
    (net role).processed =
      (wires (net role.peer).session).take ((net role).session.seqProvider.nextIn - 1) := by
  have follows := related.follows role
  rcases follows.tracks with ⟨discarded, tracks⟩
  have arrived := (related.follows role.peer).converses.engaged.speaks.frames_arrived
    (related.arrived role)
  have consumed := ((List.prefix_append _ _).trans tracks.queued_prefix).trans arrived
  rw [follows.converses.engaged.attends.nextIn_eq, Nat.add_sub_cancel,
    ← follows.converses.processed_eq]
  exact List.prefix_iff_eq_take.mp consumed

end Agreement

end Conversation

end FixEngine
