import FixEngine.Network.Delivery
import FixEngine.Network.Recovering

/-!
# Recovering what was lost

A session that gets a message ahead of the one it expects asks the other for those in between, and
when it has handled the answer its application has got every payload once and in order, those before the
gap, those that were lost and the one that came early.
-/

namespace FixEngine

open Relation (ReflTransGen)

namespace Session

/-- A receiver that misses messages asks for exactly those. The sender answers from its store, which
stays as it is, like its number; and once the receiver has processed the answer it is active, expects
the number after the message that showed the gap, has nothing cached, and its application has got what
it was owed, each payload once and in order. -/
theorem gap_recovered {sender receiver : Session} {history : History} {letter : Letter} {wire : Bytes}
    (sends : sender.Writes) (archives : sender.Archives history)
    (nextOut_eq : sender.seqProvider.nextOut = history.length + 1) (asks : receiver.Writes)
    (numbered : receiver.seqProvider.nextOut < 2 ^ 63)
    (mirrors : receiver.params.Mirrors sender.params) (active : receiver.state = .active)
    (positive : 1 ≤ receiver.seqProvider.nextIn) (legible : letter.Legible)
    (plain : isPlainType letter.type = true) (written : letter.Written sender.params wire)
    (ahead : receiver.seqProvider.nextIn < letter.number) (sent_before : letter.number ≤ history.length)
    (entry : history[letter.number - 1]? = some letter.payload)
    (near : letter.number - receiver.seqProvider.nextIn < RecoveryCache.window) :
    let first := receiver.seqProvider.nextIn
    let waiting := receiver.processWireMessage wire
    ∃ request, sentMessages waiting.trace = sentMessages receiver.trace ++ [(ascii "2", request)] ∧
      (Letter.resendRequest receiver.seqProvider.nextOut first (letter.number - 1)).Written
        receiver.params request ∧
      let answering := sender.handleResendRequest (viewOf request)
      answering.store = sender.store ∧
        answering.seqProvider.nextOut = sender.seqProvider.nextOut ∧
        ∃ answer, sentMessages answering.trace = sentMessages sender.trace ++ answer ∧
          let after := (answer.map Prod.snd).foldl processWireMessage waiting
          after.stopped = false ∧ after.state = .active ∧
            after.seqProvider.nextIn = letter.number + 1 ∧ after.recoveryCache.empty = true ∧
            (deliveries after.trace).filterMap applied =
              (deliveries receiver.trace).filterMap applied ++
                history.owedBetween first (letter.number + 1) := by
  intro first waiting
  have few := archives.few
  simp only [word32] at few
  have settled : receiver.state ≠ .recoveringResend := by simp [active]
  have readBy : letter.ReadBy receiver wire := written.readBy sends.presentable mirrors legible
  rcases recovers_processWireMessage asks settled
    (fun _ => established_of_state (.inl active)) readBy ahead near with
    ⟨recovers, request, writtenRequest, sentEq, -⟩
  refine ⟨request, sentEq, writtenRequest, ?_⟩
  -- The sender reads the request it got.
  have asked := @Letter.Written.readBy _ _ _ sender writtenRequest asks.presentable mirrors.symm
    (Letter.legible_resendRequest _ _ numbered)
  have firstText : (viewOf request).message.firstValue? 7 = some (toChars (toInt64 first)) :=
    (asked.field_eq 7 (by decide) (by decide)).trans
      (by simp [Letter.resendRequest, Message.firstValue?, first])
  have lastText : (viewOf request).message.firstValue? 16 =
      some (toChars (toInt64 (letter.number - 1 : ℕ))) :=
    (asked.field_eq 16 (by decide) (by decide)).trans
      (by simp [Letter.resendRequest, Message.firstValue?])
  rcases handleResendRequest_answers sends archives nextOut_eq firstText lastText positive
    (by omega) (by omega) with ⟨repeats, answer, answerEq, answers⟩
  refine ⟨repeats.store_eq, repeats.nextOut_eq, answer, answerEq, ?_⟩
  obtain ⟨last, lastDef⟩ : ∃ last, letter.number = last + 1 := ⟨letter.number - 1, by omega⟩
  rw [lastDef, Nat.add_sub_cancel] at answers
  rw [lastDef] at recovers
  rcases recovers.answers answers sends.presentable mirrors legible written lastDef plain (by omega)
    (by omega) with ⟨more, recovered, same⟩
  rw [lastDef]
  refine ⟨recovered.running, recovered.active, recovered.nextIn_eq, recovered.cacheEmpty, ?_⟩
  have owes : (applied (delivered wire)).toList = history.owedBetween (last + 1) (last + 2) := by
    rw [lastDef] at entry
    rw [History.owedBetween_single, History.owed, entry, applied_delivered readBy, lastDef]
    cases letter.payload <;> rfl
  rw [recovered.deliveries_eq, List.filterMap_append, List.filterMap_append, List.nil_append, same,
    History.owedBetween_append (by omega : first ≤ last + 1) (Nat.le_succ (last + 1)), ← owes]
  rcases owed : applied (delivered wire) with _ | pair <;> simp [owed]

end Session

/-- The payload that a phrase has for the application. -/
def Phrase.payload : Phrase → Option Bytes
  | custom payload => some payload
  | _ => none

theorem Phrase.payload_letter (params : SessionParameters) (number : ℕ) (phrase : Phrase) :
    (phrase.letter params number).payload = phrase.payload := by
  cases phrase with
  | logon reset interval => rfl
  | heartbeat testReqId =>
      have other : ascii "0" ≠ MessageFactory.customType := by decide
      simp [Letter.payload, letter, type, payload, other]
  | testRequest testReqId => rfl
  | custom body => rfl

theorem Phrase.plain_type {phrase : Phrase} (notLogon : phrase.isLogon = false) :
    Session.isPlainType phrase.type = true := by
  cases phrase with
  | logon => cases notLogon
  | _ => rfl

theorem Letter.Legible.plainFields {letter : Letter} (legible : letter.Legible) :
    PlainFields letter.fields := by
  rcases legible.fitting with ⟨schema, -, fitting⟩
  have apart := (List.nodup_append.mp fitting.complete.1).2.2
  have others : ∀ field ∈ letter.fields, ∀ tag ∈ BuilderCall.frontTags, field.tag ≠ tag :=
    fun field mem tag front => (apart tag front field.tag
      (List.mem_append_left _ (List.mem_map_of_mem mem))).symm
  exact ⟨fun field mem => (fitting.writable field mem).1.soh_not_mem,
    fun field mem => others field mem 34 (by decide),
    fun field mem => others field mem 35 (by decide)⟩

namespace Conversation

variable {setup : Setup} {role : Role} {phrases : List Phrase} {written : Bytes} {session : Session}

theorem Recalls.presentable (recalls : Recalls setup role phrases session)
    (proper : setup.Proper) : session.params.Presentable := by
  have presentable := proper.presentable role
  rcases SessionParameters.texts_of_unpaced recalls.params_eq with ⟨version, sender, target, -⟩
  refine ⟨version.trans presentable.version, ⟨?_, ?_, ?_⟩, ?_, ?_⟩
  · rw [version]
    exact presentable.plain.version
  · rw [sender]
    exact presentable.plain.sender
  · rw [target]
    exact presentable.plain.target
  · rw [sender]
    exact presentable.sender_ne_nil
  · rw [target]
    exact presentable.target_ne_nil

/-- A session that speaks can write an answer. -/
theorem Recalls.writes (recalls : Recalls setup role phrases session) (proper : setup.Proper)
    (narrow : ∀ n, ((setup.clock role).times n).length < word16) : session.Writes := by
  rcases SessionParameters.texts_of_unpaced recalls.params_eq with ⟨-, sender, target, -⟩
  refine ⟨recalls.running, recalls.presentable proper, ?_, ?_, ?_⟩
  · rw [sender]
    exact Nat.lt_of_le_of_lt (proper.sender_le role) (by decide)
  · rw [target]
    exact Nat.lt_of_le_of_lt (proper.target_le role) (by decide)
  · rw [recalls.times_eq]
    exact narrow

/-- Its store has what it has said. -/
theorem Recalls.archives (recalls : Recalls setup role phrases session)
    (proper : setup.Proper) (plain : ∀ phrase ∈ phrases, phrase.Plain)
    (small : (wires session).flatten.length < MessageStore.maxStored) :
    session.Archives (phrases.map Phrase.payload) := by
  have archived := recalls.archived small
  have nonempty : ∀ wire ∈ wires session, wire ≠ [] := by
    intro wire mem
    rcases List.getElem?_of_mem mem with ⟨i, found⟩
    rcases recalls.wires_getElem found with ⟨phrase, -, ⟨-, ⟨n, wireEq⟩, -⟩⟩
    rw [wireEq]
    simp [wireOf, frontOf, fieldText]
  have count := MessageStore.length_le_flatten nonempty
  rw [recalls.length_wires] at count
  have length_eq : session.store.outboundIndex.length = phrases.length := by
    rw [archived.index_eq, MessageStore.length_entries]
    exact recalls.length_wires
  -- The entry under a number, the wire it is made from, and the phrase.
  have entry : ∀ i index, session.store.outboundIndex[i]? = some index →
      ∃ phrase wire off, phrases[i]? = some phrase ∧ phrase.Plain ∧ wire ∈ wires session ∧
        Spoken setup role (i + 1) phrase wire ∧ index = createMessageIndex wire off ∧
        session.store.getMessageWire index = wire := by
    intro i index found
    have inside : i < (wires session).length := by
      rw [recalls.length_wires, ← length_eq]
      exact (List.getElem?_eq_some_iff.mp found).1
    have atWire := List.getElem?_eq_getElem inside
    rcases recalls.wires_getElem atWire with ⟨phrase, atPhrase, spoken⟩
    have split : wires session = (wires session).take i ++ (wires session)[i] ::
        (wires session).drop (i + 1) := by simp
    have got := archived.getMessage small split
    have length_take : ((wires session).take i).length = i := by
      rw [List.length_take]
      omega
    rw [length_take] at got
    have index_eq := got.1
    rw [MessageStore.getMessageIndex, if_neg (Nat.succ_ne_zero i), Nat.add_sub_cancel, found] at index_eq
    cases index_eq
    exact ⟨phrase, _, _, atPhrase, plain phrase (List.mem_of_getElem? atPhrase),
      List.getElem_mem inside, spoken, rfl, got.2⟩
  have typed : ∀ {i phrase wire}, Spoken setup role (i + 1) phrase wire → phrase.Plain →
      i < phrases.length → ∀ off, (createMessageIndex wire off).msgType = phrase.type.take 2 := by
    intro i phrase wire spoken plain inside off
    rcases spoken.dated with ⟨n, wireEq⟩
    have legible := @Phrase.legible_letter (setup.params role) phrase (i + 1) plain spoken.number_lt
    rcases legible.fitting with ⟨schema, registered, -⟩
    have presentable := proper.presentable role
    have stamped := index_stamped presentable.plain (Letter.type_plain registered).2
      ((setup.clock role).soh_not_mem_times n) legible.plainFields
      (by simp only [MessageStore.maxStored, word32] at small ⊢; omega : i + 1 < word32) off
    rw [presentable.version] at stamped
    rw [wireEq]
    exact stamped.2
  refine ⟨by rw [length_eq, List.length_map], ?_, ?_, ?_⟩
  · rw [List.length_map]
    simp only [MessageStore.maxStored, wires, word32] at small count ⊢
    omega
  · intro i index found admin
    rcases entry i index found with ⟨phrase, wire, off, atPhrase, plain, mem, spoken, indexEq, -⟩
    rw [List.getElem?_map, atPhrase, Option.map_some, Option.some.injEq] at admin
    rw [indexEq, typed spoken plain (List.getElem?_eq_some_iff.mp atPhrase).1]
    cases phrase with
    | custom payload => cases admin
    | _ => rfl
  · intro i index payload found custom
    rcases entry i index found with ⟨phrase, wire, off, atPhrase, plain, mem, spoken, indexEq, read⟩
    rw [List.getElem?_map, atPhrase, Option.map_some, Option.some.injEq] at custom
    have type_eq := typed spoken plain (List.getElem?_eq_some_iff.mp atPhrase).1 off
    cases phrase with
    | custom payload' =>
        cases custom
        rcases spoken.dated with ⟨n, wireEq⟩
        rcases SessionParameters.texts_of_unpaced recalls.params_eq with ⟨-, sender, target, -⟩
        have within : payload.length ≤ (wires session).flatten.length := by
          have inFlatten := (List.sublist_flatten_of_mem mem).length_le
          have inWire : payload.length ≤ wire.length := by
            rw [wireEq]
            simp only [wireOf, frontOf, Letter.body, Phrase.letter, Phrase.fields, fieldsText_append,
              fieldsText_cons, List.length_append, length_fieldText]
            omega
          omega
        refine ⟨plain.1, plain.2, ?_, ?_, (setup.clock role).times n, off, wire,
          (setup.clock role).times_ne_nil n, (setup.clock role).soh_not_mem_times n, ?_, ?_, indexEq,
          read⟩
        · simp only [MessageStore.maxStored] at small
          omega
        · rw [indexEq, type_eq]
          rfl
        · rw [Clock.nowFix, recalls.times_eq]
          exact (setup.clock role).length_times _ _
        · rw [wireEq]
          simp only [Letter.body, Phrase.letter, Letter.custom, MessageFactory.headerFields, sender,
            target]
          rfl
    | _ => cases custom

end Conversation

namespace Network

open Conversation

variable {setup : Setup} {net : Network} {role : Role}

/-- What the application of one side gets out of the first wires of the other is what their phrases
have for it. -/
theorem applied_wires (proper : setup.Proper) {conversation : Conversation}
    (related : Related setup net conversation) (role : Role) {count : ℕ}
    (le : count ≤ (wires (net role.peer).session).length) :
    ((wires (net role.peer).session).take count).filterMap
        (fun wire => applied (Session.delivered wire)) =
      History.owedBetween ((conversation role.peer).said.map Phrase.payload) 1 (count + 1) := by
  have theirs := (related.follows role.peer).converses.engaged.speaks
  have mirrors := (related.follows role).converses.engaged.speaks.mirrors proper
  rw [History.owedBetween, Nat.add_sub_cancel]
  refine filterMap_eq_of_getElem? (by simp [le]) fun i wire number atWire atNumber => ?_
  have inside : i < count := by
    have := (List.getElem?_eq_some_iff.mp atNumber).1
    rwa [List.length_range'] at this
  rw [List.getElem?_take, if_pos inside] at atWire
  rw [List.getElem?_range' inside, Option.some.injEq] at atNumber
  rcases theirs.wires_getElem atWire with ⟨phrase, atPhrase, spoken⟩
  have plain := (related.sound.orderly role.peer).plain phrase (List.mem_of_getElem? atPhrase)
  have readBy := @Letter.Written.readBy _ _ _ (net role).session spoken.written
    (proper.presentable role.peer) mirrors (Phrase.legible_letter plain spoken.number_lt)
  have place : number - 1 = i := by omega
  have number_eq : i + 1 = number := by omega
  rw [Session.applied_delivered readBy, Phrase.payload_letter, History.owed, place,
    List.getElem?_map, atPhrase, Option.map_some]
  have same : (phrase.letter (setup.params role.peer) (i + 1)).number = number := number_eq
  rw [same]
  cases phrase.payload <;> rfl

/-- In whatever state two sessions have reached: if messages that are on their way to one side were
lost, and a later one arrives, the side asks for exactly those in between; the other answers; and
then the application of the side has got the payloads of all messages up to that one, as if none had
been lost. -/
theorem lost_messages_recovered (proper : setup.Proper)
    (narrow : ∀ role n, ((setup.clock role).times n).length < word16)
    (run : ReflTransGen Step setup.network net) (room : net.Room) (role : Role) {number : ℕ}
    {wire : Bytes}
    (small : (wires (net role.peer).session).flatten.length < MessageStore.maxStored)
    (loggedOn : 1 < (net role).session.seqProvider.nextIn)
    (sent : (wires (net role.peer).session)[number - 1]? = some wire)
    (ahead : (net role).session.seqProvider.nextIn < number)
    (near : number - (net role).session.seqProvider.nextIn < RecoveryCache.window) :
    let receiver := (net role).session
    let sender := (net role.peer).session
    let waiting := receiver.processWireMessage wire
    ∃ request, sentMessages waiting.trace = sentMessages receiver.trace ++ [(ascii "2", request)] ∧
      (Letter.resendRequest receiver.seqProvider.nextOut receiver.seqProvider.nextIn
        (number - 1)).Written receiver.params request ∧
      let answering := sender.handleResendRequest (Session.viewOf request)
      ∃ answer, sentMessages answering.trace = sentMessages sender.trace ++ answer ∧
        let after := (answer.map Prod.snd).foldl Session.processWireMessage waiting
        after.stopped = false ∧ after.state = .active ∧
          after.seqProvider.nextIn = number + 1 ∧ after.recoveryCache.empty = true ∧
          (deliveries after.trace).filterMap applied =
            ((wires sender).take number).filterMap fun wire => applied (Session.delivered wire) := by
  intro receiver sender waiting
  rcases related_run proper run with ⟨conversation, -, related⟩
  have engaged := (related.follows role).converses.engaged
  have theirs := (related.follows role.peer).converses.engaged.speaks
  have plain := (related.sound.orderly role.peer).plain
  have presentable := proper.presentable role.peer
  rcases SessionParameters.texts_of_unpaced theirs.params_eq with ⟨-, senderText, targetText, -⟩
  have mirrors : receiver.params.Mirrors sender.params := by
    have mirrors := engaged.speaks.mirrors proper
    exact ⟨mirrors.sender_eq.trans targetText.symm, mirrors.target_eq.trans senderText.symm⟩
  rcases theirs.wires_getElem sent with ⟨phrase, atPhrase, spoken⟩
  have number_eq : number - 1 + 1 = number := by omega
  have le : number ≤ (wires (net role.peer).session).length := by
    have := (List.getElem?_eq_some_iff.mp sent).1
    omega
  rw [number_eq] at spoken
  have phrasePlain := plain phrase (List.mem_of_getElem? atPhrase)
  have notLogon : phrase.isLogon = false := by
    refine (related.sound.orderly role.peer).later (number - 2) phrase ?_
    rw [show number - 2 + 1 = number - 1 by omega]
    exact atPhrase
  have active : receiver.state = .active := by
    have next := engaged.attends.nextIn_eq
    rw [engaged.attends.state_eq]
    cases heard : (conversation role).heard with
    | zero => omega
    | succ heard => cases role <;> rfl
  obtain ⟨letter, letterDef⟩ : ∃ letter, letter = phrase.letter (setup.params role.peer) number :=
    ⟨_, rfl⟩
  have letterNumber : letter.number = number := by rw [letterDef]; rfl
  have written : letter.Written sender.params wire := by
    rcases spoken.written with ⟨time, time_ne_nil, noTime, wireEq⟩
    refine ⟨time, time_ne_nil, noTime, ?_⟩
    rw [wireEq, ← letterDef]
    simp only [Letter.body, MessageFactory.headerFields, sender, senderText, targetText]
  have legible : letter.Legible := by
    rw [letterDef]
    exact Phrase.legible_letter phrasePlain spoken.number_lt
  have plainType : Session.isPlainType letter.type = true := by
    rw [letterDef]
    exact Phrase.plain_type notLogon
  have numbered : receiver.seqProvider.nextOut < 2 ^ 63 := by
    have said : (sentTypes receiver.trace).length < 2 ^ 62 := room role
    rw [sentTypes_eq, List.length_map, engaged.speaks.length_eq] at said
    rw [engaged.speaks.nextOut_eq]
    omega
  have nextOut_eq : sender.seqProvider.nextOut =
      ((conversation role.peer).said.map Phrase.payload).length + 1 := by
    rw [List.length_map]
    exact theirs.nextOut_eq
  have entry : ((conversation role.peer).said.map Phrase.payload)[letter.number - 1]? =
      some letter.payload := by
    rw [letterNumber, List.getElem?_map, atPhrase, letterDef, Phrase.payload_letter]
    rfl
  have sentBefore : letter.number ≤ ((conversation role.peer).said.map Phrase.payload).length := by
    rw [letterNumber, List.length_map, ← theirs.length_wires]
    exact le
  rw [← letterNumber] at ahead near
  rcases Session.gap_recovered (theirs.writes proper (narrow role.peer))
    (theirs.archives proper plain small) nextOut_eq (engaged.speaks.writes proper (narrow role))
    numbered mirrors active loggedOn.le legible plainType written ahead sentBefore entry near with
    ⟨request, asked, range, -, -, answer, answered, running, state, next, empty, same⟩
  rw [letterNumber] at range next same
  refine ⟨request, asked, range, answer, answered, running, state, next, empty, ?_⟩
  have handled : (deliveries receiver.trace).filterMap applied =
      ((wires sender).take (receiver.seqProvider.nextIn - 1)).filterMap
        fun wire => applied (Session.delivered wire) := by
    rw [engaged.deliveries_eq, related.processed_eq, List.filterMap_map]
    rfl
  have positive : receiver.seqProvider.nextIn - 1 + 1 = receiver.seqProvider.nextIn :=
    Nat.sub_add_cancel loggedOn.le
  rw [letterNumber] at ahead
  have before := @applied_wires setup net proper conversation related role
    (receiver.seqProvider.nextIn - 1) (Nat.le_trans (Nat.sub_le _ _) (ahead.le.trans le))
  rw [positive] at before
  rw [same, handled, before, applied_wires proper related role le]
  exact (History.owedBetween_append loggedOn.le (ahead.le.trans (Nat.le_succ number))).symm

section Example

/-- The Logon of the acceptor. -/
def pairReply : Bytes := (wires (pairAnswered .acceptor).session).flatten

/-- It has been written. -/
def pairReplied : Peer :=
  { (pairAnswered .acceptor).withSession
      ((pairAnswered .acceptor).session.finishWrite 0 (.ok pairReply.length)) with
    written := (pairAnswered .acceptor).written ++ pairReply.take pairReply.length }

/-- The application of the acceptor sends a message. -/
def pairSays (peer : Peer) (payload : Bytes) : Peer :=
  peer.withSession
    (peer.session.sendFromApp (Peer.customMessage payload) MessageFactory.customType)

/-- The initiator has read the Logon. -/
def pairLoggedOn : Peer :=
  ((pairAnswered .initiator).withSession
    ((pairAnswered .initiator).session.withoutRead 0)).read pairReply

/-- The acceptor has sent two messages that the initiator has not read. -/
def pairAhead : Network :=
  Function.update (Function.update (Function.update (Function.update pairAnswered .acceptor
    pairReplied) .acceptor (pairSays pairReplied (ascii "x"))) .acceptor
      (pairSays (pairSays pairReplied (ascii "x")) (ascii "y"))) .initiator pairLoggedOn

theorem run_pairAhead : ReflTransGen Step pair.network pairAhead := by
  have room : ∀ net : Network, (∀ role, (sentTypes (net role).session.trace).length ≤ 3) →
      net.Room := fun net small role => Nat.lt_of_le_of_lt (small role) (by decide)
  have wrote : Peer.Step (pairAnswered .initiator).written (pairAnswered .acceptor) pairReplied :=
    .write _ 0 0 pairReply.length pairReply (by decide +kernel) (Nat.le_refl _)
  have first : Peer.Step (pairAnswered .initiator).written pairReplied
      (pairSays pairReplied (ascii "x")) :=
    .app _ (ascii "x") (by decide +kernel) (by decide) (by decide) (by rw [Peer.Fits]; decide +kernel)
  have second : Peer.Step (pairAnswered .initiator).written (pairSays pairReplied (ascii "x"))
      (pairSays (pairSays pairReplied (ascii "x")) (ascii "y")) :=
    .app _ (ascii "y") (by decide +kernel) (by decide) (by decide) (by rw [Peer.Fits]; decide +kernel)
  have read : Peer.Step pairReplied.written (pairAnswered .initiator) pairLoggedOn :=
    .read _ 0 0 pairReply (by decide +kernel) (by decide +kernel)
  have other : Role.initiator ≠ .acceptor := by decide
  rw [pairAhead]
  refine .tail (.tail (.tail (.tail run_pairAnswered (.mk _ .acceptor _ (room _ ?_) wrote))
    (.mk _ .acceptor _ (room _ ?_) ?_)) (.mk _ .acceptor _ (room _ ?_) ?_))
    (.mk _ .initiator _ (room _ ?_) ?_)
  · rintro (_ | _) <;> decide +kernel
  · rintro (_ | _) <;> decide +kernel
  · simp only [Role.peer, Function.update_self, Function.update_of_ne other]
    exact first
  · rintro (_ | _) <;> decide +kernel
  · simp only [Role.peer, Function.update_self, Function.update_of_ne other]
    exact second
  · rintro (_ | _) <;> decide +kernel
  · simp only [Role.peer, Function.update_self, Function.update_of_ne other]
    exact read

/-- The first message of the application is lost. -/
theorem lost_messages_recovered_pair :
    ∃ wire request answer, (wires (pairAhead Role.initiator.peer).session)[2]? = some wire ∧
      (Letter.resendRequest 2 2 2).Written (pairAhead .initiator).session.params request ∧
      let after := (List.map Prod.snd answer).foldl Session.processWireMessage
        ((pairAhead .initiator).session.processWireMessage wire)
      sentMessages ((pairAhead Role.initiator.peer).session.handleResendRequest
          (Session.viewOf request)).trace =
        sentMessages (pairAhead Role.initiator.peer).session.trace ++ answer ∧
      (deliveries after.trace).filterMap applied = [(2, ascii "x"), (3, ascii "y")] := by
  rcases found : (wires (pairAhead Role.initiator.peer).session)[2]? with _ | wire
  · exact absurd found (by decide +kernel)
  · have numbers : (pairAhead .initiator).session.seqProvider.nextOut = 2 ∧
        (pairAhead .initiator).session.seqProvider.nextIn = 2 := by decide +kernel
    have small : (wires (pairAhead Role.initiator.peer).session).flatten.length <
        MessageStore.maxStored := by decide +kernel
    have room : pairAhead.Room := by
      rintro (_ | _) <;> decide +kernel
    have narrow : ∀ role n, ((pair.clock role).times n).length < word16 :=
      fun role n => (by decide : (ascii "Now").length < word16)
    rcases @lost_messages_recovered pair pairAhead proper_pair narrow run_pairAhead room .initiator 3
      wire small (by rw [numbers.2]; decide) found (by rw [numbers.2]; decide)
      (by rw [numbers.2]; decide) with
      ⟨request, -, range, answer, answered, -, -, -, -, same⟩
    rw [numbers.1, numbers.2] at range
    exact ⟨wire, request, answer, rfl, range, answered, same.trans (by decide +kernel)⟩

end Example

end Network

end FixEngine
