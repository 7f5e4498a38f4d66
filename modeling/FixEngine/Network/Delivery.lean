import FixEngine.Network.Agreement
import FixEngine.Session.Delivery

/-!
# Every message, once and in order

What two sessions on one connection can rely on, in every run in which nobody stops one of them and no
answer comes too late: neither rejects a message or asks for one again, the numbers one side expects are
those the other side sends, every message that has arrived is handled once and in order, and every
TestRequest is answered.
-/

namespace FixEngine

open Relation (ReflTransGen)

/-- Lists whose elements are alike, place by place. -/
theorem filterMap_eq_of_getElem? {α β γ : Type} {f : α → Option γ} {g : β → Option γ} {front : List α}
    {rest : List β} (length_eq : front.length = rest.length)
    (alike : ∀ (i : ℕ) a b, front[i]? = some a → rest[i]? = some b → f a = g b) :
    front.filterMap f = rest.filterMap g := by
  induction front generalizing rest with
  | nil =>
      rw [List.eq_nil_of_length_eq_zero length_eq.symm]
      rfl
  | cons a front ih =>
      rcases rest with _ | ⟨b, rest⟩
      · cases length_eq
      · have first := alike 0 a b rfl rfl
        have others := ih (Nat.succ.inj length_eq) fun i x y atFront atRest =>
          alike (i + 1) x y atFront atRest
        rw [List.filterMap_cons, List.filterMap_cons, first, others]

namespace Network

open Conversation

/-- The TestReqID a delivered message asks for. -/
def asked (delivery : Bytes × ℕ × Message) : Option Bytes :=
  if delivery.1 = ascii "1" then delivery.2.2.firstValue? 112 else none

/-- The TestReqID a sent message gives back. -/
def answered (sent : Bytes × Bytes) : Option Bytes :=
  if sent.1 = ascii "0" then (Parser.parse sent.2).1.firstValue? 112 else none

variable {setup : Setup} {net : Network}

/-- The messages of a session are numbered from 1 without a gap. -/
theorem numbers_wires (proper : setup.Proper) {conversation : Conversation}
    (related : Related setup net conversation) (role : Role) :
    (wires (net role).session).map Session.numberOf =
      List.range' 1 (wires (net role).session).length := by
  refine List.ext_getElem? fun i => ?_
  rw [List.getElem?_map]
  rcases found : (wires (net role).session)[i]? with _ | wire
  · have behind := List.getElem?_eq_none_iff.mp found
    rw [Option.map_none, List.getElem?_eq_none (by rw [List.length_range']; exact behind)]
  · have inside := (List.getElem?_eq_some_iff.mp found).1
    rw [Option.map_some, related.numberOf_wire proper found, List.getElem?_range' inside]
    simp [Nat.add_comm]

/-- Two sessions that are started on one connection never lose each other: both run on, neither sends a
Logout, Reject, ResendRequest or SequenceReset, the messages of each are numbered from 1 without a gap,
and those a side still has to handle are numbered from what it expects up to what the other sends next. -/
theorem numbers_agree (proper : setup.Proper) (run : ReflTransGen Step setup.network net)
    (role : Role) :
    let mine := (net role).session
    let theirs := (net role.peer).session
    mine.stopped = false ∧ (mine.state = .active ↔ 1 < mine.seqProvider.nextIn) ∧
      (∀ type ∈ sentTypes mine.trace,
        type ∈ [ascii "A", ascii "0", ascii "1", MessageFactory.customType]) ∧
      (wires mine).map Session.numberOf = List.range' 1 (mine.seqProvider.nextOut - 1) ∧
      mine.seqProvider.nextIn ≤ theirs.seqProvider.nextOut ∧
      ((wires theirs).drop (mine.seqProvider.nextIn - 1)).map Session.numberOf =
        List.range' mine.seqProvider.nextIn
          (theirs.seqProvider.nextOut - mine.seqProvider.nextIn) := by
  rcases related_run proper run with ⟨conversation, -, related⟩
  have engaged := (related.follows role).converses.engaged
  have theirs := (related.follows role.peer).converses.engaged.speaks
  have heard_le := (related.sound.orderly role.peer).heard_le
  rw [Role.peer_peer] at heard_le
  refine ⟨engaged.speaks.piping.running, ?_, fun type mem => related.sentTypes_mem mem, ?_, ?_, ?_⟩
  · rw [engaged.attends.state_eq, engaged.attends.nextIn_eq]
    cases (conversation role).heard with
    | zero => cases role <;> simp [stateAt]
    | succ heard => cases role <;> simp [stateAt]
  · rw [numbers_wires proper related role, engaged.speaks.nextOut_eq, engaged.speaks.length_wires,
      Nat.add_sub_cancel]
  · rw [engaged.attends.nextIn_eq, theirs.nextOut_eq]
    omega
  · rw [List.map_drop, numbers_wires proper related role.peer, List.drop_range',
      engaged.attends.nextIn_eq, theirs.nextOut_eq, theirs.length_wires]
    congr 1 <;> omega

/-- The handlers of each side are called with the messages of the other: with all those before the
number it expects, each once, in the order they were sent in, and with the fields they were sent with.
When all bytes have arrived and the framer has passed on every complete message, nothing is missing. -/
theorem delivered_in_order (proper : setup.Proper) (run : ReflTransGen Step setup.network net)
    (role : Role) :
    let mine := net role
    let theirs := wires (net role.peer).session
    deliveries mine.session.trace =
        (theirs.take (mine.session.seqProvider.nextIn - 1)).map Session.delivered ∧
      (mine.received = theirs.flatten → mine.toReading.Handled →
        deliveries mine.session.trace = theirs.map Session.delivered) := by
  rcases related_run proper run with ⟨conversation, -, related⟩
  have engaged := (related.follows role).converses.engaged
  have theirs := (related.follows role.peer).converses.engaged.speaks
  refine ⟨?_, ?_⟩
  · rw [engaged.deliveries_eq, related.processed_eq]
  · intro complete handled
    rw [engaged.deliveries_eq, handled.processed_eq, complete, frames_flatten theirs.framed]

section Example

/-- Two sides, one for the other. -/
def pair : Setup where
  id := fun _ => 0
  params := fun role => if role = .initiator then Session.leftParams else Session.rightParams
  clock := fun _ => .standard
  conn := fun _ => 0

theorem proper_pair : pair.Proper := by
  refine ⟨?_, ⟨rfl, rfl⟩, by decide, by decide, by decide, fun _ => (by decide : 0 < word64), ?_, ?_, ?_⟩
  · rintro (_ | _) <;> exact ⟨rfl, ⟨by decide, by decide, by decide⟩, by decide, by decide⟩
  · rintro (_ | _) <;> decide
  · rintro (_ | _) <;> decide
  · intro role n
    exact (by decide : (ascii "Now").length ≤ 2 ^ 16)

/-- The Logon of the initiator. -/
def pairLogon : Bytes := (wires (pair.started .initiator)).flatten

/-- It has been written. -/
def pairWritten : Peer :=
  { (pair.network .initiator).withSession
      ((pair.network .initiator).session.finishWrite 0 (.ok pairLogon.length)) with
    written := (pair.network .initiator).written ++ pairLogon.take pairLogon.length }

/-- It has been read. -/
def pairRead : Peer :=
  ((pair.network .acceptor).withSession
    ((pair.network .acceptor).session.withoutRead 0)).read pairLogon

/-- The acceptor has read the Logon and answered it. -/
def pairAnswered : Network :=
  Function.update (Function.update pair.network .initiator pairWritten) .acceptor pairRead

theorem run_pairAnswered : ReflTransGen Step pair.network pairAnswered := by
  have room : ∀ net : Network, (∀ role, (sentTypes (net role).session.trace).length ≤ 1) →
      net.Room := fun net small role => Nat.lt_of_le_of_lt (small role) (by decide)
  refine .tail (.single (.mk _ .initiator pairWritten (room _ ?_) ?_))
    (.mk _ .acceptor pairRead (room _ ?_) ?_)
  · rintro (_ | _) <;> decide +kernel
  · exact .write _ 0 0 pairLogon.length pairLogon (by decide +kernel) (Nat.le_refl _)
  · rintro (_ | _) <;> decide +kernel
  · exact .read _ 0 0 pairLogon (by decide +kernel) (by decide +kernel)

theorem numbers_agree_pair : (pairAnswered .acceptor).session.seqProvider.nextIn ≤
    (pairAnswered Role.acceptor.peer).session.seqProvider.nextOut :=
  (numbers_agree proper_pair run_pairAnswered .acceptor).2.2.2.2.1

theorem delivered_in_order_pair : deliveries (pairAnswered .acceptor).session.trace =
    ((wires (pairAnswered Role.acceptor.peer).session).take
      ((pairAnswered .acceptor).session.seqProvider.nextIn - 1)).map Session.delivered :=
  (delivered_in_order proper_pair run_pairAnswered .acceptor).1

end Example

end Network

end FixEngine
