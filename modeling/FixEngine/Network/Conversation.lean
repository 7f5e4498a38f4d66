import FixEngine.Lib.Simulation
import FixEngine.Core.Session

/-!
# What two sessions say to each other

The protocol without wires, numbers and timers: two speakers, each with the list of what it said and
the number of the other's phrases it has heard, in order. Hearing a phrase makes a speaker say what the
handler of the message sends; once logged on, it may also say something of its own accord. Nothing is
lost, so nobody asks for anything again.
-/

namespace FixEngine

/-- The other side. -/
def Role.peer : Role → Role
  | .initiator => .acceptor
  | .acceptor => .initiator

@[simp]
theorem Role.peer_peer (role : Role) : role.peer.peer = role := by
  cases role <;> rfl

theorem Role.peer_ne (role : Role) : role.peer ≠ role := by
  cases role <;> decide

/-- A message without its header: what it says and not when or under which number. -/
inductive Phrase
  | logon (reset : Bool) (interval : ℕ)
  | heartbeat (testReqId : Bytes)
  | testRequest (testReqId : Bytes)
  | custom (payload : Bytes)
  deriving DecidableEq, Repr

namespace Phrase

/-- Whether a phrase opens the session. -/
def isLogon : Phrase → Bool
  | logon _ _ => true
  | _ => false

/-- A TestReqID as the sessions make them. -/
def Short (testReqId : Bytes) : Prop := soh ∉ testReqId ∧ testReqId.length ≤ 28

/-- The texts can be written into a field. -/
def Plain : Phrase → Prop
  | logon _ _ => True
  | heartbeat testReqId => Short testReqId
  | testRequest testReqId => testReqId ≠ [] ∧ Short testReqId
  | custom payload => payload ≠ [] ∧ soh ∉ payload

/-- The TestReqID that is asked for. -/
def question : Phrase → Option Bytes
  | testRequest testReqId => some testReqId
  | _ => none

/-- The TestReqID that is given back. -/
def answer : Phrase → Option Bytes
  | heartbeat testReqId => if testReqId = [] then none else some testReqId
  | _ => none

/-- What is said without being asked: a Heartbeat without TestReqID, a TestRequest, or a message of
the application. -/
def Spontaneous : Phrase → Prop
  | logon _ _ => False
  | heartbeat testReqId => testReqId = []
  | _ => True

end Phrase

/-- One side of a conversation. -/
structure Speaker where
  /-- The payload of its answers to Custom messages. -/
  response : Bytes
  said : List Phrase := []
  heard : ℕ := 0

namespace Speaker

/-- What is said in answer to a phrase. -/
def reply (speaker : Speaker) (role : Role) : Phrase → List Phrase
  | .logon reset interval => if role = .acceptor then [.logon reset interval] else []
  | .heartbeat _ => []
  | .testRequest testReqId => [.heartbeat testReqId]
  | .custom payload =>
      if (find Session.customResponse payload).isSome then [] else [.custom speaker.response]

/-- The side says more. -/
def say (speaker : Speaker) (phrases : List Phrase) : Speaker :=
  { speaker with said := speaker.said ++ phrases }

/-- The side hears the next phrase, and answers it. -/
def hear (speaker : Speaker) (role : Role) (phrase : Phrase) : Speaker :=
  { speaker.say (speaker.reply role phrase) with heard := speaker.heard + 1 }

end Speaker

/-- The two speakers. -/
abbrev Conversation := Role → Speaker

namespace Conversation

/-- One side hears the next phrase of the other, or says something of its own. -/
inductive Step : Conversation → Conversation → Prop
  | hear (conversation : Conversation) (role : Role) (phrase : Phrase)
      (next : (conversation role.peer).said[(conversation role).heard]? = some phrase) :
      Step conversation
        (Function.update conversation role ((conversation role).hear role phrase))
  | remark (conversation : Conversation) (role : Role) (phrase : Phrase)
      (loggedOn : 0 < (conversation role).heard) (plain : phrase.Plain)
      (spontaneous : phrase.Spontaneous) :
      Step conversation (Function.update conversation role ((conversation role).say [phrase]))

/-- The initiator has said its Logon. -/
def opening (reset : Bool) (interval : ℕ) (responses : Role → Bytes) : Conversation
  | .initiator => ⟨responses .initiator, [.logon reset interval], 0⟩
  | .acceptor => ⟨responses .acceptor, [], 0⟩

/-- One direction of the conversation. -/
structure Orderly (reset : Bool) (interval : ℕ) (speaker listener : Speaker) : Prop where
  /-- What was heard was said. -/
  heard_le : listener.heard ≤ speaker.said.length
  plain : ∀ phrase ∈ speaker.said, phrase.Plain
  /-- The first phrase is the Logon, and no other is. -/
  first : ∀ phrase, speaker.said[0]? = some phrase → phrase = .logon reset interval
  later : ∀ i phrase, speaker.said[i + 1]? = some phrase → phrase.isLogon = false

/-- The invariant of the conversation. -/
structure Sound (reset : Bool) (interval : ℕ) (conversation : Conversation) : Prop where
  orderly : ∀ role, Orderly reset interval (conversation role) (conversation role.peer)
  /-- The initiator speaks first, the acceptor when it has heard the Logon. -/
  opened : (conversation .initiator).said ≠ []
  answered : (conversation .acceptor).said ≠ [] ↔ 0 < (conversation .acceptor).heard
  responses : ∀ role, (conversation role).response ≠ [] ∧ soh ∉ (conversation role).response

section Steps

variable {reset : Bool} {interval : ℕ} {conversation after : Conversation} {role : Role}
  {phrase : Phrase}

theorem sound_opening (responses : Role → Bytes)
    (plain : ∀ role, responses role ≠ [] ∧ soh ∉ responses role) :
    Sound reset interval (opening reset interval responses) := by
  refine ⟨?_, by simp [opening], by simp [opening], ?_⟩
  · intro role
    cases role with
    | initiator =>
        refine ⟨Nat.zero_le _, ?_, ?_, ?_⟩
        · simp [opening, Phrase.Plain]
        · simp [opening]
        · simp [opening]
    | acceptor => exact ⟨Nat.zero_le _, by simp [opening], by simp [opening], by simp [opening]⟩
  · intro role
    cases role <;> exact plain _

/-- The phrase a sound listener hears next is plain, and a Logon exactly when it is the first. -/
theorem Orderly.next {speaker listener : Speaker} (orderly : Orderly reset interval speaker listener)
    (next : speaker.said[listener.heard]? = some phrase) :
    phrase.Plain ∧ (listener.heard = 0 → phrase = .logon reset interval) ∧
      (0 < listener.heard → phrase.isLogon = false) := by
  refine ⟨orderly.plain phrase (List.mem_of_getElem? next), ?_, ?_⟩
  · intro none
    rw [none] at next
    exact orderly.first phrase next
  · intro some
    rw [← Nat.succ_pred_eq_of_pos some] at next
    exact orderly.later _ phrase next

/-- More is said, behind the Logon. -/
theorem Orderly.say {speaker listener : Speaker} (orderly : Orderly reset interval speaker listener)
    {phrases : List Phrase} (plain : ∀ phrase ∈ phrases, phrase.Plain)
    (behind : speaker.said ≠ [] → ∀ phrase ∈ phrases, phrase.isLogon = false)
    (opens : speaker.said = [] → ∀ i phrase, phrases[i]? = some phrase →
      i = 0 ∧ phrase = .logon reset interval) :
    Orderly reset interval (speaker.say phrases) listener := by
  refine ⟨?_, ?_, ?_, ?_⟩
  · exact orderly.heard_le.trans (by simp [Speaker.say])
  · intro phrase mem
    rcases List.mem_append.mp mem with earlier | new
    · exact orderly.plain phrase earlier
    · exact plain phrase new
  · intro phrase found
    rcases said : speaker.said with _ | ⟨first, rest⟩
    · simp only [Speaker.say, said, List.nil_append] at found
      exact (opens said 0 phrase found).2
    · simp only [Speaker.say, said, List.cons_append, List.getElem?_cons_zero] at found
      exact orderly.first phrase (by rw [said]; exact found)
  · intro i phrase found
    by_cases inside : i + 1 < speaker.said.length
    · rw [Speaker.say, List.getElem?_append_left inside] at found
      exact orderly.later i phrase found
    · rw [Speaker.say, List.getElem?_append_right (by omega)] at found
      rcases said : speaker.said with _ | ⟨first, rest⟩
      · have opened := (opens said _ phrase found).1
        rw [said] at opened
        simp at opened
      · exact behind (by simp [said]) phrase (List.mem_of_getElem? found)

theorem reply_plain {speaker : Speaker} (response : speaker.response ≠ [] ∧ soh ∉ speaker.response)
    (plain : phrase.Plain) : ∀ answer ∈ speaker.reply role phrase, answer.Plain := by
  intro answer mem
  cases phrase with
  | logon reset interval =>
      simp only [Speaker.reply] at mem
      split at mem
      · rw [List.mem_singleton.mp mem]
        trivial
      · cases mem
  | heartbeat testReqId => cases mem
  | testRequest testReqId =>
      rw [List.mem_singleton.mp mem]
      exact plain.2
  | custom payload =>
      simp only [Speaker.reply] at mem
      split at mem
      · cases mem
      · rw [List.mem_singleton.mp mem]
        exact response

/-- Only a Logon is answered with one. -/
theorem reply_isLogon {speaker : Speaker} (other : phrase.isLogon = false) :
    ∀ answer ∈ speaker.reply role phrase, answer.isLogon = false := by
  intro answer mem
  cases phrase with
  | logon reset interval => cases other
  | heartbeat testReqId => cases mem
  | testRequest testReqId =>
      rw [List.mem_singleton.mp mem]
      rfl
  | custom payload =>
      simp only [Speaker.reply] at mem
      split at mem
      · cases mem
      · rw [List.mem_singleton.mp mem]
        rfl

/-- What a sound speaker answers to the next phrase it hears. -/
theorem Sound.reply (sound : Sound reset interval conversation)
    (next : (conversation role.peer).said[(conversation role).heard]? = some phrase) :
    ((conversation role).said ≠ [] → ∀ answer ∈ (conversation role).reply role phrase,
        answer.isLogon = false) ∧
      ((conversation role).said = [] →
        (conversation role).reply role phrase = [.logon reset interval]) := by
  have incoming := sound.orderly role.peer
  rw [Role.peer_peer] at incoming
  rcases incoming.next next with ⟨_, first, later⟩
  cases role with
  | initiator =>
      refine ⟨?_, fun silent => absurd silent sound.opened⟩
      intro _
      rcases Nat.eq_zero_or_pos (conversation .initiator).heard with none | some
      · simp [first none, Speaker.reply]
      · exact reply_isLogon (later some)
  | acceptor =>
      constructor
      · intro spoken
        exact reply_isLogon (later (sound.answered.mp spoken))
      · intro silent
        have none : (conversation .acceptor).heard = 0 := by
          by_contra some
          exact sound.answered.mpr (Nat.pos_of_ne_zero some) silent
        simp [first none, Speaker.reply]

theorem Sound.orderly_hear (sound : Sound reset interval conversation)
    (next : (conversation role.peer).said[(conversation role).heard]? = some phrase) :
    Orderly reset interval ((conversation role).hear role phrase) (conversation role.peer) ∧
      Orderly reset interval (conversation role.peer) ((conversation role).hear role phrase) := by
  have incoming := sound.orderly role.peer
  rw [Role.peer_peer] at incoming
  rcases sound.reply next with ⟨behind, opens⟩
  constructor
  · have said := (sound.orderly role).say
      (reply_plain (sound.responses role) (incoming.next next).1) behind (by
        intro silent i answer found
        rw [opens silent] at found
        rcases i with _ | i
        · exact ⟨rfl, by simpa using found.symm⟩
        · simp at found)
    exact ⟨said.heard_le, said.plain, said.first, said.later⟩
  · refine ⟨?_, incoming.plain, incoming.first, incoming.later⟩
    exact (List.getElem?_eq_some_iff.mp next).1

/-- A step changes one speaker, in what it has said and heard. -/
theorem Sound.update (sound : Sound reset interval conversation) {speaker : Speaker}
    (outgoing : Orderly reset interval speaker (conversation role.peer))
    (incoming : Orderly reset interval (conversation role.peer) speaker)
    (same : speaker.response = (conversation role).response) (spoken : speaker.said ≠ [])
    (heard : 0 < speaker.heard) :
    Sound reset interval (Function.update conversation role speaker) := by
  have other : Function.update conversation role speaker role.peer = conversation role.peer :=
    Function.update_of_ne role.peer_ne _ _
  have mine : Function.update conversation role speaker role = speaker := Function.update_self ..
  have cases : ∀ side : Role, side = role ∨ side = role.peer := by
    intro side
    cases side <;> cases role <;> simp [Role.peer]
  refine ⟨?_, ?_, ?_, ?_⟩
  · intro side
    rcases cases side with rfl | rfl
    · rw [mine, other]
      exact outgoing
    · rw [Role.peer_peer, mine, other]
      exact incoming
  · by_cases isInitiator : Role.initiator = role
    · subst isInitiator
      rw [mine]
      exact spoken
    · rw [Function.update_of_ne isInitiator]
      exact sound.opened
  · by_cases isAcceptor : Role.acceptor = role
    · subst isAcceptor
      rw [mine]
      exact ⟨fun _ => heard, fun _ => spoken⟩
    · rw [Function.update_of_ne isAcceptor]
      exact sound.answered
  · intro side
    rcases cases side with rfl | rfl
    · rw [mine, same]
      exact sound.responses _
    · rw [other]
      exact sound.responses _

theorem Sound.step (sound : Sound reset interval conversation) (step : Step conversation after) :
    Sound reset interval after := by
  cases step with
  | hear role phrase next =>
      rcases sound.orderly_hear next with ⟨outgoing, incoming⟩
      refine sound.update outgoing incoming rfl ?_ (Nat.succ_pos _)
      by_cases silent : (conversation role).said = []
      · simp [Speaker.hear, Speaker.say, (sound.reply next).2 silent]
      · simp [Speaker.hear, Speaker.say, silent]
  | remark role phrase loggedOn plain spontaneous =>
      have other : phrase.isLogon = false := by
        cases phrase with
        | logon => cases spontaneous
        | _ => rfl
      have spoken : (conversation role).said ≠ [] := by
        cases role with
        | initiator => exact sound.opened
        | acceptor => exact sound.answered.mpr loggedOn
      have incoming := sound.orderly role.peer
      rw [Role.peer_peer] at incoming
      refine sound.update ?_ ?_ rfl (by simp [Speaker.say]) loggedOn
      · refine (sound.orderly role).say ?_ ?_ fun silent => absurd silent spoken
        · rintro _ (_ | ⟨_, ⟨⟩⟩)
          exact plain
        · rintro _ _ (_ | ⟨_, ⟨⟩⟩)
          exact other
      · exact ⟨incoming.heard_le, incoming.plain, incoming.first, incoming.later⟩

/-- Every question that was heard has been answered, in order, and nothing else was. -/
def Answered (conversation : Conversation) : Prop :=
  ∀ role, (conversation role).said.filterMap Phrase.answer =
    ((conversation role.peer).said.take (conversation role).heard).filterMap Phrase.question

/-- A phrase is answered by what is said to it. -/
theorem reply_answer {speaker : Speaker} (plain : phrase.Plain) :
    (speaker.reply role phrase).filterMap Phrase.answer = [phrase].filterMap Phrase.question := by
  cases phrase with
  | logon reset interval =>
      rw [Speaker.reply]
      split <;> rfl
  | heartbeat testReqId => rfl
  | testRequest testReqId => simp [Speaker.reply, Phrase.answer, Phrase.question, plain.1]
  | custom payload =>
      rw [Speaker.reply]
      split <;> rfl

theorem answer_of_spontaneous (spontaneous : phrase.Spontaneous) :
    [phrase].filterMap Phrase.answer = [] := by
  cases phrase with
  | heartbeat testReqId =>
      have none : testReqId = [] := spontaneous
      simp [none, Phrase.answer]
  | _ => rfl

theorem Answered.step (answered : Answered conversation) (sound : Sound reset interval conversation)
    (step : Step conversation after) : Answered after := by
  -- What one side says later changes nothing about what the other has heard.
  have grown : ∀ {side : Role} {phrases : List Phrase}, (conversation side.peer).heard ≤
      (conversation side).said.length → ((conversation side).said ++ phrases).take
        (conversation side.peer).heard = (conversation side).said.take
          (conversation side.peer).heard := fun le => List.take_append_of_le_length le
  have cases : ∀ role side : Role, side = role ∨ side = role.peer := by
    intro role side
    cases side <;> cases role <;> simp [Role.peer]
  cases step with
  | hear role phrase next =>
      have inside := List.getElem?_eq_some_iff.mp next
      have plain := (sound.orderly role.peer).plain phrase (List.mem_of_getElem? next)
      intro side
      rcases cases role side with rfl | rfl
      · rw [Function.update_self, Function.update_of_ne side.peer_ne]
        simp only [Speaker.hear, Speaker.say, List.filterMap_append]
        rw [List.take_succ_eq_append_getElem inside.1, inside.2, List.filterMap_append, answered side,
          reply_answer plain]
      · rw [Role.peer_peer, Function.update_self, Function.update_of_ne role.peer_ne, answered,
          Role.peer_peer]
        simp only [Speaker.hear, Speaker.say]
        rw [grown (sound.orderly role).heard_le]
  | remark role phrase loggedOn plain spontaneous =>
      intro side
      rcases cases role side with rfl | rfl
      · rw [Function.update_self, Function.update_of_ne side.peer_ne]
        rw [Speaker.say, List.filterMap_append, answer_of_spontaneous spontaneous, List.append_nil]
        exact answered side
      · rw [Role.peer_peer, Function.update_self, Function.update_of_ne role.peer_ne, answered,
          Role.peer_peer]
        simp only [Speaker.say]
        rw [grown (sound.orderly role).heard_le]

end Steps

end Conversation

end FixEngine
