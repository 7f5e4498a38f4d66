import FixEngine.Network.Answering
import FixEngine.Network.Hearing
import FixEngine.Recovery.Window

/-!
# What an answer does to the session that asked

A session that misses messages keeps the one that showed it, and asks for those before it. Every gap
fill of the answer moves what it expects, every Custom message of it is handled, and after the last of
them the kept message is handled too.
-/

namespace FixEngine

/-- The number and the payload of a delivered message of the application. -/
def applied (delivery : Bytes × ℕ × Message) : Option (ℕ × Bytes) :=
  if delivery.1 = MessageFactory.customType then
    (delivery.2.2.firstValue? 9250).map fun payload => (delivery.2.1, payload)
  else none

namespace History

/-- What the application of the other side is owed under a number. -/
def owed (history : History) (number : ℕ) : Option (ℕ × Bytes) :=
  match history[number - 1]? with
  | some (some payload) => some (number, payload)
  | _ => none

/-- What it is owed under the numbers from `first` to the one before `stop`. -/
def owedBetween (history : History) (first stop : ℕ) : List (ℕ × Bytes) :=
  (List.range' first (stop - first)).filterMap history.owed

variable {history : History} {first middle stop number : ℕ}

theorem owedBetween_append (low : first ≤ middle) (high : middle ≤ stop) :
    history.owedBetween first stop =
      history.owedBetween first middle ++ history.owedBetween middle stop := by
  have split : List.range' first (stop - first) =
      List.range' first (middle - first) ++ List.range' middle (stop - middle) := by
    have joined := @List.range'_append first (middle - first) (stop - middle) 1
    rw [one_mul, show first + (middle - first) = middle by omega,
      show middle - first + (stop - middle) = stop - first by omega] at joined
    exact joined.symm
  rw [owedBetween, split, List.filterMap_append]
  rfl

theorem owedBetween_single (history : History) (number : ℕ) :
    history.owedBetween number (number + 1) = (history.owed number).toList := by
  rw [owedBetween, Nat.add_sub_cancel_left]
  rcases owes : history.owed number with _ | pair <;> simp [owes]

/-- Nothing is owed for administrative messages. -/
theorem owedBetween_admin
    (admin : ∀ number, first ≤ number → number < stop → history[number - 1]? = some none) :
    history.owedBetween first stop = [] := by
  refine List.filterMap_eq_nil_iff.mpr fun number mem => ?_
  rcases List.mem_range'_1.mp mem with ⟨low, high⟩
  rw [owed, admin number low (by omega)]

end History

namespace Session

/-- A message was handled and `stop` is expected next; all else that counts for a recovery is as
before. -/
structure Shifts (before after : Session) (stop : ℕ) (delivery : Bytes × ℕ × Message) : Prop where
  params_eq : after.params = before.params
  state_eq : after.state = before.state
  stopped_eq : after.stopped = before.stopped
  cache_eq : after.recoveryCache = before.recoveryCache
  nextIn_eq : after.seqProvider.nextIn = stop
  deliveries_eq : deliveries after.trace = deliveries before.trace ++ [delivery]

/-- The session has handled `handled` since `base` and expects `next`; it asks for what comes before
`last`, and keeps that message only. -/
structure Recovers (base : Session) (next last : ℕ) (held : Bytes)
    (handled : List (Bytes × ℕ × Message)) (session : Session) : Prop where
  params_eq : session.params = base.params
  running : session.stopped = false
  recovering : session.state = .recoveringResend
  nextIn_eq : session.seqProvider.nextIn = next
  valid : session.recoveryCache.Valid
  held_eq : session.recoveryCache.held = Function.update (fun _ => none) last (some held)
  deliveries_eq : deliveries session.trace = deliveries base.trace ++ handled

/-- The session has handled `handled` since `base`, and misses nothing before `next`. -/
structure Recovered (base : Session) (next : ℕ) (handled : List (Bytes × ℕ × Message))
    (session : Session) : Prop where
  params_eq : session.params = base.params
  running : session.stopped = false
  active : session.state = .active
  nextIn_eq : session.seqProvider.nextIn = next
  cacheEmpty : session.recoveryCache.empty = true
  deliveries_eq : deliveries session.trace = deliveries base.trace ++ handled

section Turns

variable {session : Session} {letter : Letter} {wire : Bytes} {first stop : ℕ} {time : Bytes}

/-- The handler of a message in its turn. -/
theorem receive_turn (running : session.stopped = false) (established : session.established = true)
    (readBy : letter.ReadBy session wire) (turn : letter.number = session.seqProvider.nextIn) :
    session.receive wire = ((session.prepared (Parser.parse wire).1).updateIn
      (numberOf wire + 1)).handle letter.type (viewOf wire) := by
  simp only [receive, readBy.noErrors, if_true]
  exact dispatch_inTurn running ⟨readBy.accepts, fun _ => established⟩ wire
    (readBy.number_eq.trans turn)

theorem delivered_eq (readBy : letter.ReadBy session wire) :
    delivered wire = (letter.type, numberOf wire, (Parser.parse wire).1) := by
  have type_eq : (viewOf wire).headerCache.msgType = some letter.type := readBy.accepts.type_eq
  rw [delivered, type_eq]
  rfl

/-- What the application gets from a message is the payload it was sent with. -/
theorem applied_delivered (readBy : letter.ReadBy session wire) :
    applied (delivered wire) = letter.payload.map fun payload => (letter.number, payload) := by
  have number : numberOf wire = letter.number := readBy.number_eq
  rw [delivered_eq readBy, applied, Letter.payload]
  split
  · next custom =>
      rw [readBy.field_eq 9250 (by decide) (by decide), number]
  · rfl

/-- A message of a plain type. -/
theorem shifts_plain (running : session.stopped = false) (established : session.established = true)
    (readBy : letter.ReadBy session wire) (turn : letter.number = session.seqProvider.nextIn)
    (plain : isPlainType letter.type = true) (room : letter.number + 1 < word64) :
    Shifts session (session.receive wire) (letter.number + 1) (delivered wire) := by
  have prepared := session.keeps_prepared (Parser.parse wire).1
  have handled := keeps_handle_plain ((session.prepared (Parser.parse wire).1).updateIn
    (numberOf wire + 1)) (viewOf wire) plain
  rw [receive_turn running established readBy turn]
  refine ⟨handled.params_eq.trans prepared.params_eq, handled.state_eq.trans prepared.state_eq,
    handled.stopped_eq.trans prepared.stopped_eq, handled.cache_eq.trans prepared.cache_eq, ?_, ?_⟩
  · rw [handled.nextIn_eq, ← readBy.number_eq]
    exact Nat.mod_eq_of_lt (by rw [readBy.number_eq]; exact room)
  · rw [handled.deliveries_eq, ← prepared.deliveries_eq, delivered_eq readBy]
    exact deliveries_append _ _

/-- A gap fill. -/
theorem shifts_gapFill (running : session.stopped = false) (established : session.established = true)
    (readBy : (Letter.gapFill first stop time).ReadBy session wire)
    (turn : first = session.seqProvider.nextIn) (small : stop < 2 ^ 63) :
    Shifts session (session.receive wire) stop (delivered wire) := by
  have prepared := session.keeps_prepared (Parser.parse wire).1
  have flag : (viewOf wire).message.firstValue? 123 = some (ascii "Y") :=
    (readBy.field_eq 123 (by decide) (by decide)).trans rfl
  have next : (viewOf wire).message.firstValue? 36 = some (decimal stop) := by
    have read : (viewOf wire).message.firstValue? 36 = some (toChars (toInt64 stop)) :=
      (readBy.field_eq 36 (by decide) (by decide)).trans
        (by simp [Letter.gapFill, Message.firstValue?])
    rw [read, toInt64_eq small, toChars_natCast]
  have number : (fromChars 64 (decimal stop)).value.getD 0 = stop := by
    rw [value_of_whole (whole_fromChars_decimal (by omega)), Option.getD_some]
  have handled : ∀ ready : Session, ready.handle (ascii "4") (viewOf wire) =
      (ready.called (ascii "4") (viewOf wire)).updateIn stop := by
    intro ready
    rw [handle, if_neg (by decide), if_neg (by decide), if_neg (by decide), if_neg (by decide),
      if_neg (by decide), if_neg (by decide), if_pos rfl, handleSequenceReset, next]
    simp only [flag, number, decide_true, Bool.not_true, Bool.and_false, Bool.false_eq_true, if_false]
  have type_eq : (Letter.gapFill first stop time).type = ascii "4" := rfl
  rw [receive_turn running established readBy turn, type_eq, handled]
  refine ⟨prepared.params_eq, prepared.state_eq, prepared.stopped_eq, prepared.cache_eq,
    Nat.mod_eq_of_lt (by simp only [word64]; omega), ?_⟩
  rw [← prepared.deliveries_eq, delivered_eq readBy]
  exact deliveries_append _ _

end Turns

section Recovery

variable {base session : Session} {next last stop : ℕ} {held : Bytes}
  {handled : List (Bytes × ℕ × Message)} {delivery : Bytes × ℕ × Message} {letter : Letter}
  {wire : Bytes}

theorem Recovers.contains_iff (recovers : Recovers base next last held handled session) (n : ℕ) :
    session.recoveryCache.contains n = true ↔ n = last := by
  have found := congrFun recovers.held_eq n
  constructor
  · intro present
    by_contra other
    rw [Function.update_of_ne other] at found
    rw [RecoveryCache.held_eq_none_iff.mp found] at present
    cases present
  · intro same
    rw [same, Function.update_self] at found
    rw [same]
    exact (RecoveryCache.held_eq_some_iff.mp found).1

theorem Recovers.not_empty (recovers : Recovers base next last held handled session) :
    session.recoveryCache.empty = false := by
  by_contra empty
  have none := recovers.valid.empty_iff.mp (by simpa using empty) last
  rw [recovers.held_eq, Function.update_self] at none
  cases none

/-- While the expected message is not there, the drain does nothing. -/
theorem Recovers.drain_eq (recovers : Recovers base next last held handled session)
    (missing : next ≠ last) : session.drainRecoveryCache = session := by
  have absent : session.recoveryCache.contains session.seqProvider.nextIn = false := by
    rw [recovers.nextIn_eq]
    by_contra present
    exact missing ((recovers.contains_iff next).mp (by simpa using present))
  rw [drainRecoveryCache, recovers.not_empty, recovers.recovering]
  simp [drainLoop, absent, recovers.not_empty]

/-- A message that is ahead is kept, and those before it are asked for. -/
theorem recovers_processWireMessage (writes : session.Writes)
    (settled : session.state ≠ .recoveringResend)
    (allowed : isAppMessageType letter.type = true → session.established = true)
    (readBy : letter.ReadBy session wire) (ahead : session.seqProvider.nextIn < letter.number)
    (near : letter.number - session.seqProvider.nextIn < RecoveryCache.window) :
    Recovers session session.seqProvider.nextIn letter.number wire []
        (session.processWireMessage wire) ∧
      ∃ request, (Letter.resendRequest session.seqProvider.nextOut session.seqProvider.nextIn
          (letter.number - 1)).Written session.params request ∧
        sentMessages (session.processWireMessage wire).trace =
          sentMessages session.trace ++ [(ascii "2", request)] ∧
        (session.processWireMessage wire).recoveryCache.baseOffset = session.seqProvider.nextIn := by
  have prepared := session.keeps_prepared (Parser.parse wire).1
  have calm := session.calm_prepared (Parser.parse wire).1
  obtain ⟨ready, readyDef⟩ : ∃ ready, ready = session.prepared (Parser.parse wire).1 := ⟨_, rfl⟩
  have numbers : (session.prepared (Parser.parse wire).1).seqProvider = session.seqProvider := by
    rw [Session.prepared]
    split <;> rfl
  rw [← readyDef] at prepared calm numbers
  have number : (makeValidMessageView (Parser.parse wire).1).headerCache.msgSeqNum =
    letter.number := readBy.number_eq
  have received : session.receive wire = ready.beginRecovery letter.number wire := by
    simp only [receive, readBy.noErrors, if_true]
    rw [dispatch_prepared writes.running ⟨readBy.accepts, allowed⟩ wire, ← readyDef, checkSequence,
      number, prepared.nextIn_eq, if_neg (by omega), if_pos ahead, prepared.state_eq,
      if_neg settled]
  obtain ⟨requested, requestedDef⟩ : ∃ requested, requested =
    ready.send (.resendRequest session.seqProvider.nextIn (letter.number - 1)) := ⟨_, rfl⟩
  have kept : Keeps session requested := by
    rw [requestedDef]
    exact prepared.trans (ready.keeps_sendResendRequest _ _)
  have nonempty : wire ≠ [] := parse_ne_nil readBy.noErrors
  have within : (session.recoveryCache.start session.seqProvider.nextIn).inWindow letter.number =
      true := RecoveryCache.inWindow_iff.mpr ⟨by simp only [RecoveryCache.baseOffset_start]; omega,
        by simp only [RecoveryCache.baseOffset_start]; exact near⟩
  have begun : ready.beginRecovery letter.number wire =
      (requested.withState .recoveringResend).withCache
        ((session.recoveryCache.start session.seqProvider.nextIn).insert letter.number wire) := by
    have asserts := insertAsserts_start session.recoveryCache ahead nonempty
    rw [decide_eq_true near] at asserts
    have absent := not_contains_start session.recoveryCache session.seqProvider.nextIn letter.number
    simp only [beginRecovery, prepared.nextIn_eq, ← send_resendRequest, ← requestedDef,
      kept.cache_eq, withCache, withState, absent, Bool.false_eq_true, if_false, cacheMessage,
      asserts, if_true]
  have recovers : Recovers session session.seqProvider.nextIn letter.number wire []
      (session.receive wire) := by
    rw [received, begun]
    refine ⟨kept.params_eq, kept.stopped_eq.trans writes.running, rfl, kept.nextIn_eq, ?_, ?_, ?_⟩
    · exact (RecoveryCache.valid_start _ _).insert within (not_contains_start _ _ _) nonempty
    · exact (RecoveryCache.held_insert (RecoveryCache.valid_start _ _) within nonempty).trans
        (by rw [RecoveryCache.held_start])
    · rw [List.append_nil, ← kept.deliveries_eq]
      rfl
  have settles := recovers.drain_eq (Nat.ne_of_lt ahead)
  rw [processWireMessage, settles]
  refine ⟨recovers, ((Outgoing.resendRequest session.seqProvider.nextIn
    (letter.number - 1)).built ready.msgFactory).1, ?_, ?_, ?_⟩
  · have texts : ready.Writes := by
      have times : ready.clock = session.clock := calm.clock_eq
      refine ⟨prepared.stopped_eq.trans writes.running, ?_, ?_, ?_, ?_⟩
      · rw [prepared.params_eq]
        exact writes.presentable
      · rw [prepared.params_eq]
        exact writes.sender_lt
      · rw [prepared.params_eq]
        exact writes.target_lt
      · rw [times]
        exact writes.time_lt
    have written := written_resendRequest texts session.seqProvider.nextIn (letter.number - 1)
    rw [prepared.params_eq, numbers] at written
    exact written
  · have sent : sentMessages (session.receive wire).trace = sentMessages requested.trace := by
      rw [received, begun]
      rfl
    rw [sent, requestedDef, sentMessages_send, calm.sentMessages_eq, calm.stopped_eq,
      if_neg (by simp [writes.running])]
    rfl
  · rw [received, begun]
    exact RecoveryCache.baseOffset_insert

/-- Another message that is ahead is kept too. -/
theorem keeps_ahead (running : session.stopped = false) (recovering : session.state = .recoveringResend)
    (valid : session.recoveryCache.Valid) (readBy : letter.ReadBy session wire)
    (ahead : session.seqProvider.nextIn < letter.number)
    (within : session.recoveryCache.inWindow letter.number = true)
    (fresh : session.recoveryCache.contains letter.number = false)
    (missing : session.recoveryCache.contains session.seqProvider.nextIn = false) :
    let after := session.processWireMessage wire
    after.stopped = false ∧ after.state = .recoveringResend ∧
      after.seqProvider.nextIn = session.seqProvider.nextIn ∧ after.recoveryCache.Valid ∧
      after.recoveryCache.held =
        Function.update session.recoveryCache.held letter.number (some wire) ∧
      sentMessages after.trace = sentMessages session.trace := by
  have prepared := session.keeps_prepared (Parser.parse wire).1
  have calm := session.calm_prepared (Parser.parse wire).1
  obtain ⟨ready, readyDef⟩ : ∃ ready, ready = session.prepared (Parser.parse wire).1 := ⟨_, rfl⟩
  rw [← readyDef] at prepared calm
  have number : (makeValidMessageView (Parser.parse wire).1).headerCache.msgSeqNum =
    letter.number := readBy.number_eq
  have nonempty : wire ≠ [] := parse_ne_nil readBy.noErrors
  have asserts : session.recoveryCache.insertAsserts letter.number wire = true := by
    have length : 0 < wire.length := List.length_pos_of_ne_nil nonempty
    simp [RecoveryCache.insertAsserts, within, fresh, length]
  have received : session.receive wire =
      ready.withCache (session.recoveryCache.insert letter.number wire) := by
    simp only [receive, readBy.noErrors, if_true]
    rw [dispatch_prepared running ⟨readBy.accepts, fun _ => established_of_state (.inr recovering)⟩
      wire, ← readyDef, checkSequence, number, prepared.nextIn_eq, if_neg (by omega), if_pos ahead,
      prepared.state_eq, if_pos recovering, prepared.cache_eq, if_pos within,
      if_neg (by simp [fresh])]
    simp only [cacheMessage, prepared.cache_eq, asserts, if_true]
  have cached := valid.insert within fresh nonempty
  have held := RecoveryCache.held_insert valid within nonempty
  have present : (session.recoveryCache.insert letter.number wire).contains letter.number = true :=
    (RecoveryCache.contains_insert within nonempty _).mpr (.inl rfl)
  have stays : (session.receive wire).drainRecoveryCache = session.receive wire := by
    have notEmpty : (session.recoveryCache.insert letter.number wire).empty = false := by
      by_contra empty
      have none := cached.empty_iff.mp (by simpa using empty) letter.number
      rw [RecoveryCache.held_eq_none_iff, present] at none
      cases none
    have absent : (session.recoveryCache.insert letter.number wire).contains
        session.seqProvider.nextIn = false := by
      by_contra found
      rcases (RecoveryCache.contains_insert within nonempty _).mp (by simpa using found) with
        same | before
      · omega
      · rw [missing] at before
        cases before
    have nextIn_eq : (ready.withCache (session.recoveryCache.insert letter.number
        wire)).seqProvider.nextIn = session.seqProvider.nextIn := prepared.nextIn_eq
    have state_eq : (ready.withCache (session.recoveryCache.insert letter.number wire)).state =
        .recoveringResend := prepared.state_eq.trans recovering
    have cache_eq : (ready.withCache (session.recoveryCache.insert letter.number
        wire)).recoveryCache = session.recoveryCache.insert letter.number wire := rfl
    rw [received, drainRecoveryCache, state_eq, cache_eq, notEmpty]
    simp [drainLoop, nextIn_eq, cache_eq, absent, notEmpty]
  intro after
  have afterEq : after = session.receive wire := stays
  rw [afterEq, received]
  exact ⟨prepared.stopped_eq.trans running, prepared.state_eq.trans recovering, prepared.nextIn_eq,
    cached, held, calm.sentMessages_eq⟩

/-- A message in its turn. -/
theorem Recovers.received (recovers : Recovers base next last held handled session)
    (shifts : Shifts session (session.receive wire) stop delivery) :
    Recovers base stop last held (handled ++ [delivery]) (session.receive wire) := by
  refine ⟨shifts.params_eq.trans recovers.params_eq, shifts.stopped_eq.trans recovers.running,
    shifts.state_eq.trans recovers.recovering, shifts.nextIn_eq, ?_, ?_, ?_⟩
  · rw [shifts.cache_eq]
    exact recovers.valid
  · rw [shifts.cache_eq]
    exact recovers.held_eq
  · rw [shifts.deliveries_eq, recovers.deliveries_eq, List.append_assoc]

/-- With nothing missing before it, the kept message is handled, and the recovery ends. -/
theorem Recovers.drain (recovers : Recovers base last last held handled session)
    (readBy : letter.ReadBy session held) (number_eq : letter.number = last)
    (plain : isPlainType letter.type = true) (room : last + 1 < word64) :
    Recovered base (last + 1) (handled ++ [delivered held]) session.drainRecoveryCache := by
  have established := established_of_state (.inr recovers.recovering)
  have turn : letter.number = session.seqProvider.nextIn := number_eq.trans recovers.nextIn_eq.symm
  have shifts := shifts_plain recovers.running established readBy turn plain
    (by rw [number_eq]; exact room)
  simp only [receive, readBy.noErrors, if_true] at shifts
  have present : session.recoveryCache.contains last = true := (recovers.contains_iff last).mpr rfl
  have get_eq : session.recoveryCache.get last = held := by
    have found := congrFun recovers.held_eq last
    rw [Function.update_self] at found
    exact (RecoveryCache.held_eq_some_iff.mp found).2
  have consumed := RecoveryCache.held_consume present
  rw [recovers.held_eq, Function.update_idem, Function.update_eq_self_iff.mpr rfl] at consumed
  have emptied : (session.recoveryCache.consume last).empty = true :=
    (recovers.valid.consume present).empty_iff.mpr fun n => by rw [consumed]
  have gone : (session.recoveryCache.consume last).contains (last + 1) = false := by
    rw [← RecoveryCache.held_eq_none_iff, consumed]
  obtain ⟨drained, drainedDef⟩ : ∃ drained, drained =
    session.drainOne (Parser.parse held).1 held := ⟨_, rfl⟩
  have drained_eq : drained = (session.dispatch (Parser.parse held).1 held).withCache
      (session.recoveryCache.consume last) := by
    rw [drainedDef, drainOne, shifts.cache_eq, recovers.nextIn_eq, if_pos present, shifts.cache_eq]
  have loop : session.drainRecoveryCache = drained.withState .active := by
    have next : drained.seqProvider.nextIn = last + 1 := by
      rw [drained_eq]
      exact shifts.nextIn_eq.trans (by rw [number_eq])
    have cache_eq : drained.recoveryCache = session.recoveryCache.consume last := by
      rw [drained_eq]
      rfl
    rw [drainRecoveryCache, recovers.not_empty, recovers.recovering]
    simp only [ne_eq, not_true_eq_false, decide_false, Bool.or_self, Bool.false_eq_true, if_false]
    rw [drainLoop, recovers.nextIn_eq, if_pos present, get_eq]
    simp only [readBy.noErrors, if_true]
    rw [← drainedDef, RecoveryCache.window, drainLoop, next, cache_eq, if_neg (by simp [gone]),
      if_pos emptied]
  rw [loop, drained_eq]
  refine ⟨shifts.params_eq.trans recovers.params_eq, shifts.stopped_eq.trans recovers.running, rfl,
    shifts.nextIn_eq.trans (by rw [number_eq]), emptied, ?_⟩
  rw [← List.append_assoc, ← recovers.deliveries_eq]
  exact shifts.deliveries_eq

end Recovery

section Answers

variable {base session : Session} {params : SessionParameters} {history : History} {first last : ℕ}
  {held : Bytes} {handled : List (Bytes × ℕ × Message)} {letter : Letter} {wires : List Bytes}

/-- The messages of the answer are handled, one for each that was missing, and then the kept one. -/
theorem Recovers.answers (answer : Answer params history last first wires)
    (presentable : params.Presentable) (mirrors : base.params.Mirrors params)
    (legible : letter.Legible) (written : letter.Written params held)
    (number_eq : letter.number = last + 1) (plain : isPlainType letter.type = true)
    (small : last + 2 < 2 ^ 63) (low : first ≤ last)
    (recovers : Recovers base first (last + 1) held handled session) :
    ∃ more, Recovered base (last + 2) (handled ++ more ++ [delivered held])
        (wires.foldl processWireMessage session) ∧
      more.filterMap applied = history.owedBetween first (last + 1) := by
  -- One message of the answer, and the rest of the answer after it.
  have goesOn : ∀ {first stop : ℕ} {wire : Bytes} {rest : List Bytes} {session : Session}
      {handled : List (Bytes × ℕ × Message)}, first < stop → stop ≤ last + 1 →
      Recovers base first (last + 1) held handled session →
      Shifts session (session.receive wire) stop (delivered wire) →
      (applied (delivered wire)).toList = history.owedBetween first stop →
      Answer params history last stop rest →
      (∀ {session : Session} {handled : List (Bytes × ℕ × Message)}, stop ≤ last →
        Recovers base stop (last + 1) held handled session →
        ∃ more, Recovered base (last + 2) (handled ++ more ++ [delivered held])
            (rest.foldl processWireMessage session) ∧
          more.filterMap applied = history.owedBetween stop (last + 1)) →
      ∃ more, Recovered base (last + 2) (handled ++ more ++ [delivered held])
          ((wire :: rest).foldl processWireMessage session) ∧
        more.filterMap applied = history.owedBetween first (last + 1) := by
    intro first stop wire rest session handled below high recovers shifts owes later ih
    have received := recovers.received shifts
    rw [List.foldl_cons]
    by_cases ends : stop = last + 1
    · subst ends
      have nothing : rest = [] := later.eq_nil
      have readBy : letter.ReadBy (session.receive wire) held := by
        refine written.readBy presentable ?_ legible
        rw [received.params_eq]
        exact mirrors
      refine ⟨[delivered wire], ?_, ?_⟩
      · rw [nothing]
        exact received.drain readBy number_eq plain (by simp only [word64]; omega)
      · rw [← owes]
        rcases owed : applied (delivered wire) with _ | pair <;> simp [owed]
    · have processed : session.processWireMessage wire = session.receive wire :=
        received.drain_eq ends
      rcases ih (by omega) received with ⟨more, recovered, same⟩
      rw [processed]
      refine ⟨delivered wire :: more, ?_, ?_⟩
      · rw [List.append_assoc, List.append_assoc] at recovered
        rw [List.append_assoc]
        exact recovered
      · rw [History.owedBetween_append below.le high, ← owes, ← same]
        rcases owed : applied (delivered wire) with _ | pair <;> simp [owed]
  induction answer generalizing session handled with
  | done => omega
  | @gapFill first stop time wire rest below high admin time_ne_nil noTime written later ih =>
      have readBy : (Letter.gapFill first stop time).ReadBy session wire := by
        refine written.readBy presentable ?_
          (Letter.legible_gapFill time_ne_nil noTime (by omega))
        rw [recovers.params_eq]
        exact mirrors
      have shifts := shifts_gapFill recovers.running (established_of_state (.inr recovers.recovering))
        readBy recovers.nextIn_eq.symm (by omega)
      refine goesOn below high recovers shifts ?_ later fun le recovers => ih le recovers
      rw [History.owedBetween_admin admin, applied_delivered readBy]
      rfl
  | @again first payload time wire rest high custom nonempty noDelimiter time_ne_nil noTime written
      later ih =>
      have readBy : (Letter.customAgain first payload time).ReadBy session wire := by
        refine written.readBy presentable ?_
          (Letter.legible_customAgain nonempty noDelimiter time_ne_nil noTime (by omega))
        rw [recovers.params_eq]
        exact mirrors
      have shifts := shifts_plain recovers.running (established_of_state (.inr recovers.recovering))
        readBy recovers.nextIn_eq.symm (by decide : isPlainType MessageFactory.customType = true)
        (by simp only [Letter.customAgain, word64]; omega)
      refine goesOn (Nat.lt_succ_self first) (by omega) recovers shifts ?_ later
        fun le recovers => ih le recovers
      rw [History.owedBetween_single, History.owed, custom, applied_delivered readBy,
        Letter.payload_customAgain]
      rfl

end Answers

end Session

end FixEngine
