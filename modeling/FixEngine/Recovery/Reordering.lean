import FixEngine.Lib.Resequencer
import FixEngine.Recovery.Cache
import FixEngine.Validation.History
import FixEngine.Session.Runs

/-!
# Reordering is invisible

During a recovery a session is a resequencer: the recovery cache holds what is ahead, and the
drain hands it out. The session simulates `Resequencer`, so whatever the order in which messages
of an interval arrive, their handlers are called in the order of their numbers.
-/

namespace FixEngine

/-- The messages handed to a handler, with their types and numbers, in order. -/
def deliveries (trace : List Event) : List (Bytes × ℕ × Message) :=
  trace.filterMap fun event =>
    match event with
    | .handled type seqNum message => some (type, seqNum, message)
    | _ => none

/-- The numbers of the messages handed to a handler, in order. -/
def handledNumbers (trace : List Event) : List ℕ := (deliveries trace).map fun d => d.2.1

/-- The faults of the recovery cache in a trace. -/
def cacheFaults (trace : List Event) : List Fault :=
  trace.filterMap fun event =>
    match event with
    | .fault reason => if reason.ofCache then some reason else none
    | _ => none

section Traces

variable {trace outputs : List Event}

@[simp]
theorem deliveries_append (front rest : List Event) :
    deliveries (front ++ rest) = deliveries front ++ deliveries rest := by
  simp [deliveries]

@[simp]
theorem handledNumbers_append (front rest : List Event) :
    handledNumbers (front ++ rest) = handledNumbers front ++ handledNumbers rest := by
  simp [handledNumbers]

@[simp]
theorem cacheFaults_append (front rest : List Event) :
    cacheFaults (front ++ rest) = cacheFaults front ++ cacheFaults rest := by
  simp [cacheFaults]

theorem deliveries_outputs (areOutputs : ∀ e ∈ outputs, e.isOutput = true) :
    deliveries outputs = [] := by
  rw [deliveries, List.filterMap_eq_nil_iff]
  intro e mem
  rcases Event.output_cases (areOutputs e mem) with ⟨type, wire, isResend, rfl⟩ | ⟨reason, rfl⟩
  · rfl
  · rfl

theorem cacheFaults_outputs (areOutputs : ∀ e ∈ outputs, e.isOutput = true) :
    cacheFaults outputs = [] := by
  rw [cacheFaults, List.filterMap_eq_nil_iff]
  intro e mem
  have := areOutputs e mem
  cases e <;> simp_all [Event.isOutput]

end Traces

namespace Session

section Messages

/-- A frame that sessions with these parameters take for a valid message of the given type. -/
structure Readable (params : SessionParameters) (wire type : Bytes) : Prop where
  parsed : (Parser.parse wire).2 = []
  notFatal : (({} : Validator).validateMessage (viewOf wire) params).results.severity ≠ .fatal
  noErrors : (({} : Validator).validateMessage (viewOf wire) params).results.errors = []
  type_eq : (viewOf wire).headerCache.msgType = some type
  numbered : (viewOf wire).headerCache.hasMsgSeqNum = true

/-- Heartbeat, TestRequest, Reject and Custom. -/
def isPlainType (type : Bytes) : Bool :=
  type = ascii "0" || type = ascii "1" || type = ascii "3" || type = MessageFactory.customType

variable {session : Session} {wire type : Bytes}

theorem Readable.accepts (readable : Readable session.params wire type) :
    session.Accepts (Parser.parse wire).1 type := by
  have same := session.validator.results_validateMessage (viewOf wire) session.params
  refine ⟨?_, ?_, readable.type_eq, readable.numbered⟩
  · rw [results, ← viewOf, same]
    exact readable.notFatal
  · rw [results, ← viewOf, same]
    exact readable.noErrors

theorem Readable.ne_nil {params : SessionParameters} (readable : Readable params wire type) :
    wire ≠ [] := by
  rintro rfl
  have := readable.parsed
  revert this
  decide

end Messages

/-- A message was handed to its handler, and what happened besides is output. -/
structure Delivers (before after : Session) (type : Bytes) (view : ValidMessageView) : Prop where
  params_eq : after.params = before.params
  state_eq : after.state = before.state
  stopped_eq : after.stopped = before.stopped
  nextIn_eq : after.seqProvider.nextIn = (view.headerCache.msgSeqNum + 1) % word64
  cache_eq : after.recoveryCache = before.recoveryCache
  deliveries_eq : deliveries after.trace =
    deliveries before.trace ++ [(type, view.headerCache.msgSeqNum, view.message)]
  faults_eq : cacheFaults after.trace = cacheFaults before.trace

section Dispatch

variable {session : Session} {wire type : Bytes} {view : ValidMessageView}

theorem Keeps.deliveries_eq {before after : Session} (keeps : Keeps before after) :
    deliveries after.trace = deliveries before.trace := by
  obtain ⟨outputs, traceEq, areOutputs⟩ := keeps.trace_eq
  rw [traceEq, deliveries_append, deliveries_outputs areOutputs, List.append_nil]

theorem Keeps.faults_eq {before after : Session} (keeps : Keeps before after) :
    cacheFaults after.trace = cacheFaults before.trace := by
  obtain ⟨outputs, traceEq, areOutputs⟩ := keeps.trace_eq
  rw [traceEq, cacheFaults_append, cacheFaults_outputs areOutputs, List.append_nil]

/-- The handlers of the plain types only send. -/
theorem keeps_handle_plain (session : Session) (view : ValidMessageView)
    (plain : isPlainType type = true) :
    Keeps (session.called type view) (session.handle type view) := by
  have notLogon : type ≠ ascii "A" := by rintro rfl; revert plain; decide
  have notLogout : type ≠ ascii "5" := by rintro rfl; revert plain; decide
  have notResend : type ≠ ascii "2" := by rintro rfl; revert plain; decide
  have notReset : type ≠ ascii "4" := by rintro rfl; revert plain; decide
  simp only [handle, notLogon, notLogout, notResend, notReset, if_false]
  split
  · exact keeps_handleHeartbeat _
  split
  · exact keeps_handleTestRequest _ _
  split
  · exact keeps_handleReject _ _
  split
  · exact keeps_handleCustom _ _
  · exact .refl _

theorem receive_readable (readable : Readable session.params wire type) :
    session.receive wire = session.dispatch (Parser.parse wire).1 wire := by
  simp only [receive, readable.parsed, if_true]

/-- A valid message that is admitted gets to the sequence checks. -/
theorem dispatch_readable (running : session.stopped = false)
    (live : session.established = true) (readable : Readable session.params wire type) :
    ∃ ready, Keeps session ready ∧ session.dispatch (Parser.parse wire).1 wire =
      ready.checkSequence type (viewOf wire) wire := by
  obtain ⟨validated, keeps, dispatchEq⟩ := dispatch_accepted running readable.accepts wire
  obtain ⟨ready, keepsReady, validEq⟩ := dispatchValid_admitted (viewOf wire) wire
    fun _ : isAppMessageType type = true => keeps.established_eq.trans live
  exact ⟨ready, keeps.trans keepsReady, dispatchEq.trans validEq⟩

theorem dispatch_delivers (running : session.stopped = false)
    (live : session.established = true) (readable : Readable session.params wire type)
    (plain : isPlainType type = true) (turn : numberOf wire = session.seqProvider.nextIn) :
    Delivers session (session.dispatch (Parser.parse wire).1 wire) type (viewOf wire) := by
  obtain ⟨ready, keeps, dispatchEq⟩ := dispatch_readable running live readable
  have turnReady : (viewOf wire).headerCache.msgSeqNum = ready.seqProvider.nextIn :=
    turn.trans keeps.nextIn_eq.symm
  have handled := keeps_handle_plain
    (ready.updateIn ((viewOf wire).headerCache.msgSeqNum + 1)) (viewOf wire) plain
  have sequenceEq : ready.checkSequence type (viewOf wire) wire =
      (ready.updateIn ((viewOf wire).headerCache.msgSeqNum + 1)).handle type (viewOf wire) := by
    simp only [checkSequence, turnReady, if_true]
  rw [dispatchEq, sequenceEq]
  refine ⟨?_, ?_, ?_, ?_, ?_, ?_, ?_⟩
  · exact handled.params_eq.trans keeps.params_eq
  · exact handled.state_eq.trans keeps.state_eq
  · exact handled.stopped_eq.trans keeps.stopped_eq
  · rw [handled.nextIn_eq]
    rfl
  · exact handled.cache_eq.trans keeps.cache_eq
  · rw [handled.deliveries_eq, ← keeps.deliveries_eq]
    exact deliveries_append _ _
  · rw [handled.faults_eq, ← keeps.faults_eq]
    exact (cacheFaults_append _ _).trans (List.append_nil _)

end Dispatch

section Simulation

/-- The session has done what the resequencer has, starting from `base`. -/
structure Follows (base : Session) (buffer : Resequencer Bytes) (session : Session) : Prop where
  running : session.stopped = false
  params_eq : session.params = base.params
  next_eq : session.seqProvider.nextIn = buffer.next
  handled_eq : handledNumbers session.trace = handledNumbers base.trace ++ buffer.handed
  faults_eq : cacheFaults session.trace = cacheFaults base.trace

/-- Nothing is ahead. -/
structure FollowsActive (base : Session) (buffer : Resequencer Bytes) (session : Session) : Prop
    extends Follows base buffer session where
  active : session.state = .active
  cacheEmpty : session.recoveryCache.empty = true
  ahead_eq : buffer.ahead = fun _ => none

/-- The cache holds what is ahead; its window starts in the interval, at most at the expected
number. -/
structure FollowsRecovering (base : Session) (first : ℕ) (buffer : Resequencer Bytes)
    (session : Session) : Prop extends Follows base buffer session where
  recovering : session.state = .recoveringResend
  valid : session.recoveryCache.Valid
  held_eq : session.recoveryCache.held = buffer.ahead
  first_le : first ≤ session.recoveryCache.baseOffset
  le_next : session.recoveryCache.baseOffset ≤ buffer.next

/-- The session is where the buffer is: ACTIVE with nothing held back, or recovering with something.
-/
inductive Simulates (base : Session) (first : ℕ) (buffer : Resequencer Bytes)
    (session : Session) : Prop
  | active (follows : FollowsActive base buffer session)
  | recovering (follows : FollowsRecovering base first buffer session)
      (nonempty : ∃ n, buffer.ahead n ≠ none)

/-- A frame of the interval that may be reordered. -/
structure InInterval (params : SessionParameters) (first last : ℕ) (wire : Bytes) : Prop where
  readable : ∃ type, Readable params wire type ∧ isPlainType type = true
  first_le : first ≤ numberOf wire
  le_last : numberOf wire ≤ last

/-- Everything ahead is a frame of the interval, under its own number. -/
def Holds (params : SessionParameters) (first last : ℕ) (buffer : Resequencer Bytes) : Prop :=
  ∀ n wire, buffer.ahead n = some wire → InInterval params first last wire ∧ numberOf wire = n

variable {base session : Session} {first last : ℕ} {buffer : Resequencer Bytes} {wire : Bytes}

theorem established_of_state
    (live : session.state = .active ∨ session.state = .recoveringResend) :
    session.established = true := by
  rcases live with state | state <;> simp [established, state]

theorem Follows.keeps {after : Session} (follows : Follows base buffer session)
    (keeps : Keeps session after) : Follows base buffer after where
  running := keeps.stopped_eq.trans follows.running
  params_eq := keeps.params_eq.trans follows.params_eq
  next_eq := keeps.nextIn_eq.trans follows.next_eq
  handled_eq := by
    rw [← follows.handled_eq, handledNumbers, handledNumbers, keeps.deliveries_eq]
  faults_eq := keeps.faults_eq.trans follows.faults_eq

/-- Delivering the next message is handing it out. -/
theorem Follows.delivers {after : Session} {type : Bytes} (follows : Follows base buffer session)
    (delivers : Delivers session after type (viewOf wire)) (turn : numberOf wire = buffer.next)
    (room : buffer.next + 1 < word64) (ahead : ℕ → Option Bytes) :
    Follows base { buffer.hand with ahead := ahead } after where
  running := delivers.stopped_eq.trans follows.running
  params_eq := delivers.params_eq.trans follows.params_eq
  next_eq := by
    rw [delivers.nextIn_eq, ← numberOf, turn, Nat.mod_eq_of_lt room]
    rfl
  handled_eq := by
    have handled := follows.handled_eq
    simp only [handledNumbers] at handled ⊢
    rw [delivers.deliveries_eq, List.map_append, handled, Resequencer.hand, ← turn]
    simp [numberOf]
  faults_eq := delivers.faults_eq.trans follows.faults_eq

/-- One round of the drain releases one item. -/
theorem FollowsRecovering.drainOne (follows : FollowsRecovering base first buffer session)
    (inside : InInterval base.params first last wire) (turn : numberOf wire = buffer.next)
    (held : buffer.ahead buffer.next = some wire) (room : buffer.next + 1 < word64) :
    FollowsRecovering base first buffer.release
      (session.drainOne (Parser.parse wire).1 wire) := by
  obtain ⟨type, readable, plain⟩ := inside.readable
  have delivers := dispatch_delivers follows.running (established_of_state (.inr follows.recovering))
    (by rwa [follows.params_eq]) plain (turn.trans follows.next_eq.symm)
  have present : session.recoveryCache.contains session.seqProvider.nextIn = true := by
    rw [← follows.held_eq, ← follows.next_eq] at held
    exact (RecoveryCache.held_eq_some_iff.mp held).1
  simp only [Session.drainOne, delivers.cache_eq, present, if_true]
  have dispatched := follows.delivers delivers turn room
    (Function.update buffer.ahead buffer.next none)
  refine ⟨⟨dispatched.running, dispatched.params_eq, dispatched.next_eq, dispatched.handled_eq,
    dispatched.faults_eq⟩, ?_, ?_, ?_, ?_, ?_⟩
  · exact delivers.state_eq.trans follows.recovering
  · exact follows.valid.consume present
  · exact (RecoveryCache.held_consume present).trans
      (by rw [follows.held_eq, follows.next_eq]; rfl)
  · exact follows.first_le
  · exact Nat.le_succ_of_le follows.le_next

theorem holds_release (holds : Holds base.params first last buffer) :
    Holds base.params first last buffer.release := by
  intro n wire held
  by_cases same : n = buffer.next
  · simp [Resequencer.release, same] at held
  · exact holds n wire (by simpa [Resequencer.release, same] using held)

/-- The drain of the cache is the drain of the resequencer. -/
theorem simulates_drainLoop {rounds : ℕ} (follows : FollowsRecovering base first buffer session)
    (holds : Holds base.params first last buffer) (room : last + 1 < word64)
    (enough : ∀ n, buffer.ahead n ≠ none → n + 1 < buffer.next + rounds) (some : 0 < rounds) :
    Simulates base first (buffer.drain rounds) (drainLoop rounds session) := by
  induction rounds generalizing buffer session with
  | zero => omega
  | succ rounds ih =>
      simp only [drainLoop, Resequencer.drain]
      cases held : buffer.ahead buffer.next with
      | none =>
          have absent : session.recoveryCache.contains session.seqProvider.nextIn = false := by
            rw [← RecoveryCache.held_eq_none_iff, follows.held_eq, follows.next_eq, held]
          simp only [absent, Bool.false_eq_true, if_false, Option.isSome_none]
          by_cases empty : session.recoveryCache.empty = true
          · rw [if_pos empty]
            refine .active ⟨⟨follows.running, follows.params_eq, follows.next_eq,
              follows.handled_eq, follows.faults_eq⟩, rfl, empty, funext fun n => ?_⟩
            rw [← follows.held_eq]
            exact follows.valid.empty_iff.mp empty n
          · rw [if_neg empty]
            refine .recovering follows ?_
            by_contra nothing
            refine empty (follows.valid.empty_iff.mpr fun n => ?_)
            rw [follows.held_eq]
            by_contra present
            exact nothing ⟨n, present⟩
      | some wire =>
          have cached : session.recoveryCache.held session.seqProvider.nextIn = .some wire := by
            rw [follows.held_eq, follows.next_eq, held]
          obtain ⟨present, getEq⟩ := RecoveryCache.held_eq_some_iff.mp cached
          obtain ⟨inside, turn⟩ := holds _ wire held
          obtain ⟨type, readable, -⟩ := inside.readable
          have released := follows.drainOne inside turn held (by have := inside.le_last; omega)
          simp only [present, if_true, getEq, readable.parsed, Option.isSome_some]
          have now := enough buffer.next (by rw [held]; simp)
          refine ih released (holds_release holds) (fun n present => ?_) (by omega)
          have earlier : buffer.ahead n ≠ none := fun missing => present (by
            by_cases same : n = buffer.next
            · simp [Resequencer.release, same]
            · simpa [Resequencer.release, same] using missing)
          have := enough n earlier
          simp only [Resequencer.release, Resequencer.hand]
          omega

/-- The cache drained after a frame, when something is ahead. -/
theorem simulates_drainRecoveryCache (follows : FollowsRecovering base first buffer session)
    (nonempty : ∃ n, buffer.ahead n ≠ none) (holds : Holds base.params first last buffer)
    (first_le : first ≤ buffer.next) (short : last < first + RecoveryCache.window)
    (room : last + 1 < word64) :
    Simulates base first (buffer.drain (RecoveryCache.window + 1)) session.drainRecoveryCache := by
  have filled : session.recoveryCache.empty = false := by
    by_contra empty
    obtain ⟨n, present⟩ := nonempty
    rw [← follows.held_eq] at present
    exact present (follows.valid.empty_iff.mp (by simpa using empty) n)
  rw [drainRecoveryCache, if_neg (by simp [filled, follows.recovering])]
  refine simulates_drainLoop follows holds room (fun n present => ?_) (Nat.succ_pos _)
  obtain ⟨wire, held⟩ := Option.ne_none_iff_exists'.mp present
  obtain ⟨inside, rfl⟩ := holds n wire held
  have := inside.le_last
  omega

theorem drain_of_waits (rounds : ℕ) (waits : buffer.Waits) : buffer.drain rounds = buffer := by
  cases rounds with
  | zero => rfl
  | succ rounds => simp [Resequencer.drain, Resequencer.Waits.eq_1 buffer ▸ waits]

theorem holds_hold (holds : Holds base.params first last buffer)
    (inside : InInterval base.params first last wire) :
    Holds base.params first last (buffer.hold (numberOf wire) wire) := by
  intro n wire' held
  by_cases same : n = numberOf wire
  · have eq : wire = wire' := by simpa [Resequencer.hold, same] using held
    subst eq
    exact ⟨inside, same.symm⟩
  · exact holds n wire' (by simpa [Resequencer.hold, same] using held)

/-- Putting a message into the cache is holding it back. -/
theorem FollowsRecovering.cacheMessage (follows : FollowsRecovering base first buffer session)
    (inside : InInterval base.params first last wire) (short : last < first + RecoveryCache.window)
    (ahead : buffer.next < numberOf wire) (fresh : buffer.ahead (numberOf wire) = none) :
    FollowsRecovering base first (buffer.hold (numberOf wire) wire)
      (session.cacheMessage (numberOf wire) wire) := by
  obtain ⟨type, readable, -⟩ := inside.readable
  have within : session.recoveryCache.inWindow (numberOf wire) = true := by
    have := follows.first_le
    have := follows.le_next
    have := inside.le_last
    exact RecoveryCache.inWindow_iff.mpr ⟨by omega, by omega⟩
  have absent : session.recoveryCache.contains (numberOf wire) = false := by
    rw [← RecoveryCache.held_eq_none_iff, follows.held_eq, fresh]
  have asserts : session.recoveryCache.insertAsserts (numberOf wire) wire = true := by
    simp [RecoveryCache.insertAsserts, within, absent, readable.ne_nil, List.length_pos_iff]
  simp only [Session.cacheMessage, asserts, if_true]
  refine ⟨⟨follows.running, follows.params_eq, follows.next_eq, follows.handled_eq,
    follows.faults_eq⟩, follows.recovering, follows.valid.insert within absent readable.ne_nil,
    ?_, ?_, ?_⟩
  · exact (RecoveryCache.held_insert follows.valid within readable.ne_nil).trans
      (by rw [follows.held_eq]; rfl)
  · exact follows.first_le.trans_eq RecoveryCache.baseOffset_insert.symm
  · exact RecoveryCache.baseOffset_insert.trans_le follows.le_next

/-- From an active session, a gap starts a recovery that holds the message alone. -/
theorem FollowsActive.beginRecovery (follows : FollowsActive base buffer session)
    (first_le : first ≤ buffer.next) :
    FollowsRecovering base first buffer
      ((session.withState .recoveringResend).withCache
        (session.recoveryCache.start session.seqProvider.nextIn)) := by
  refine ⟨⟨follows.running, follows.params_eq, follows.next_eq, follows.handled_eq,
    follows.faults_eq⟩, rfl, RecoveryCache.valid_start _ _, ?_, ?_, ?_⟩
  · exact (RecoveryCache.held_start _ _).trans follows.ahead_eq.symm
  · exact first_le.trans_eq (follows.next_eq.symm.trans (RecoveryCache.baseOffset_start _ _).symm)
  · exact ((RecoveryCache.baseOffset_start _ _).trans follows.next_eq).le

theorem FollowsRecovering.keeps {after : Session}
    (follows : FollowsRecovering base first buffer session) (keeps : Keeps session after) :
    FollowsRecovering base first buffer after where
  toFollows := follows.toFollows.keeps keeps
  recovering := keeps.state_eq.trans follows.recovering
  valid := by rw [keeps.cache_eq]; exact follows.valid
  held_eq := by rw [keeps.cache_eq]; exact follows.held_eq
  first_le := by rw [keeps.cache_eq]; exact follows.first_le
  le_next := by rw [keeps.cache_eq]; exact follows.le_next

theorem FollowsActive.keeps {after : Session} (follows : FollowsActive base buffer session)
    (keeps : Keeps session after) : FollowsActive base buffer after where
  toFollows := follows.toFollows.keeps keeps
  active := keeps.state_eq.trans follows.active
  cacheEmpty := by rw [keeps.cache_eq]; exact follows.cacheEmpty
  ahead_eq := follows.ahead_eq

theorem FollowsActive.drain_eq (follows : FollowsActive base buffer session) :
    session.drainRecoveryCache = session := by
  rw [drainRecoveryCache, if_pos (by simp [follows.active])]

/-- A frame for an active session. -/
theorem FollowsActive.processWireMessage (follows : FollowsActive base buffer session)
    (inside : InInterval base.params first last wire) (first_le : first ≤ buffer.next)
    (short : last < first + RecoveryCache.window) (room : last + 1 < word64)
    (dup : numberOf wire < buffer.next → (viewOf wire).headerCache.possDupFlag = some (ascii "Y")) :
    Simulates base first (buffer.receive (RecoveryCache.window + 1) (numberOf wire) wire)
      (session.processWireMessage wire) := by
  obtain ⟨type, readableBase, plain⟩ := inside.readable
  have readable : Readable session.params wire type := by rwa [follows.params_eq]
  have live := established_of_state (.inl follows.active)
  have empty : Holds base.params first last buffer := fun n wire held => by
    simp [follows.ahead_eq] at held
  rw [Session.processWireMessage, receive_readable readable, Resequencer.receive]
  by_cases turn : numberOf wire = buffer.next
  · have delivers := dispatch_delivers follows.running live readable plain
      (turn.trans follows.next_eq.symm)
    have next : FollowsActive base buffer.hand (session.dispatch (Parser.parse wire).1 wire) :=
      ⟨follows.delivers delivers turn (by have := inside.le_last; omega) _,
        delivers.state_eq.trans follows.active, by rw [delivers.cache_eq]; exact follows.cacheEmpty,
        follows.ahead_eq⟩
    have waits : buffer.hand.Waits := by simp [Resequencer.Waits, next.ahead_eq]
    rw [if_pos turn, drain_of_waits _ waits, next.drain_eq]
    exact .active next
  rw [if_neg turn]
  obtain ⟨ready, keeps, dispatchEq⟩ := dispatch_readable follows.running live readable
  have followsReady := follows.keeps keeps
  have seq : (viewOf wire).headerCache.msgSeqNum = numberOf wire := rfl
  simp only [dispatchEq, checkSequence, followsReady.next_eq, seq, turn, if_false]
  by_cases ahead : buffer.next < numberOf wire
  · have fresh : buffer.ahead (numberOf wire) = none := by rw [follows.ahead_eq]
    have notRecovering : ready.state ≠ .recoveringResend := by simp [followsReady.active]
    obtain ⟨requested, keepsRequested, beginEq⟩ := ready.beginRecovery_eq (numberOf wire) wire
    rw [if_pos ahead, if_neg notRecovering, if_pos ⟨ahead, fresh⟩, beginEq,
      ← keepsRequested.cache_eq, ← keepsRequested.nextIn_eq]
    have recovering := ((followsReady.keeps keepsRequested).beginRecovery first_le).cacheMessage
      inside short ahead fresh
    have held : (buffer.hold (numberOf wire) wire).ahead (numberOf wire) ≠ none := by
      simp [Resequencer.hold]
    have waits : (buffer.hold (numberOf wire) wire).Waits := by
      simp [Resequencer.Waits, Resequencer.hold, Ne.symm turn, follows.ahead_eq]
    rw [← drain_of_waits (RecoveryCache.window + 1) waits]
    exact simulates_drainRecoveryCache recovering ⟨_, held⟩ (holds_hold empty inside) first_le
      short room
  · have behind : numberOf wire < buffer.next := by omega
    rw [if_neg ahead, if_pos (dup behind), if_neg (fun fresh => ahead fresh.1),
      followsReady.drain_eq]
    exact .active followsReady

/-- A frame for a recovering session. -/
theorem FollowsRecovering.processWireMessage
    (follows : FollowsRecovering base first buffer session)
    (nonempty : ∃ n, buffer.ahead n ≠ none) (holds : Holds base.params first last buffer)
    (waits : buffer.Waits) (inside : InInterval base.params first last wire)
    (short : last < first + RecoveryCache.window) (room : last + 1 < word64)
    (dup : numberOf wire < buffer.next → (viewOf wire).headerCache.possDupFlag = some (ascii "Y")) :
    Simulates base first (buffer.receive (RecoveryCache.window + 1) (numberOf wire) wire)
      (session.processWireMessage wire) := by
  obtain ⟨type, readableBase, plain⟩ := inside.readable
  have readable : Readable session.params wire type := by rwa [follows.params_eq]
  have live := established_of_state (.inr follows.recovering)
  have first_le : first ≤ buffer.next := follows.first_le.trans follows.le_next
  rw [Session.processWireMessage, receive_readable readable, Resequencer.receive]
  by_cases turn : numberOf wire = buffer.next
  · have delivers := dispatch_delivers follows.running live readable plain
      (turn.trans follows.next_eq.symm)
    have next : FollowsRecovering base first buffer.hand
        (session.dispatch (Parser.parse wire).1 wire) := by
      refine ⟨follows.delivers delivers turn (by have := inside.le_last; omega) _,
        delivers.state_eq.trans follows.recovering, ?_, ?_, ?_, ?_⟩
      · rw [delivers.cache_eq]; exact follows.valid
      · rw [delivers.cache_eq]; exact follows.held_eq
      · rw [delivers.cache_eq]; exact follows.first_le
      · rw [delivers.cache_eq]; exact Nat.le_succ_of_le follows.le_next
    rw [if_pos turn]
    exact simulates_drainRecoveryCache next nonempty holds (Nat.le_succ_of_le first_le) short room
  rw [if_neg turn]
  obtain ⟨ready, keeps, dispatchEq⟩ := dispatch_readable follows.running live readable
  have followsReady := follows.keeps keeps
  have seq : (viewOf wire).headerCache.msgSeqNum = numberOf wire := rfl
  -- Nothing changed: the next message is still missing, so the drain does nothing.
  have unchanged : Simulates base first buffer ready.drainRecoveryCache := by
    rw [← drain_of_waits (RecoveryCache.window + 1) waits]
    exact simulates_drainRecoveryCache followsReady nonempty holds first_le short room
  simp only [dispatchEq, checkSequence, followsReady.next_eq, seq, turn, if_false]
  by_cases ahead : buffer.next < numberOf wire
  · have within : ready.recoveryCache.inWindow (numberOf wire) = true := by
      have := followsReady.first_le
      have := followsReady.le_next
      have := inside.le_last
      exact RecoveryCache.inWindow_iff.mpr ⟨by omega, by omega⟩
    rw [if_pos ahead, if_pos followsReady.recovering, if_pos within]
    by_cases fresh : buffer.ahead (numberOf wire) = none
    · have absent : ready.recoveryCache.contains (numberOf wire) = false := by
        rw [← RecoveryCache.held_eq_none_iff, followsReady.held_eq, fresh]
      rw [if_pos ⟨ahead, fresh⟩, if_neg (by simp [absent])]
      have cached := followsReady.cacheMessage inside short ahead fresh
      have held : (buffer.hold (numberOf wire) wire).ahead (numberOf wire) ≠ none := by
        simp [Resequencer.hold]
      have stillWaits : (buffer.hold (numberOf wire) wire).Waits := by
        have missing : buffer.ahead buffer.next = none := waits
        simpa [Resequencer.Waits, Resequencer.hold, Ne.symm turn] using missing
      rw [← drain_of_waits (RecoveryCache.window + 1) stillWaits]
      exact simulates_drainRecoveryCache cached ⟨_, held⟩ (holds_hold holds inside) first_le
        short room
    · have present : ready.recoveryCache.contains (numberOf wire) = true := by
        by_contra absent
        refine fresh ?_
        rw [← followsReady.held_eq]
        exact RecoveryCache.held_eq_none_iff.mpr (by simpa using absent)
      rw [if_pos present, if_neg (fun both => fresh both.2)]
      exact unchanged
  · have behind : numberOf wire < buffer.next := by omega
    rw [if_neg ahead, if_pos (dup behind), if_neg (fun fresh => ahead fresh.1)]
    exact unchanged

end Simulation

section Arrivals

/-- A frame of the interval that arrives at `session` in a run from `base`: a copy of a message
that has been handled since is marked as a possible duplicate. -/
structure Arrives (base : Session) (first last : ℕ) (session : Session) (wire : Bytes) : Prop where
  inside : InInterval base.params first last wire
  marked : numberOf wire ∈
      (handledNumbers session.trace).drop (handledNumbers base.trace).length →
    (viewOf wire).headerCache.possDupFlag = some (ascii "Y")

/-- What is known in the middle of such a run, when the numbers in `arrived` have arrived. -/
structure Progress (base : Session) (first last : ℕ) (arrived : Set ℕ)
    (buffer : Resequencer Bytes) (session : Session) : Prop where
  simulates : Simulates base first buffer session
  tracks : buffer.Tracks first arrived
  waits : buffer.Waits
  holds : Holds base.params first last buffer
  inside : ∀ n ∈ arrived, first ≤ n ∧ n ≤ last

variable {base session : Session} {first last : ℕ} {arrived : Set ℕ} {buffer : Resequencer Bytes}
  {wire : Bytes}

theorem Simulates.follows (simulates : Simulates base first buffer session) :
    Follows base buffer session := by
  cases simulates with
  | active follows => exact follows.toFollows
  | recovering follows _ => exact follows.toFollows

theorem holds_drain {rounds : ℕ} (holds : Holds base.params first last buffer) :
    Holds base.params first last (buffer.drain rounds) := by
  induction rounds generalizing buffer with
  | zero => exact holds
  | succ rounds ih =>
      rw [Resequencer.drain]
      split
      · exact ih (holds_release holds)
      · exact holds

theorem holds_receive {rounds : ℕ} (holds : Holds base.params first last buffer)
    (inside : InInterval base.params first last wire) :
    Holds base.params first last (buffer.receive rounds (numberOf wire) wire) := by
  rw [Resequencer.receive]
  split
  · exact holds_drain holds
  split
  · exact holds_hold holds inside
  · exact holds

/-- A number below the expected one has been handled. -/
theorem Progress.handled (progress : Progress base first last arrived buffer session)
    (first_le : first ≤ numberOf wire) (behind : numberOf wire < buffer.next) :
    numberOf wire ∈ (handledNumbers session.trace).drop (handledNumbers base.trace).length := by
  rw [progress.simulates.follows.handled_eq, List.drop_left, progress.tracks.handed_eq,
    List.mem_range'_1]
  omega

theorem Progress.processWireMessage (progress : Progress base first last arrived buffer session)
    (arrives : Arrives base first last session wire)
    (short : last < first + RecoveryCache.window) (room : last + 1 < word64) :
    Progress base first last (Insert.insert (numberOf wire) arrived)
      (buffer.receive (RecoveryCache.window + 1) (numberOf wire) wire)
      (session.processWireMessage wire) where
  simulates := by
    have dup := fun behind =>
      arrives.marked (progress.handled arrives.inside.first_le behind)
    cases progress.simulates with
    | active follows =>
        exact follows.processWireMessage arrives.inside progress.tracks.first_le short room dup
    | recovering follows nonempty =>
        exact follows.processWireMessage nonempty progress.holds progress.waits arrives.inside short
          room dup
  tracks := progress.tracks.receive progress.waits arrives.inside.first_le
  waits := by
    refine Resequencer.waits_receive progress.waits fun n held => ?_
    have := progress.inside n ((progress.tracks.ahead_iff n).mp held).1
    have := progress.tracks.first_le
    omega
  holds := holds_receive progress.holds arrives.inside
  inside := by
    rintro n (rfl | known)
    · exact ⟨arrives.inside.first_le, arrives.inside.le_last⟩
    · exact progress.inside n known

theorem Progress.run {wires : List Bytes}
    (progress : Progress base first last arrived buffer session)
    (short : last < first + RecoveryCache.window) (room : last + 1 < word64)
    (arrivals : Runs.Meets Session.processWireMessage (Arrives base first last) session wires) :
    ∃ buffer', Progress base first last (arrived ∪ {n | ∃ wire ∈ wires, numberOf wire = n}) buffer'
      (wires.foldl Session.processWireMessage session) := by
  induction wires generalizing session buffer arrived with
  | nil => exact ⟨buffer, by simpa using progress⟩
  | cons wire rest ih =>
      obtain ⟨buffer', progress'⟩ :=
        ih (progress.processWireMessage arrivals.1 short room) arrivals.2
      refine ⟨buffer', ?_⟩
      have union : Insert.insert (numberOf wire) arrived ∪ {n | ∃ wire ∈ rest, numberOf wire = n} =
          arrived ∪ {n | ∃ wire' ∈ wire :: rest, numberOf wire' = n} := by
        ext n
        simp only [Set.mem_union, Set.mem_insert_iff, Set.mem_ofPred_eq, List.mem_cons,
          exists_eq_or_imp]
        tauto
      rw [← union]
      exact progress'

theorem progress_start (running : session.stopped = false) (active : session.state = .active)
    (next : session.seqProvider.nextIn = first) (cacheEmpty : session.recoveryCache.empty = true)
    (last : ℕ) : Progress session first last ∅ (.start first) session where
  simulates := .active ⟨⟨running, rfl, next, by simp [Resequencer.start], rfl⟩, active, cacheEmpty,
    rfl⟩
  tracks := Resequencer.tracks_start first
  waits := rfl
  holds := fun n wire held => by simp [Resequencer.start] at held
  inside := by simp

/-- Whatever the order in which the messages of an interval arrive at an active session, and
however often, their handlers are called in the order of their numbers; when all have arrived
the session is active again and expects the number after the interval. -/
theorem reordering_invisible (session : Session) (first last : ℕ) (wires : List Bytes)
    (running : session.stopped = false) (active : session.state = .active)
    (next : session.seqProvider.nextIn = first) (cacheEmpty : session.recoveryCache.empty = true)
    (nonempty : first ≤ last) (short : last - first < RecoveryCache.window)
    (room : last + 1 < word64)
    (arrivals : Runs.Meets processWireMessage (Arrives session first last) session wires) :
    let after := wires.foldl processWireMessage session
    handledNumbers after.trace = handledNumbers session.trace ++
        List.range' first (after.seqProvider.nextIn - first) ∧
      cacheFaults after.trace = cacheFaults session.trace ∧
      ((∀ n, first ≤ n → n ≤ last → ∃ wire ∈ wires, numberOf wire = n) →
        handledNumbers after.trace = handledNumbers session.trace ++
            List.range' first (last + 1 - first) ∧
          after.seqProvider.nextIn = last + 1 ∧ after.recoveryCache.empty = true ∧
          after.state = .active) := by
  intro after
  obtain ⟨buffer, progress⟩ := (progress_start running active next cacheEmpty last).run
    (by omega) room arrivals
  have follows := progress.simulates.follows
  have handled : handledNumbers after.trace = handledNumbers session.trace ++
      List.range' first (after.seqProvider.nextIn - first) := by
    rw [follows.handled_eq, progress.tracks.handed_eq, follows.next_eq]
  refine ⟨handled, follows.faults_eq, fun all => ?_⟩
  obtain ⟨nextEq, aheadEq⟩ := progress.tracks.complete progress.waits last
    (fun n => ⟨progress.inside n, fun within => .inr (all n within.1 within.2)⟩) nonempty
  have nextIn : after.seqProvider.nextIn = last + 1 := follows.next_eq.trans nextEq
  refine ⟨by rw [handled, nextIn], nextIn, ?_⟩
  cases progress.simulates with
  | active idle => exact ⟨idle.cacheEmpty, idle.active⟩
  | recovering _ held =>
      obtain ⟨n, present⟩ := held
      simp [aheadEq] at present

end Arrivals

section Example

instance (params : SessionParameters) (wire type : Bytes) : Decidable (Readable params wire type) :=
  decidable_of_iff
    ((Parser.parse wire).2 = [] ∧
      (({} : Validator).validateMessage (viewOf wire) params).results.severity ≠ .fatal ∧
      (({} : Validator).validateMessage (viewOf wire) params).results.errors = [] ∧
      (viewOf wire).headerCache.msgType = some type ∧
      (viewOf wire).headerCache.hasMsgSeqNum = true)
    ⟨fun ⟨parsed, notFatal, noErrors, type_eq, numbered⟩ =>
        ⟨parsed, notFatal, noErrors, type_eq, numbered⟩,
      fun readable => ⟨readable.parsed, readable.notFatal, readable.noErrors, readable.type_eq,
        readable.numbered⟩⟩

/-- A heartbeat marked as a possible duplicate. -/
def peerDuplicate (seqNum : ℕ) : Bytes := peerWire (ascii "0") seqNum [⟨43, ascii "Y"⟩]

/-- The initiator after the Logon and a SequenceReset to the given number. -/
def initiatorAt (next : ℕ) : Session :=
  (Session.new 0 .initiator { senderCompId := ascii "A", targetCompId := ascii "B" }
    .standard).run
    [.setConnection 0, .start .normal,
      .frame (peerWire (ascii "A") 1 [⟨98, ascii "0"⟩, ⟨108, ascii "30"⟩]),
      .frame (peerWire (ascii "4") 2 [⟨36, decimal next⟩])]

theorem reordering_invisible_swapped :
    let after := [peerHeartbeat 6, peerHeartbeat 5, peerDuplicate 6].foldl processWireMessage
      (initiatorAt 5)
    after.seqProvider.nextIn = 7 ∧ after.recoveryCache.empty = true ∧ after.state = .active :=
  ((reordering_invisible (initiatorAt 5) 5 6 [peerHeartbeat 6, peerHeartbeat 5, peerDuplicate 6]
    (by decide +kernel) (by decide +kernel) (by decide +kernel) (by decide +kernel) (by decide)
    (by decide) (by decide)
    ⟨⟨⟨⟨ascii "0", by decide +kernel⟩, by decide +kernel, by decide +kernel⟩, by decide +kernel⟩,
      ⟨⟨⟨ascii "0", by decide +kernel⟩, by decide +kernel, by decide +kernel⟩, by decide +kernel⟩,
      ⟨⟨⟨ascii "0", by decide +kernel⟩, by decide +kernel, by decide +kernel⟩, by decide +kernel⟩,
      trivial⟩).2.2 (by
        intro n ge le
        interval_cases n
        · exact ⟨peerHeartbeat 5, by simp, by decide +kernel⟩
        · exact ⟨peerHeartbeat 6, by simp, by decide +kernel⟩)).2

/-- The peer's Logout arrives ahead of its number and is handled in the drain: the session is
stopped, and active all the same. -/
def stoppedInDrain : Session :=
  (initiatorAt 5).run [.frame (peerWire (ascii "5") 6 []), .frame (peerHeartbeat 5)]

/-- With the largest number there is the expected number wraps to 0, so a marked copy of the
message that was just handled is taken for a gap; and a session that was stopped in the drain
is active but handles nothing. -/
theorem reordering_visible :
    (let session := initiatorAt (2 ^ 64 - 1)
      let wires := [peerHeartbeat (2 ^ 64 - 1), peerDuplicate (2 ^ 64 - 1)]
      session.stopped = false ∧ session.state = .active ∧
        session.seqProvider.nextIn = 2 ^ 64 - 1 ∧ session.recoveryCache.empty = true ∧
        (∀ wire ∈ wires, Readable session.params wire (ascii "0") ∧
          numberOf wire = 2 ^ 64 - 1) ∧
        (viewOf (peerDuplicate (2 ^ 64 - 1))).headerCache.possDupFlag = some (ascii "Y") ∧
        (wires.foldl processWireMessage session).state = .recoveringResend ∧
        (wires.foldl processWireMessage session).recoveryCache.empty = false) ∧
      stoppedInDrain.stopped = true ∧ stoppedInDrain.state = .active ∧
      stoppedInDrain.seqProvider.nextIn = 7 ∧ stoppedInDrain.recoveryCache.empty = true ∧
      Readable stoppedInDrain.params (peerHeartbeat 7) (ascii "0") ∧
      numberOf (peerHeartbeat 7) = 7 ∧
      (stoppedInDrain.processWireMessage (peerHeartbeat 7)).seqProvider.nextIn = 7 := by
  decide +kernel

end Example

end Session

end FixEngine
