import FixEngine.Recovery.Window

/-!
# Recovery and its cache

A session is in recovery exactly when its cache holds something, and what it holds is ahead of
the expected number. Two messages can break that, live or drained: a Logon that is accepted while
something is cached makes the session active, and a SequenceReset can jump over cached messages.
The invariant of the drain tolerates one number, that of the message being handled: it is removed
only after its handler has run.
-/

namespace FixEngine

/-- Of the parameters, the validator reads the CompIDs. -/
theorem Validator.validateMessage_congr {before after : SessionParameters}
    (sender_eq : after.senderCompId = before.senderCompId)
    (target_eq : after.targetCompId = before.targetCompId) (validator : Validator)
    (view : ValidMessageView) :
    validator.validateMessage view after = validator.validateMessage view before := by
  have header : ∀ (cleared : Validator) (type : Bytes),
      cleared.validateHeader view type after = cleared.validateHeader view type before := by
    intro cleared type
    rw [validateHeader, validateHeader]
    split <;> simp only [sender_eq, target_eq]
  simp only [validateMessage, header]

namespace Session

section Cached

variable {session after : Session} {raw type : Bytes}

theorem Readable.congr {before after : SessionParameters} (readable : Readable before raw type)
    (sender_eq : after.senderCompId = before.senderCompId)
    (target_eq : after.targetCompId = before.targetCompId) : Readable after raw type := by
  have same := Validator.validateMessage_congr sender_eq target_eq {} (viewOf raw)
  exact ⟨readable.parsed, by rw [same]; exact readable.notFatal,
    by rw [same]; exact readable.noErrors, readable.type_eq, readable.numbered⟩

theorem Accepts.readable (accepts : session.Accepts (Parser.parse raw).1 type)
    (parsed : (Parser.parse raw).2 = []) : Readable session.params raw type := by
  have same := session.validator.results_validateMessage (viewOf raw) session.params
  refine ⟨parsed, ?_, ?_, accepts.type_eq, accepts.numbered⟩
  · rw [← same]
    exact accepts.notFatal
  · rw [← same]
    exact accepts.noErrors

/-- The cache is a map of valid messages, each under its own number. -/
structure Stocked (session : Session) : Prop where
  valid : session.recoveryCache.Valid
  readable : ∀ n wire, session.recoveryCache.held n = some wire →
    numberOf wire = n ∧ ∃ type, Readable session.params wire type

theorem Stocked.congr (stocked : session.Stocked)
    (cache_eq : after.recoveryCache = session.recoveryCache)
    (sender_eq : after.params.senderCompId = session.params.senderCompId)
    (target_eq : after.params.targetCompId = session.params.targetCompId) : after.Stocked := by
  constructor
  · rw [cache_eq]
    exact stocked.valid
  · intro n wire held
    rw [cache_eq] at held
    rcases stocked.readable n wire held with ⟨number, type, readable⟩
    exact ⟨number, type, readable.congr sender_eq target_eq⟩

theorem Keeps.stocked (keeps : Keeps session after) (stocked : session.Stocked) :
    after.Stocked :=
  stocked.congr keeps.cache_eq (by rw [keeps.params_eq]) (by rw [keeps.params_eq])

theorem Stocked.withState (stocked : session.Stocked) (state : SessionState) :
    (session.withState state).Stocked := stocked.congr rfl rfl rfl

theorem Stocked.absent (stocked : session.Stocked) (empty : session.recoveryCache.empty = true)
    (n : ℕ) : session.recoveryCache.contains n = false :=
  RecoveryCache.held_eq_none_iff.mp (stocked.valid.empty_iff.mp empty n)

theorem Stocked.empty_of_absent (stocked : session.Stocked)
    (absent : ∀ n, session.recoveryCache.contains n = false) :
    session.recoveryCache.empty = true :=
  stocked.valid.empty_iff.mpr fun n => RecoveryCache.held_eq_none_iff.mpr (absent n)

theorem stocked_cleared (empty : ∀ n, session.recoveryCache.held n = none)
    (valid : session.recoveryCache.Valid) : session.Stocked :=
  ⟨valid, fun n wire held => by simp [empty] at held⟩

theorem cacheMessage_legal (session : Session) {seqNum : ℕ}
    (legal : session.recoveryCache.insertAsserts seqNum raw = true) :
    session.cacheMessage seqNum raw =
      session.withCache (session.recoveryCache.insert seqNum raw) := by
  simp only [cacheMessage, legal, if_true]

/-- A valid message is put into the cache. -/
theorem Stocked.cacheMessage (stocked : session.Stocked) (readable : Readable session.params raw type)
    (within : session.recoveryCache.inWindow (numberOf raw) = true)
    (absent : session.recoveryCache.contains (numberOf raw) = false) :
    (session.withCache (session.recoveryCache.insert (numberOf raw) raw)).Stocked := by
  have nonempty := parse_ne_nil readable.parsed
  constructor
  · exact stocked.valid.insert within absent nonempty
  · intro n wire held
    rw [Session.withCache, RecoveryCache.held_insert stocked.valid within nonempty] at held
    by_cases own : n = numberOf raw
    · rw [own, Function.update_self, Option.some.injEq] at held
      rw [own, ← held]
      exact ⟨rfl, type, readable⟩
    · rw [Function.update_of_ne own] at held
      exact stocked.readable n wire held

/-- A handled message is removed. -/
theorem Stocked.consume (stocked : session.Stocked) {n : ℕ}
    (present : session.recoveryCache.contains n = true) :
    (session.withCache (session.recoveryCache.consume n)).Stocked := by
  constructor
  · exact stocked.valid.consume present
  · intro other wire held
    rw [Session.withCache, RecoveryCache.held_consume present] at held
    by_cases same : other = n
    · simp [same] at held
    · rw [Function.update_of_ne same] at held
      exact stocked.readable other wire held

end Cached

section Invariants

variable {session after : Session} {message : Message} {view : ValidMessageView} {type : Bytes}
  {due : Option ℕ}

/-- While the session is logged on, it recovers exactly when something is cached, and what is
cached is ahead. -/
structure Consistent (session : Session) : Prop where
  stocked : session.Stocked
  recovering_iff : session.stopped = false → session.established = true →
    (session.state = .recoveringResend ↔ session.recoveryCache.empty = false)
  ahead : session.stopped = false → session.established = true →
    ∀ n, session.recoveryCache.contains n = true → session.seqProvider.nextIn < n

/-- What holds between the handler of a message and the rest of the drain: `due` is a number
whose message is still cached and about to be removed. -/
structure Draining (due : Option ℕ) (session : Session) : Prop where
  stocked : session.Stocked
  notBehind : session.stopped = false → session.state = .recoveringResend →
    ∀ n, some n ≠ due → session.recoveryCache.contains n = true → session.seqProvider.nextIn ≤ n
  active : session.stopped = false → session.state = .active →
    ∀ n, some n ≠ due → session.recoveryCache.contains n = false

/-- An accepted Logon finds nothing cached, and during a recovery a SequenceReset does not jump
over a cached message; the message itself may be in the cache. -/
def SparesCache (due : Option ℕ) (session : Session) (message : Message) : Prop :=
  session.stopped = false → ∀ type, session.Admitted message type →
    (makeValidMessageView message).headerCache.msgSeqNum = session.seqProvider.nextIn →
    ∀ n, some n ≠ due → session.recoveryCache.contains n = true →
      (type = ascii "A" → ¬session.LogonPasses message) ∧
      (type = ascii "4" → session.state = .recoveringResend →
        (session.updateIn ((makeValidMessageView message).headerCache.msgSeqNum + 1)).ResetPasses
          (makeValidMessageView message) →
        newSeqNo (makeValidMessageView message) ≤ n)

theorem Keeps.consistent (keeps : Keeps session after) (consistent : session.Consistent) :
    after.Consistent := by
  refine ⟨keeps.stocked consistent.stocked, ?_, ?_⟩
  · rw [keeps.stopped_eq, keeps.established_eq, keeps.state_eq, keeps.cache_eq]
    exact consistent.recovering_iff
  · rw [keeps.stopped_eq, keeps.established_eq, keeps.nextIn_eq, keeps.cache_eq]
    exact consistent.ahead

/-- Nothing is said about sessions that are not logged on. -/
theorem consistent_of_idle (stocked : session.Stocked) (idle : session.established = false) :
    session.Consistent :=
  ⟨stocked, fun _ live => by simp [idle] at live, fun _ live => by simp [idle] at live⟩

theorem consistent_of_stopped (stocked : session.Stocked) (stopped : session.stopped = true) :
    session.Consistent :=
  ⟨stocked, fun running => by simp [stopped] at running,
    fun running => by simp [stopped] at running⟩

theorem draining_of_idle (stocked : session.Stocked) (idle : session.established = false) :
    session.Draining due := by
  refine ⟨stocked, fun _ recovering => ?_, fun _ active => ?_⟩
  · simp [established, recovering] at idle
  · simp [established, active] at idle

theorem draining_of_stopped (stocked : session.Stocked) (stopped : session.stopped = true) :
    session.Draining due :=
  ⟨stocked, fun running => by simp [stopped] at running,
    fun running => by simp [stopped] at running⟩

theorem Keeps.draining (keeps : Keeps session after) (draining : session.Draining due) :
    after.Draining due := by
  refine ⟨keeps.stocked draining.stocked, ?_, ?_⟩
  · rw [keeps.stopped_eq, keeps.state_eq, keeps.nextIn_eq, keeps.cache_eq]
    exact draining.notBehind
  · rw [keeps.stopped_eq, keeps.state_eq, keeps.cache_eq]
    exact draining.active

theorem Consistent.draining (consistent : session.Consistent) : session.Draining none := by
  refine ⟨consistent.stocked, ?_, ?_⟩
  · intro running recovering n _ present
    exact (consistent.ahead running (by simp [established, recovering]) n present).le
  · intro running active n _
    apply consistent.stocked.absent
    by_contra filled
    have recovering := (consistent.recovering_iff running (by simp [established, active])).mpr
      (by simpa using filled)
    simp [active] at recovering

end Invariants

section Dispatch

variable {session after : Session} {message : Message} {view : ValidMessageView} {type raw : Bytes}
  {due : Option ℕ}

theorem HandlerOutcome.ids_eq {called : Session} (outcome : HandlerOutcome called type view after) :
    after.params.senderCompId = called.params.senderCompId ∧
      after.params.targetCompId = called.params.targetCompId := by
  have same : ∀ params : SessionParameters, after.params = params →
      params.senderCompId = called.params.senderCompId →
      params.targetCompId = called.params.targetCompId →
      after.params.senderCompId = called.params.senderCompId ∧
        after.params.targetCompId = called.params.targetCompId := by
    rintro params rfl sender target
    exact ⟨sender, target⟩
  cases outcome with
  | quiet keeps => exact same _ keeps.params_eq rfl rfl
  | refused _ interval keeps => exact same _ keeps.params_eq rfl rfl
  | loggedOn _ _ interval state replied keeps afterEq =>
      have paramsEq : after.params = ((called.withInterval interval).withState state).params := by
        rw [afterEq]
        exact replied.keeps_becomeActive.params_eq.trans keeps.params_eq
      exact same _ paramsEq rfl rfl
  | renumbered _ _ _ _ _ interval replied keeps afterEq =>
      have paramsEq : after.params = (((called.withInterval interval).withState .logonReceived).resetSequence
          called.seqProvider.acceptorReset).params := by
        rw [afterEq]
        exact replied.keeps_becomeActive.params_eq.trans keeps.params_eq
      exact same _ paramsEq rfl rfl
  | stopped _ keeps => exact same _ keeps.params_eq rfl rfl
  | moved _ _ afterEq => exact same called.params (by rw [afterEq]; rfl) rfl rfl

/-- A session that becomes active has nothing else in its cache. -/
theorem draining_becomeActive {replied : Session} (stocked : replied.becomeActive.Stocked)
    (emptied : ∀ n, some n ≠ due → replied.recoveryCache.contains n = false) :
    replied.becomeActive.Draining due := by
  have kept := replied.keeps_becomeActive
  refine ⟨stocked, ?_, ?_⟩
  · rw [kept.state_eq]
    intro _ recovering
    exact absurd recovering (by simp [record, Session.withState])
  · rw [kept.cache_eq]
    intro _ _ n other
    exact emptied n other

/-- The handler of a message in sequence. Before it, the cached messages other than the one that
is due are ahead, and there are none when the session is active. -/
theorem draining_handle (running : session.stopped = false)
    (admitted : session.Admitted message type)
    (turn : (makeValidMessageView message).headerCache.msgSeqNum = session.seqProvider.nextIn)
    (stocked : session.Stocked)
    (ahead : session.state = .recoveringResend → ∀ n, some n ≠ due →
      session.recoveryCache.contains n = true → session.seqProvider.nextIn < n)
    (idle : session.state = .active → ∀ n, some n ≠ due →
      session.recoveryCache.contains n = false)
    (spares : session.SparesCache due message) {ready : Session} (keeps : Keeps session ready) :
    ((ready.updateIn ((makeValidMessageView message).headerCache.msgSeqNum + 1)).handle type
      (makeValidMessageView message)).Draining due := by
  have readyRunning : ready.stopped = false := keeps.stopped_eq.trans running
  have outcome := (ready.updateIn ((makeValidMessageView message).headerCache.msgSeqNum + 1)
    ).handle_outcome readyRunning type (makeValidMessageView message)
  have calledStocked : ((ready.updateIn ((makeValidMessageView message).headerCache.msgSeqNum + 1)
      ).called type (makeValidMessageView message)).Stocked :=
    (keeps.stocked stocked).congr rfl rfl rfl
  have afterStocked := calledStocked.congr outcome.cache_eq outcome.ids_eq.1 outcome.ids_eq.2
  have spared := spares running type admitted turn
  have next : ∀ n, some n ≠ due → session.state = .recoveringResend →
      session.recoveryCache.contains n = true →
      ((makeValidMessageView message).headerCache.msgSeqNum + 1) % word64 ≤ n := by
    intro n other recovering present
    have := ahead recovering n other present
    have := Nat.mod_le ((makeValidMessageView message).headerCache.msgSeqNum + 1) word64
    omega
  -- Once the Logon is accepted nothing else may be cached.
  have emptied : type = ascii "A" → ((ready.updateIn
      ((makeValidMessageView message).headerCache.msgSeqNum + 1)).called type
        (makeValidMessageView message)).LogonPasses message → ∀ replied : Session,
      replied.recoveryCache = ready.recoveryCache → ∀ n, some n ≠ due →
      replied.recoveryCache.contains n = false := by
    intro isLogon passes replied cacheEq n other
    have passesSession := (logonPasses_congr keeps.role_eq keeps.params_eq message).mp
      ((ready.logonPasses_called _ _ _ message).mp passes)
    rw [cacheEq, keeps.cache_eq]
    by_contra present
    exact (spared n other (by simpa using present)).1 isLogon passesSession
  generalize (ready.updateIn ((makeValidMessageView message).headerCache.msgSeqNum + 1)).handle type
    (makeValidMessageView message) = final at outcome afterStocked ⊢
  cases outcome with
  | quiet quiet =>
      refine ⟨afterStocked, ?_, ?_⟩
      · rw [quiet.state_eq, quiet.nextIn_eq, quiet.cache_eq]
        intro _ recovering n other present
        exact next n other (keeps.state_eq.symm.trans recovering)
          (by rw [← keeps.cache_eq]; exact present)
      · rw [quiet.state_eq, quiet.cache_eq]
        intro _ active n other
        rw [← idle (keeps.state_eq.symm.trans active) n other, ← keeps.cache_eq]
        rfl
  | refused _ interval refused =>
      exact draining_of_idle afterStocked (by rw [established, refused.state_eq]; rfl)
  | loggedOn isLogon passes interval state replied keepsReplied afterEq =>
      rw [afterEq] at afterStocked ⊢
      exact draining_becomeActive afterStocked (emptied isLogon passes replied keepsReplied.cache_eq)
  | renumbered isLogon passes _ _ _ interval replied keepsReplied afterEq =>
      rw [afterEq] at afterStocked ⊢
      exact draining_becomeActive afterStocked (emptied isLogon passes replied keepsReplied.cache_eq)
  | stopped _ stopped =>
      exact draining_of_stopped afterStocked (by rw [stopped.stopped_eq]; rfl)
  | moved isReset accepted afterEq =>
      have passes : (session.updateIn ((makeValidMessageView message).headerCache.msgSeqNum + 1)
          ).ResetPasses (makeValidMessageView message) := accepted
      refine ⟨afterStocked, ?_, ?_⟩
      · rw [afterEq]
        intro _ recovering n other present
        have recoveringSession := keeps.state_eq.symm.trans recovering
        have presentSession : session.recoveryCache.contains n = true := by
          rw [← keeps.cache_eq]
          exact present
        exact (Nat.mod_le _ _).trans
          ((spared n other presentSession).2 isReset recoveringSession passes)
      · rw [afterEq]
        intro _ active n other
        rw [← idle (keeps.state_eq.symm.trans active) n other, ← keeps.cache_eq]
        rfl

/-- A message ahead of its turn goes into the cache. -/
theorem draining_cacheMessage (stocked : session.Stocked)
    (recovering : session.state = .recoveringResend)
    (notBehind : ∀ n, session.recoveryCache.contains n = true → session.seqProvider.nextIn ≤ n)
    (readable : Readable session.params raw type)
    (ahead : session.seqProvider.nextIn < numberOf raw)
    (within : session.recoveryCache.inWindow (numberOf raw) = true)
    (absent : session.recoveryCache.contains (numberOf raw) = false) :
    (session.cacheMessage (numberOf raw) raw).Draining none ∧
      (session.cacheMessage (numberOf raw) raw).recoveryCache.empty = false := by
  have nonempty := parse_ne_nil readable.parsed
  have legal : session.recoveryCache.insertAsserts (numberOf raw) raw = true := by
    rw [RecoveryCache.insertAsserts, within, absent]
    simpa [List.length_pos_iff] using nonempty
  have present := RecoveryCache.contains_insert within nonempty
  have filled := stocked.cacheMessage readable within absent
  rw [session.cacheMessage_legal legal]
  refine ⟨⟨filled, ?_, ?_⟩, ?_⟩
  · intro _ _ n _ contained
    rcases (present n).mp contained with rfl | earlier
    · exact ahead.le
    · exact notBehind n earlier
  · intro _ active
    have : SessionState.recoveringResend = .active := recovering.symm.trans active
    simp at this
  · by_contra isEmpty
    have absentNow : (session.recoveryCache.insert (numberOf raw) raw).contains (numberOf raw) =
        false := filled.absent (by simpa using isEmpty) (numberOf raw)
    rw [(present _).mpr (.inl rfl)] at absentNow
    simp at absentNow

/-- A live message. -/
theorem draining_dispatch (parsed : (Parser.parse raw).2 = []) (consistent : session.Consistent)
    (near : session.NearGap (Parser.parse raw).1)
    (spares : session.SparesCache none (Parser.parse raw).1) :
    (session.dispatch (Parser.parse raw).1 raw).Draining none ∧
      ((session.dispatch (Parser.parse raw).1 raw).stopped = false →
        (session.dispatch (Parser.parse raw).1 raw).state = .recoveringResend →
        (session.dispatch (Parser.parse raw).1 raw).recoveryCache.empty = false) := by
  have stocked := consistent.stocked
  cases session.dispatch_effect (Parser.parse raw).1 raw with
  | stopped isStopped afterEq =>
      rw [afterEq]
      exact ⟨draining_of_stopped stocked isStopped, fun running => by simp [isStopped] at running⟩
  | quiet running keeps =>
      have kept := keeps.consistent consistent
      refine ⟨kept.draining, fun runningAfter recovering => ?_⟩
      exact (kept.recovering_iff runningAfter (by simp [established, recovering])).mp recovering
  | loggedOut running _ keeps =>
      have idle : (session.dispatch (Parser.parse raw).1 raw).state = .awaitingLogout :=
        keeps.state_eq
      refine ⟨draining_of_idle (keeps.stocked (stocked.withState _))
        (by simp [established, idle]), fun _ recovering => ?_⟩
      simp [idle] at recovering
  | handled running type admitted turn ready keeps afterEq =>
      have live : ∀ state, session.state = state → state = .recoveringResend ∨ state = .active →
          session.established = true := by
        rintro state stateEq (rfl | rfl) <;> simp [established, stateEq]
      have draining := draining_handle running admitted turn stocked
        (fun recovering n _ => consistent.ahead running (live _ recovering (.inl rfl)) n)
        (fun active => consistent.draining.active running active) spares keeps
      rw [afterEq]
      refine ⟨draining, fun _ recovering => ?_⟩
      have readyRunning : ready.stopped = false := keeps.stopped_eq.trans running
      have outcome := (ready.updateIn
        ((makeValidMessageView (Parser.parse raw).1).headerCache.msgSeqNum + 1)
        ).handle_outcome readyRunning type (makeValidMessageView (Parser.parse raw).1)
      have before : session.state = .recoveringResend :=
        keeps.state_eq.symm.trans (outcome.recovering recovering)
      rw [outcome.cache_eq]
      exact (congrArg RecoveryCache.empty keeps.cache_eq).trans
        ((consistent.recovering_iff running (live _ before (.inl rfl))).mp before)
  | cached running type admitted ahead recovering within absent ready keeps afterEq =>
      have live : session.established = true := by simp [established, recovering]
      have readable := admitted.accepts.readable parsed
      rw [← keeps.params_eq] at readable
      rw [← keeps.cache_eq] at within absent
      rw [← keeps.nextIn_eq] at ahead
      have notBehind : ∀ n, ready.recoveryCache.contains n = true →
          ready.seqProvider.nextIn ≤ n := by
        rw [keeps.cache_eq, keeps.nextIn_eq]
        exact fun n present => (consistent.ahead running live n present).le
      have filled := draining_cacheMessage (keeps.stocked stocked) (keeps.state_eq.trans recovering)
        notBehind readable ahead within absent
      rw [afterEq]
      exact ⟨filled.1, fun _ _ => filled.2⟩
  | gap running type admitted ahead outside requested keeps afterEq =>
      have readable := admitted.accepts.readable parsed
      have close := near running type admitted outside ahead
      rw [← keeps.params_eq] at readable
      have nextEq := keeps.nextIn_eq
      have filled := @draining_cacheMessage ((requested.withState .recoveringResend).withCache
        (session.recoveryCache.start session.seqProvider.nextIn)) type raw
        ⟨RecoveryCache.valid_start _ _, fun n wire held => by
          simp [Session.withCache, RecoveryCache.held_start] at held⟩ rfl
        (fun n present => by
          simp [Session.withCache, not_contains_start] at present)
        readable (nextEq.trans_lt ahead)
        (RecoveryCache.inWindow_iff.mpr ⟨ahead.le, close⟩) (not_contains_start _ _ _)
      rw [afterEq]
      exact ⟨filled.1, fun _ _ => filled.2⟩

end Dispatch

section Drain

variable {session after : Session} {raw : Bytes}

/-- The conditions on the calls of `dispatch`, for live and for drained messages. -/
def LiveSpares (session : Session) (message : Message) : Prop :=
  session.NearGap message ∧ session.SparesCache none message

/-- The condition on a message that is drained from the cache. -/
def DrainSpares (session : Session) (message : Message) : Prop :=
  session.SparesCache (some session.seqProvider.nextIn) message

/-- A cached message is handled; it is still cached afterwards. -/
theorem draining_dispatch_due (draining : session.Draining none)
    (held : session.recoveryCache.held session.seqProvider.nextIn = some raw)
    (spares : session.DrainSpares (Parser.parse raw).1) :
    (session.dispatch (Parser.parse raw).1 raw).Draining (some session.seqProvider.nextIn) ∧
      (session.dispatch (Parser.parse raw).1 raw).recoveryCache = session.recoveryCache := by
  have number : (makeValidMessageView (Parser.parse raw).1).headerCache.msgSeqNum =
    session.seqProvider.nextIn := (draining.stocked.readable _ _ held).1
  have weaker : ∀ due, session.Draining due :=
    fun due => ⟨draining.stocked, fun running recovering n _ => draining.notBehind running recovering
      n (by simp), fun running active n _ => draining.active running active n (by simp)⟩
  cases session.dispatch_effect (Parser.parse raw).1 raw with
  | stopped _ afterEq => rw [afterEq]; exact ⟨weaker _, rfl⟩
  | quiet _ keeps => exact ⟨keeps.draining (weaker _), keeps.cache_eq⟩
  | loggedOut _ _ keeps =>
      have idle : (session.dispatch (Parser.parse raw).1 raw).state = .awaitingLogout :=
        keeps.state_eq
      exact ⟨draining_of_idle (keeps.stocked (draining.stocked.withState _))
        (by simp [established, idle]), keeps.cache_eq⟩
  | handled running type admitted turn ready keeps afterEq =>
      have readyRunning : ready.stopped = false := keeps.stopped_eq.trans running
      have outcome := (ready.updateIn
        ((makeValidMessageView (Parser.parse raw).1).headerCache.msgSeqNum + 1)
        ).handle_outcome readyRunning type (makeValidMessageView (Parser.parse raw).1)
      rw [afterEq]
      refine ⟨draining_handle running admitted turn draining.stocked ?_ ?_ spares keeps,
        outcome.cache_eq.trans keeps.cache_eq⟩
      · intro recovering n other present
        have notBehind := draining.notBehind running recovering n (by simp) present
        have : n ≠ session.seqProvider.nextIn := fun same => other (by rw [same])
        omega
      · intro active n _
        exact draining.active running active n (by simp)
  | cached _ _ _ ahead _ _ _ _ _ _ => omega
  | gap _ _ _ ahead _ _ _ _ => omega

/-- One round of the drain takes one message out of the cache. -/
theorem draining_drainOne (draining : session.Draining none)
    (held : session.recoveryCache.held session.seqProvider.nextIn = some raw)
    (spares : session.DrainSpares (Parser.parse raw).1) :
    (session.drainOne (Parser.parse raw).1 raw).Draining none ∧
      (session.drainOne (Parser.parse raw).1 raw).recoveryCache.used.card + 1 =
        session.recoveryCache.used.card := by
  rcases draining_dispatch_due draining held spares with ⟨dispatched, cacheEq⟩
  have present := (RecoveryCache.held_eq_some_iff.mp held).1
  rcases RecoveryCache.contains_iff.mp present with ⟨within, mem⟩
  have presentAfter : (session.dispatch (Parser.parse raw).1 raw).recoveryCache.contains
      session.seqProvider.nextIn = true := by rw [cacheEq]; exact present
  have kept := RecoveryCache.contains_consume
    (RecoveryCache.contains_iff.mp presentAfter).1
  simp only [drainOne, presentAfter, if_true]
  refine ⟨⟨dispatched.stocked.consume presentAfter, ?_, ?_⟩, ?_⟩
  · intro running recovering n _ contained
    rcases (kept n).mp contained with ⟨other, earlier⟩
    exact dispatched.notBehind running recovering n (by simpa using other) earlier
  · intro running active n _
    apply Bool.eq_false_iff.mpr
    intro contained
    rcases (kept n).mp contained with ⟨other, earlier⟩
    have := dispatched.active running active n (by simpa using other)
    rw [earlier] at this
    simp at this
  · simp only [Session.withCache, cacheEq]
    rw [RecoveryCache.used_consume within]
    exact Finset.card_erase_add_one mem

/-- The drain ends with all that is left ahead. -/
theorem consistent_drainLoop {rounds : ℕ} (enough : session.recoveryCache.used.card < rounds)
    (draining : session.Draining none) (each : EachDrain DrainSpares rounds session) :
    (drainLoop rounds session).Consistent := by
  induction rounds generalizing session with
  | zero => omega
  | succ rounds ih =>
      simp only [drainLoop]
      split
      · next present =>
          have held : session.recoveryCache.held session.seqProvider.nextIn =
              some (session.recoveryCache.get session.seqProvider.nextIn) :=
            RecoveryCache.held_eq_some_iff.mpr ⟨present, rfl⟩
          rcases (draining.stocked.readable _ _ held).2 with ⟨type, readable⟩
          rcases each present readable.parsed with ⟨here, rest⟩
          rcases draining_drainOne draining held here with ⟨next, card⟩
          simp only [readable.parsed, if_true]
          exact ih (by omega) next rest
      · next absent =>
          split
          · next isEmpty =>
              refine ⟨draining.stocked.withState .active, ?_, ?_⟩
              · intro _ _
                simp [Session.withState, isEmpty]
              · intro _ _ n present
                have := present.symm.trans (draining.stocked.absent isEmpty n)
                simp at this
          · next filled =>
              have notActive : session.stopped = false → session.state ≠ .active := by
                intro running active
                exact filled (draining.stocked.empty_of_absent
                  fun n => draining.active running active n (by simp))
              refine ⟨draining.stocked, ?_, ?_⟩
              · intro running live
                have := notActive running
                simp only [established, Bool.or_eq_true, decide_eq_true_eq] at live
                simp [live.resolve_left this, filled]
              · intro running live n present
                have := notActive running
                simp only [established, Bool.or_eq_true, decide_eq_true_eq] at live
                have notBehind := draining.notBehind running (live.resolve_left this) n (by simp)
                  present
                have : n ≠ session.seqProvider.nextIn := by
                  rintro rfl
                  exact absent present
                omega

theorem consistent_drainRecoveryCache (draining : session.Draining none)
    (filled : session.stopped = false → session.state = .recoveringResend →
      session.recoveryCache.empty = false)
    (each : session.state = .recoveringResend →
      EachDrain DrainSpares (RecoveryCache.window + 1) session) :
    session.drainRecoveryCache.Consistent := by
  rw [drainRecoveryCache]
  split
  · next skipped =>
      simp only [Bool.or_eq_true, decide_eq_true_eq] at skipped
      have notRecovering : session.stopped = false → session.state ≠ .recoveringResend := by
        intro running recovering
        rcases skipped with isEmpty | other
        · simp [filled running recovering] at isEmpty
        · exact other recovering
      have isActive : session.stopped = false → session.established = true →
          session.state = .active := by
        intro running live
        simp only [established, Bool.or_eq_true, decide_eq_true_eq] at live
        exact live.resolve_right (notRecovering running)
      refine ⟨draining.stocked, ?_, ?_⟩
      · intro running live
        have isEmpty := draining.stocked.empty_of_absent
          fun n => draining.active running (isActive running live) n (by simp)
        simp [notRecovering running, isEmpty]
      · intro running live n present
        have := draining.active running (isActive running live) n (by simp)
        simp [this] at present
  · next draining' =>
      simp only [Bool.or_eq_true, decide_eq_true_eq, not_or, not_not] at draining'
      have few := session.recoveryCache.card_used_le
      exact consistent_drainLoop (by omega) draining (each draining'.2)

theorem consistent_processWireMessage {wire : Bytes} (consistent : session.Consistent)
    (each : EachCall LiveSpares DrainSpares session wire) :
    (session.processWireMessage wire).Consistent := by
  have received : (session.receive wire).Draining none ∧
      ((session.receive wire).stopped = false → (session.receive wire).state = .recoveringResend →
        (session.receive wire).recoveryCache.empty = false) := by
    simp only [receive]
    split
    · next parsed =>
        have live := each.1 parsed
        exact draining_dispatch parsed consistent live.1 live.2
    · cases running : session.stopped with
      | true =>
          rw [stopWithLogout, if_pos running]
          exact ⟨consistent.draining, fun now => by simp [running] at now⟩
      | false =>
          have keeps := keeps_stopWithLogout running (ascii "Parse error")
          have idle : (session.stopWithLogout (ascii "Parse error")).state = .awaitingLogout :=
            keeps.state_eq
          refine ⟨draining_of_idle (keeps.stocked (consistent.stocked.withState _))
            (by simp [established, idle]), fun _ recovering => ?_⟩
          simp [idle] at recovering
  rw [processWireMessage]
  exact consistent_drainRecoveryCache received.1 received.2 each.2

end Drain

section Runs

variable {session after : Session}

/-- The condition on a step. -/
def StepSparesCache (session : Session) : Input → Prop
  | .frame wire => session.EachCall LiveSpares DrainSpares wire
  | _ => True

theorem consistent_idle (consistent : session.Consistent) (outcome : IdleOutcome session after) :
    after.Consistent := by
  have stocked := consistent.stocked
  have waiting : ∀ state, state = SessionState.logonSent ∨ state = .awaitingLogon →
      ∀ before : Session, (before.withState state).established = false := by
    rintro state (rfl | rfl) before <;> rfl
  cases outcome with
  | quiet keeps => exact keeps.consistent consistent
  | connected conn afterEq =>
      rw [afterEq]
      exact ⟨stocked.congr rfl rfl rfl, consistent.recovering_iff, consistent.ahead⟩
  | loggedOut keeps => exact keeps.consistent (consistent_of_idle (stocked.withState _) rfl)
  | stopped keeps =>
      exact keeps.consistent (consistent_of_stopped (stocked.congr rfl rfl rfl) rfl)
  | down released keeps afterEq =>
      rw [afterEq]
      apply consistent_of_idle
      · exact stocked_cleared (fun n => by
          simp [RecoveryCache.held_eq_none_iff, RecoveryCache.contains, record, disconnect,
            RecoveryCache.clear, RecoveryCache.reset]) (RecoveryCache.valid_reset _)
      · rfl
  | started state waits keeps =>
      exact keeps.consistent
        (consistent_of_idle (stocked.congr rfl rfl rfl) (waiting state waits _))
  | renumbered _ _ reading keepsReading keeps =>
      have readingStocked := keepsReading.stocked (stocked.congr rfl rfl rfl)
      exact keeps.consistent (consistent_of_idle (readingStocked.congr rfl rfl rfl) rfl)
  | restarted _ state waits keeps =>
      refine keeps.consistent (consistent_of_idle (stocked_cleared (fun n => ?_)
        (RecoveryCache.valid_reset _)) (waiting state waits _))
      simp [RecoveryCache.held_eq_none_iff, RecoveryCache.contains, cleanUp, Session.withState,
        RecoveryCache.clear, RecoveryCache.reset]

theorem consistent_step {input : Input} (consistent : session.Consistent)
    (spares : session.StepSparesCache input) : (session.step input).Consistent := by
  by_cases isFrame : ∃ wire, input = .frame wire
  · rcases isFrame with ⟨wire, rfl⟩
    exact consistent_processWireMessage consistent spares
  · have notFrame : ∀ wire, input ≠ .frame wire := fun wire same => isFrame ⟨wire, same⟩
    exact consistent_idle consistent (session.step_outcome notFrame)

theorem consistent_new (id : ℕ) (role : Role) (params : SessionParameters) (clock : Clock) :
    (Session.new id role params clock).Consistent := by
  apply consistent_of_idle
  · apply stocked_cleared
    · intro n
      simp [RecoveryCache.held_eq_none_iff, RecoveryCache.contains, Session.new, RecoveryCache.new,
        RecoveryCache.growBuffer]
    · constructor <;> simp [Session.new, RecoveryCache.new, RecoveryCache.growBuffer,
        RecoveryCache.used]
  · rfl

/-- In every run in which gaps are shorter than the window, no Logon is accepted over cached
messages and no SequenceReset jumps over one, the session recovers exactly when something is
cached, and everything cached is ahead of the expected number. -/
theorem run_recovery_consistent (id : ℕ) (role : Role) (params : SessionParameters) (clock : Clock)
    (inputs : List Input)
    (spares : Runs.Meets step StepSparesCache (Session.new id role params clock) inputs) :
    let session := (Session.new id role params clock).run inputs
    session.stopped = false → session.state = .active ∨ session.state = .recoveringResend →
      (session.state = .recoveringResend ↔ session.recoveryCache.empty = false) ∧
      ∀ n, session.recoveryCache.contains n = true → session.seqProvider.nextIn < n := by
  intro session running live
  have consistent : session.Consistent := spares.invariant (consistent_new id role params clock)
    fun current input consistent here => consistent_step consistent here
  have established : session.established = true := by simpa [established] using live
  exact ⟨consistent.recovering_iff running established, consistent.ahead running established⟩

end Runs

section Example

theorem spares_of_type {session : Session} {message : Message} {due : Option ℕ} (type : Bytes)
    (type_eq : (makeValidMessageView message).headerCache.msgType = some type)
    (notLogon : type ≠ ascii "A") (notReset : type ≠ ascii "4") :
    session.SparesCache due message := by
  intro _ type' admitted _ n _ _
  have same : type' = type := Option.some.inj (admitted.accepts.type_eq.symm.trans type_eq)
  rw [same]
  exact ⟨fun isLogon => absurd isLogon notLogon, fun isReset => absurd isReset notReset⟩

theorem spares_swappedRun : Runs.Meets step StepSparesCache initiator swappedRun := by
  refine ⟨trivial, trivial, ⟨fun _ => ⟨?_, ?_⟩, ?_⟩, ⟨fun _ => ⟨?_, ?_⟩, ?_⟩,
    ⟨fun _ => ⟨?_, ?_⟩, ?_⟩, trivial⟩
  · intro _ _ _ _ ahead
    exact absurd ahead (by decide +kernel)
  · intro _ _ _ _ n _ present
    have empty : ((initiator.step (.setConnection 0)).step (.start .normal)).Stocked :=
      (consistent_idle (consistent_idle (consistent_new _ _ _ _) (step_outcome _ (by simp)))
        (step_outcome _ (by simp))).stocked
    exact absurd (empty.absent (by decide +kernel) n) (by simpa using present)
  · intro recovering
    exact absurd recovering (by decide +kernel)
  · intro _ _ _ _ _
    decide +kernel
  · exact spares_of_type (ascii "0") (by decide +kernel) (by decide) (by decide)
  · intro _
    exact eachDrain_of_absent (by decide +kernel)
  · intro _ _ _ _ ahead
    exact absurd ahead (by decide +kernel)
  · exact spares_of_type (ascii "0") (by decide +kernel) (by decide) (by decide)
  · intro _ _ _
    exact ⟨spares_of_type (ascii "0") (by decide +kernel) (by decide) (by decide),
      eachDrain_of_absent (by decide +kernel)⟩

theorem run_recovery_consistent_swapped :
    (initiator.run (swappedRun.take 4)).state = .recoveringResend ∧
      (initiator.run swappedRun).recoveryCache.empty = true := by
  have live : (initiator.run swappedRun).state = .active := by decide +kernel
  have matching := (run_recovery_consistent 0 .initiator _ .standard swappedRun spares_swappedRun
    (by decide +kernel) (.inl live)).1
  constructor
  · decide +kernel
  · by_contra filled
    have := live.symm.trans (matching.mpr (Bool.eq_false_iff.mpr filled))
    simp at this

/-- A Logon fills the gap before a cached heartbeat, and the session is active with the heartbeat
in its cache; or a SequenceReset jumps over the heartbeat, and it is never handled. -/
theorem run_recovery_inconsistent :
    (let after := initiator.run (answeredLogon ++ [.frame (peerHeartbeat 3),
        .frame (peerWire (ascii "A") 2 [⟨98, ascii "0"⟩, ⟨108, ascii "30"⟩])]);
      after.stopped = false ∧ after.state = .active ∧ after.recoveryCache.empty = false ∧
        after.recoveryCache.contains 3 = true ∧ after.seqProvider.nextIn = 3) ∧
      (let after := initiator.run (answeredLogon ++ [.frame (peerHeartbeat 3),
        .frame (peerWire (ascii "4") 2 [⟨123, ascii "Y"⟩, ⟨36, ascii "10"⟩])]);
      after.stopped = false ∧ after.state = .recoveringResend ∧
        after.recoveryCache.contains 3 = true ∧ after.seqProvider.nextIn = 10) := by
  decide +kernel

end Example

end Session

end FixEngine
