import FixEngine.Recovery.Window

/-!
# The drain ends

`drain_recovery_cache_` reads the expected number again after every `dispatch`, which may move it
forwards or backwards, stop the session or end the recovery. What bounds the loop is the cache: a
message that is handled under its own number neither adds to the cache nor empties it, so every
round takes out exactly the message it read.
-/

namespace FixEngine

/-- A round of the drain: the number it looked for, and whether that number was still cached when
`consume` was called. A message that does not parse ends the loop before the call. -/
structure DrainRound where
  expected : ℕ
  present : Option Bool
  deriving DecidableEq, Repr

/-- Messages that parse are cached under their own numbers. -/
def RecoveryCache.OwnNumbers (cache : RecoveryCache) : Prop :=
  ∀ n wire, cache.held n = some wire → (Parser.parse wire).2 = [] → Session.numberOf wire = n

namespace Session

/-- The rounds of `drainLoop`. -/
def drainRounds : ℕ → Session → List DrainRound
  | 0, _ => []
  | rounds + 1, session =>
      let expected := session.seqProvider.nextIn
      if session.recoveryCache.contains expected then
        let raw := session.recoveryCache.get expected
        let (message, errors) := Parser.parse raw
        if errors = [] then
          ⟨expected, some ((session.dispatch message raw).recoveryCache.contains expected)⟩ ::
            drainRounds rounds (session.drainOne message raw)
        else [⟨expected, none⟩]
      else []

section Drain

variable {session : Session} {raw : Bytes}

/-- A message with the expected number is handled without touching the cache. -/
theorem dispatch_turn (parsed : (Parser.parse raw).2 = [])
    (turn : numberOf raw = session.seqProvider.nextIn) :
    (session.dispatch (Parser.parse raw).1 raw).recoveryCache = session.recoveryCache ∧
      cacheFaults (session.dispatch (Parser.parse raw).1 raw).trace =
        cacheFaults session.trace := by
  have number : (makeValidMessageView (Parser.parse raw).1).headerCache.msgSeqNum =
    session.seqProvider.nextIn := turn
  constructor
  · cases session.dispatch_effect (Parser.parse raw).1 raw with
    | stopped _ afterEq => rw [afterEq]
    | quiet _ keeps => exact keeps.cache_eq
    | loggedOut _ _ keeps => exact keeps.cache_eq
    | handled running type _ _ ready keeps afterEq =>
        have readyRunning : ready.stopped = false := keeps.stopped_eq.trans running
        have outcome := (ready.updateIn
          ((makeValidMessageView (Parser.parse raw).1).headerCache.msgSeqNum + 1)
          ).handle_outcome readyRunning type (makeValidMessageView (Parser.parse raw).1)
        rw [afterEq]
        exact outcome.cache_eq.trans keeps.cache_eq
    | cached _ _ _ ahead _ _ _ _ _ _ => omega
    | gap _ _ _ ahead _ _ _ _ => omega
  · rcases @cacheFaults_dispatch session (Parser.parse raw).1 raw parsed with same | ⟨_, _, _, far⟩
    · exact same
    · simp only [RecoveryCache.window] at far
      omega

/-- A round that finds its message readable consumes it, and changes nothing else in the cache. -/
theorem drainOne_turn (held : session.recoveryCache.held session.seqProvider.nextIn = some raw)
    (parsed : (Parser.parse raw).2 = []) (own : session.recoveryCache.OwnNumbers) :
    (session.dispatch (Parser.parse raw).1 raw).recoveryCache.contains
        session.seqProvider.nextIn = true ∧
      (session.drainOne (Parser.parse raw).1 raw).recoveryCache =
        session.recoveryCache.consume session.seqProvider.nextIn ∧
      cacheFaults (session.drainOne (Parser.parse raw).1 raw).trace =
        cacheFaults session.trace := by
  rcases dispatch_turn parsed (own _ _ held parsed) with ⟨cacheEq, faultsEq⟩
  have present : (session.dispatch (Parser.parse raw).1 raw).recoveryCache.contains
      session.seqProvider.nextIn = true := by
    rw [cacheEq]
    exact (RecoveryCache.held_eq_some_iff.mp held).1
  simp only [drainOne, present, if_true, Session.withCache]
  exact ⟨trivial, by rw [cacheEq], faultsEq⟩

theorem card_used_consume {cache : RecoveryCache} {seqNum : ℕ}
    (present : cache.contains seqNum = true) :
    (cache.consume seqNum).used.card + 1 = cache.used.card := by
  rcases RecoveryCache.contains_iff.mp present with ⟨within, mem⟩
  rw [RecoveryCache.used_consume within]
  exact Finset.card_erase_add_one mem

theorem ownNumbers_consume {cache : RecoveryCache} {seqNum : ℕ} (own : cache.OwnNumbers)
    (present : cache.contains seqNum = true) : (cache.consume seqNum).OwnNumbers := by
  intro n wire held parsed
  rw [RecoveryCache.held_consume present] at held
  by_cases same : n = seqNum
  · rw [same, Function.update_self] at held
    cases held
  · rw [Function.update_of_ne same] at held
    exact own n wire held parsed

/-- However many rounds are allowed, there are no more than cached messages, and each calls
`consume` on a number that is present. -/
theorem drainRounds_le (rounds : ℕ) (own : session.recoveryCache.OwnNumbers) :
    (drainRounds rounds session).length ≤ session.recoveryCache.used.card ∧
      ∀ round ∈ drainRounds rounds session, round.present ≠ some false := by
  induction rounds generalizing session with
  | zero => simp [drainRounds]
  | succ rounds ih =>
      simp only [drainRounds]
      split
      · next present =>
          have held := RecoveryCache.held_eq_some_iff.mpr ⟨present, rfl⟩
          have fewer := card_used_consume present
          split
          · next parsed =>
              rcases drainOne_turn held parsed own with ⟨still, cacheEq, _⟩
              have rest := @ih (session.drainOne _ _) (by
                rw [cacheEq]
                exact ownNumbers_consume own present)
              rw [cacheEq] at rest
              refine ⟨?_, ?_⟩
              · rw [List.length_cons]
                omega
              · intro round mem
                rcases List.mem_cons.mp mem with first | later
                · rw [first, still]
                  simp
                · exact rest.2 round later
          · refine ⟨?_, by simp⟩
            rw [List.length_singleton]
            omega
      · simp

/-- With more rounds than cached messages the loop ends by itself, and without fault. -/
theorem drainLoop_ends {rounds more : ℕ} (own : session.recoveryCache.OwnNumbers)
    (enough : session.recoveryCache.used.card < rounds)
    (enoughMore : session.recoveryCache.used.card < more) :
    drainLoop rounds session = drainLoop more session ∧
      cacheFaults (drainLoop rounds session).trace = cacheFaults session.trace := by
  induction rounds generalizing session more with
  | zero => omega
  | succ rounds ih =>
      rcases more with _ | more
      · omega
      · simp only [drainLoop]
        split
        · next present =>
            have held := RecoveryCache.held_eq_some_iff.mpr ⟨present, rfl⟩
            have fewer := card_used_consume present
            split
            · next parsed =>
                rcases drainOne_turn held parsed own with ⟨_, cacheEq, faultsEq⟩
                have rest := @ih (session.drainOne _ _) more (by
                  rw [cacheEq]
                  exact ownNumbers_consume own present) (by rw [cacheEq]; omega)
                  (by rw [cacheEq]; omega)
                exact ⟨rest.1, rest.2.trans faultsEq⟩
            · refine ⟨rfl, ?_⟩
              rw [cacheFaults_stop]
              exact (session.keeps_sendLogout _).faults_eq
        · split
          · exact ⟨rfl, rfl⟩
          · exact ⟨rfl, rfl⟩

/-- Whatever the session and the messages in its cache, as long as each is there under its own
number: the loop of the drain makes at most as many rounds as there are cached messages, calls
`consume` only on numbers that are present, and ends. -/
theorem drain_terminates (session : Session) (own : session.recoveryCache.OwnNumbers) :
    (∀ rounds, (drainRounds rounds session).length ≤ session.recoveryCache.used.card ∧
        ∀ round ∈ drainRounds rounds session, round.present ≠ some false) ∧
      (∀ rounds, session.recoveryCache.used.card < rounds →
        drainLoop rounds session = drainLoop (session.recoveryCache.used.card + 1) session) ∧
      cacheFaults session.drainRecoveryCache.trace = cacheFaults session.trace := by
  refine ⟨fun rounds => drainRounds_le rounds own, ?_, ?_⟩
  · intro rounds enough
    exact (drainLoop_ends own enough (Nat.lt_succ_self _)).1
  · have few : session.recoveryCache.used.card < RecoveryCache.window + 1 :=
      Nat.lt_succ_of_le session.recoveryCache.card_used_le
    rw [drainRecoveryCache]
    split
    · rfl
    · exact (drainLoop_ends own few few).2

theorem ownNumbers_start (cache : RecoveryCache) (seqNum : ℕ) :
    (cache.start seqNum).OwnNumbers := by
  intro n wire held
  rw [RecoveryCache.held_start] at held
  cases held

theorem ownNumbers_insert {cache : RecoveryCache} {seqNum : ℕ} {wire : Bytes} (valid : cache.Valid)
    (own : cache.OwnNumbers) (within : cache.inWindow seqNum = true) (nonempty : wire ≠ [])
    (number : numberOf wire = seqNum) : (cache.insert seqNum wire).OwnNumbers := by
  intro n stored held parsed
  rw [RecoveryCache.held_insert valid within nonempty] at held
  by_cases same : n = seqNum
  · subst same
    rw [Function.update_self, Option.some.injEq] at held
    rwa [← held]
  · rw [Function.update_of_ne same] at held
    exact own n stored held parsed

/-- A Heartbeat, and behind it a gap fill that takes the expected number back. -/
def cachedPair : RecoveryCache :=
  ((initiator.recoveryCache.start 2).insert 2 (peerHeartbeat 2)).insert 3
    (peerWire (ascii "4") 3 [⟨123, ascii "Y"⟩, ⟨36, ascii "2"⟩])

/-- A recovery with these two in the cache, and a Heartbeat that comes after them. -/
def recoveringReset : Session :=
  { initiator with
    state := .recoveringResend
    seqProvider := { initiator.seqProvider with nextIn := 2 }
    recoveryCache := cachedPair.insert 4 (peerHeartbeat 4) }

theorem ownNumbers_recoveringReset : recoveringReset.recoveryCache.OwnNumbers := by
  have started := RecoveryCache.valid_start initiator.recoveryCache 2
  have first : ((initiator.recoveryCache.start 2).insert 2 (peerHeartbeat 2)).Valid :=
    started.insert (by decide) (by decide) (by decide)
  have second : cachedPair.Valid := first.insert (by decide) (by decide) (by decide)
  have heartbeat :
      ((initiator.recoveryCache.start 2).insert 2 (peerHeartbeat 2)).OwnNumbers :=
    ownNumbers_insert started (ownNumbers_start _ _) (by decide) (by decide) (by decide +kernel)
  have pair : cachedPair.OwnNumbers :=
    ownNumbers_insert first heartbeat (by decide) (by decide) (by decide +kernel)
  exact ownNumbers_insert second pair (by decide +kernel) (by decide) (by decide +kernel)

/-- Two rounds, after which the loop leaves the last message in the cache. -/
theorem drain_terminates_reset :
    cacheFaults recoveringReset.drainRecoveryCache.trace = [] ∧
      (drainRounds 9 recoveringReset).length ≤ recoveringReset.recoveryCache.used.card ∧
      drainRounds 9 recoveringReset = [⟨2, some true⟩, ⟨3, some true⟩] := by
  rcases drain_terminates recoveringReset ownNumbers_recoveringReset with ⟨rounds, -, faultless⟩
  exact ⟨faultless, (rounds 9).1, by decide +kernel⟩

end Drain

end Session

end FixEngine
