import FixEngine.Core.SessionPool
import Mathlib.Data.List.Nodup
import Mathlib.Data.List.Perm.Basic

/-!
# The pool is a slot map

A history of the pool keeps, next to the pool, the sessions it has made and those that were not
removed since. `Sound` ties the slots, the list of free slots and the counter of session numbers
to it: the slots hold exactly the live sessions, each where its id says, and the free list names
exactly the empty slots. Creation and removal keep it, as long as the counter has not wrapped.
-/

namespace FixEngine

namespace SessionPool

/-- The operations of the pool. -/
inductive Op
  | emplaceSession (role : Role) (params : SessionParameters)
  | remove (id : SessionID)
  deriving DecidableEq, Repr

/-- Whether an operation makes a session. -/
def Op.creates : Op → Bool
  | .emplaceSession _ _ => true
  | .remove _ => false

/-- The pool, the sessions it has made, and those of them that were not removed since. -/
structure History where
  pool : SessionPool := {}
  issued : List PooledSession := []
  live : List PooledSession := []

namespace History

/-- The history after an operation. -/
def step (history : History) : Op → History
  | .emplaceSession role params =>
      let (session, pool) := history.pool.emplaceSession role params
      ⟨pool, history.issued ++ [session], history.live ++ [session]⟩
  | .remove id =>
      { history with
        pool :=
          match history.pool.remove id with
          | .ok (_, pool) => pool
          | .error _ => history.pool
        live := history.live.filter fun session => !session.sessionId.same id }

/-- The history after operations. -/
def run (history : History) (ops : List Op) : History := ops.foldl step history

/-- Only ids the pool has issued are removed. -/
def Legal (history : History) : List Op → Prop
  | [] => True
  | .emplaceSession role params :: rest => (history.step (.emplaceSession role params)).Legal rest
  | .remove id :: rest =>
      (∃ session ∈ history.issued, session.sessionId = id) ∧ (history.step (.remove id)).Legal rest

/-- What a slot map promises its user. -/
structure SlotMap (history : History) : Prop where
  ids_nodup : (history.issued.map fun session => session.sessionId.id).Nodup
  get_eq : ∀ session ∈ history.issued,
    history.pool.get session.sessionId =
      .ok (if session ∈ history.live then some session else none)
  remove_live : ∀ session ∈ history.live,
    ∃ next, history.pool.remove session.sessionId = .ok (true, next)
  remove_gone : ∀ session ∈ history.issued, session ∉ history.live →
    history.pool.remove session.sessionId = .ok (false, history.pool)
  free_nodup : history.pool.freeIndices.Nodup
  free_iff : ∀ index, index ∈ history.pool.freeIndices ↔ history.pool.sessions[index]? = some none
  size_eq : history.pool.size = history.live.length
  getAll_perm : history.pool.getAll.Perm history.live
  live_nodup : history.live.Nodup

/-- The slots hold the live sessions, and session numbers are given out in order. -/
structure Sound (history : History) : Prop where
  numbers : history.issued.map (fun session => session.sessionId.id) =
    List.range history.issued.length
  next_eq : history.pool.nextIdx = history.issued.length % word64
  placed : ∀ session ∈ history.issued,
    session.sessionId.storageIndex < history.pool.sessions.length
  live_sublist : history.live.Sublist history.issued
  holds_iff : ∀ index session, history.pool.sessions[index]? = some (some session) ↔
    session ∈ history.live ∧ session.sessionId.storageIndex = index
  free_nodup : history.pool.freeIndices.Nodup
  free_iff : ∀ index, index ∈ history.pool.freeIndices ↔ history.pool.sessions[index]? = some none

theorem sound_fresh : ({} : History).Sound where
  numbers := rfl
  next_eq := rfl
  placed := by simp
  live_sublist := List.Sublist.refl []
  holds_iff := by simp
  free_nodup := List.nodup_nil
  free_iff := by simp

section Sound

variable {history : History} (sound : history.Sound)

include sound

theorem Sound.ids_nodup : (history.issued.map fun session => session.sessionId.id).Nodup := by
  rw [sound.numbers]
  exact List.nodup_range

theorem Sound.issued_nodup : history.issued.Nodup := sound.ids_nodup.of_map _

theorem Sound.live_nodup : history.live.Nodup := sound.issued_nodup.sublist sound.live_sublist

/-- The number of an issued session tells it from the others. -/
theorem Sound.same_iff {left right : PooledSession} (leftIssued : left ∈ history.issued)
    (rightIssued : right ∈ history.issued) :
    left.sessionId.same right.sessionId = true ↔ left = right := by
  constructor
  · intro same
    apply List.inj_on_of_nodup_map sound.ids_nodup leftIssued rightIssued
    simpa [SessionID.same] using same
  · intro equal
    simp [equal, SessionID.same]

theorem Sound.slot_of_live {session : PooledSession} (live : session ∈ history.live) :
    history.pool.sessions[session.sessionId.storageIndex]? = some (some session) :=
  (sound.holds_iff _ _).mpr ⟨live, rfl⟩

/-- The slot of a removed session is empty or holds another session. -/
theorem Sound.slot_of_gone {session : PooledSession} (issued : session ∈ history.issued)
    (gone : session ∉ history.live) :
    history.pool.sessions[session.sessionId.storageIndex]? = some none ∨
      ∃ other ∈ history.live, other.sessionId.same session.sessionId = false ∧
        history.pool.sessions[session.sessionId.storageIndex]? = some (some other) := by
  have inside := sound.placed session issued
  cases slot : history.pool.sessions[session.sessionId.storageIndex] with
  | none =>
      left
      simp [List.getElem?_eq_getElem inside, slot]
  | some other =>
      right
      have found : history.pool.sessions[session.sessionId.storageIndex]? = some (some other) := by
        simp [List.getElem?_eq_getElem inside, slot]
      have otherLive := ((sound.holds_iff _ _).mp found).1
      refine ⟨other, otherLive, ?_, found⟩
      apply Bool.eq_false_iff.mpr
      intro same
      apply gone
      rw [← (sound.same_iff (sound.live_sublist.subset otherLive) issued).mp same]
      exact otherLive

theorem Sound.get_eq {session : PooledSession} (issued : session ∈ history.issued) :
    history.pool.get session.sessionId =
      .ok (if session ∈ history.live then some session else none) := by
  by_cases live : session ∈ history.live
  · simp [SessionPool.get, slotAt, sound.slot_of_live live, live, SessionID.same]
  · rcases sound.slot_of_gone issued live with empty | ⟨other, _, differs, found⟩
    · simp [SessionPool.get, slotAt, empty, live]
    · simp [SessionPool.get, slotAt, found, differs, live]

theorem Sound.remove_live {session : PooledSession} (live : session ∈ history.live) :
    history.pool.remove session.sessionId = .ok (true,
      { history.pool with
        sessions := history.pool.sessions.set session.sessionId.storageIndex none
        freeIndices := history.pool.freeIndices ++ [session.sessionId.storageIndex] }) := by
  simp [SessionPool.remove, slotAt, sound.slot_of_live live, SessionID.same]

theorem Sound.remove_gone {session : PooledSession} (issued : session ∈ history.issued)
    (gone : session ∉ history.live) :
    history.pool.remove session.sessionId = .ok (false, history.pool) := by
  rcases sound.slot_of_gone issued gone with empty | ⟨other, _, differs, found⟩
  · simp [SessionPool.remove, slotAt, empty]
  · simp [SessionPool.remove, slotAt, found, differs]

theorem Sound.mem_reduceOption {session : PooledSession} :
    session ∈ history.pool.sessions.reduceOption ↔ session ∈ history.live := by
  simp only [List.reduceOption, List.mem_filterMap, id_eq, exists_eq_right]
  constructor
  · intro mem
    rcases List.mem_iff_getElem?.mp mem with ⟨index, found⟩
    exact ((sound.holds_iff _ _).mp found).1
  · intro live
    exact List.mem_of_getElem? (sound.slot_of_live live)

/-- No session is in two slots. -/
theorem Sound.reduceOption_nodup : history.pool.sessions.reduceOption.Nodup := by
  have slots : ∀ (front rest : List (Option PooledSession)),
      history.pool.sessions = front ++ rest → rest.reduceOption.Nodup := by
    intro front rest
    induction rest generalizing front with
    | nil => simp
    | cons slot rest ih =>
        intro split
        have tail := ih (front ++ [slot]) (by simpa using split)
        cases slot with
        | none => simpa using tail
        | some session =>
            rw [List.reduceOption_cons_of_some, List.nodup_cons]
            refine ⟨?_, tail⟩
            intro again
            simp only [List.reduceOption, List.mem_filterMap, id_eq, exists_eq_right] at again
            rcases List.mem_iff_getElem?.mp again with ⟨index, found⟩
            have here : history.pool.sessions[front.length]? = some (some session) := by
              simp [split]
            have there : history.pool.sessions[front.length + 1 + index]? = some (some session) := by
              rw [split, List.getElem?_append_right (by omega),
                show front.length + 1 + index - front.length = index + 1 by omega]
              simpa using found
            have hereAt := ((sound.holds_iff _ _).mp here).2
            have thereAt := ((sound.holds_iff _ _).mp there).2
            omega
  exact slots [] _ rfl

theorem Sound.reduceOption_perm : history.pool.sessions.reduceOption.Perm history.live :=
  (List.perm_ext_iff_of_nodup sound.reduceOption_nodup sound.live_nodup).mpr
    fun _ => sound.mem_reduceOption

/-- No occupied slot is listed as free, so the search in `get_all` leaves every session. -/
theorem Sound.getAll_perm : history.pool.getAll.Perm history.live := by
  have kept : history.pool.getAll = history.pool.sessions.reduceOption := by
    apply List.filter_eq_self.mpr
    intro session mem
    have slot := sound.slot_of_live (sound.mem_reduceOption.mp mem)
    simp [sound.free_iff, slot]
  rw [kept]
  exact sound.reduceOption_perm

/-- The free list has as many entries as there are empty slots. -/
theorem Sound.length_free :
    history.pool.freeIndices.length = (history.pool.sessions.filter Option.isNone).length := by
  have empties : history.pool.freeIndices.Perm
      ((List.range history.pool.sessions.length).filter
        fun index => history.pool.sessions[index]? = some none) := by
    apply (List.perm_ext_iff_of_nodup sound.free_nodup (List.nodup_range.filter _)).mpr
    intro index
    simp only [sound.free_iff, List.mem_filter, List.mem_range, decide_eq_true_eq]
    constructor
    · intro empty
      exact ⟨(List.getElem?_eq_some_iff.mp empty).1, empty⟩
    · exact fun both => both.2
  rw [empties.length_eq]
  generalize history.pool.sessions = slots
  induction slots using List.reverseRecOn with
  | nil => rfl
  | append_singleton slots slot ih =>
      have earlier : (List.range slots.length).filter
          (fun index => (slots ++ [slot])[index]? = some none) =
          (List.range slots.length).filter fun index => slots[index]? = some none := by
        apply List.filter_congr
        intro index mem
        simp [List.getElem?_append_left (List.mem_range.mp mem)]
      rw [List.length_append, List.length_singleton, List.range_succ, List.filter_append, earlier,
        List.length_append, ih, List.filter_append, List.length_append]
      cases slot <;> simp

theorem Sound.size_eq : history.pool.size = history.live.length := by
  have slots : history.pool.sessions.length = _ :=
    List.length_eq_reduceOption_length_add_filter_none
  have occupied := sound.reduceOption_perm.length_eq
  have free := sound.length_free
  simp only [SessionPool.size]
  omega

theorem Sound.slotMap : history.SlotMap where
  ids_nodup := sound.ids_nodup
  get_eq := fun _ issued => sound.get_eq issued
  remove_live := fun _ live => ⟨_, sound.remove_live live⟩
  remove_gone := fun _ issued gone => sound.remove_gone issued gone
  free_nodup := sound.free_nodup
  free_iff := sound.free_iff
  size_eq := sound.size_eq
  getAll_perm := sound.getAll_perm
  live_nodup := sound.live_nodup

end Sound

section Steps

variable {history : History}

/-- A session made for a slot that no live session has, under the next number. -/
theorem Sound.place (sound : history.Sound) (few : history.issued.length < word64)
    {session : PooledSession} {pool : SessionPool} (index : ℕ)
    (made : session.sessionId = ⟨index, history.pool.nextIdx⟩)
    (next_eq : pool.nextIdx = (history.pool.nextIdx + 1) % word64)
    (inside : index < pool.sessions.length)
    (longer : history.pool.sessions.length ≤ pool.sessions.length)
    (vacant : ∀ other, history.pool.sessions[index]? ≠ some (some other))
    (here : pool.sessions[index]? = some (some session))
    (elsewhere : ∀ other, other ≠ index → pool.sessions[other]? = history.pool.sessions[other]?)
    (free_nodup : pool.freeIndices.Nodup)
    (free_iff : ∀ other, other ∈ pool.freeIndices ↔ pool.sessions[other]? = some none) :
    Sound ⟨pool, history.issued ++ [session], history.live ++ [session]⟩ where
  numbers := by
    have number : session.sessionId.id = history.issued.length := by
      rw [made, sound.next_eq]
      exact Nat.mod_eq_of_lt few
    simp [List.range_succ, sound.numbers, number]
  next_eq := by
    simp [next_eq, sound.next_eq]
  placed := by
    intro other issued
    rcases List.mem_append.mp issued with earlier | new
    · exact Nat.lt_of_lt_of_le (sound.placed other earlier) longer
    · rw [List.mem_singleton.mp new, made]
      exact inside
  live_sublist := sound.live_sublist.append (List.Sublist.refl _)
  holds_iff := by
    intro slot other
    simp only [List.mem_append, List.mem_singleton]
    by_cases same : slot = index
    · subst same
      constructor
      · intro found
        rw [here, Option.some.injEq, Option.some.injEq] at found
        subst found
        exact ⟨.inr rfl, by simp [made]⟩
      · rintro ⟨live | rfl, at_⟩
        · exact absurd ((sound.holds_iff _ _).mpr ⟨live, at_⟩) (vacant other)
        · exact here
    · rw [elsewhere slot same, sound.holds_iff]
      constructor
      · exact fun ⟨live, at_⟩ => ⟨.inl live, at_⟩
      · rintro ⟨live | rfl, at_⟩
        · exact ⟨live, at_⟩
        · exact absurd (by simp [← at_, made]) same
  free_nodup := free_nodup
  free_iff := free_iff

theorem Sound.emplaceSession (sound : history.Sound) (few : history.issued.length < word64)
    (role : Role) (params : SessionParameters) :
    (history.step (.emplaceSession role params)).Sound := by
  cases last : history.pool.freeIndices.getLast? with
  | none =>
      have noneFree := List.getLast?_eq_none_iff.mp last
      simp only [step, SessionPool.emplaceSession, generateSessionId, last]
      apply sound.place few history.pool.sessions.length
      · rfl
      · rfl
      · simp
      · simp
      · intro other
        simp
      · simp
      · intro other differs
        rcases Nat.lt_or_ge other history.pool.sessions.length with lt | ge
        · simp [List.getElem?_append_left lt]
        · rw [List.getElem?_eq_none (by simp; omega), List.getElem?_eq_none ge]
      · exact sound.free_nodup
      · intro other
        have unlisted := sound.free_iff other
        simp only [noneFree, List.not_mem_nil, false_iff] at unlisted ⊢
        intro empty
        rcases Nat.lt_or_ge other history.pool.sessions.length with lt | ge
        · rw [List.getElem?_append_left lt] at empty
          exact unlisted empty
        · rw [List.getElem?_append_right ge] at empty
          have atZero := (List.getElem?_eq_some_iff.mp empty).1
          simp only [List.length_singleton] at atZero
          simp [show other - history.pool.sessions.length = 0 by omega] at empty
  | some nxt =>
      have split := List.dropLast_append_getLast? nxt last
      have listed : nxt ∈ history.pool.freeIndices := List.mem_of_getLast? last
      have empty := (sound.free_iff nxt).mp listed
      have inside := (List.getElem?_eq_some_iff.mp empty).1
      have unique := sound.free_nodup
      rw [← split, List.nodup_append] at unique
      simp only [step, SessionPool.emplaceSession, generateSessionId, last]
      apply sound.place few nxt
      · rfl
      · rfl
      · simpa using inside
      · simp
      · intro other
        simp [empty]
      · simp [inside]
      · intro other differs
        simp [List.getElem?_set_ne (Ne.symm differs)]
      · exact unique.1
      · intro other
        have listedIff : other ∈ history.pool.freeIndices ↔
            other ∈ history.pool.freeIndices.dropLast ∨ other = nxt := by
          conv_lhs => rw [← split]
          simp
        by_cases same : other = nxt
        · subst same
          have dropped : other ∉ history.pool.freeIndices.dropLast := fun mem =>
            unique.2.2 other mem other (by simp) rfl
          simp [dropped, inside]
        · rw [List.getElem?_set_ne (Ne.symm same), ← sound.free_iff, listedIff]
          simp [same]

theorem Sound.remove (sound : history.Sound) {session : PooledSession}
    (issued : session ∈ history.issued) :
    (history.step (.remove session.sessionId)).Sound := by
  by_cases live : session ∈ history.live
  · have slot := sound.slot_of_live live
    have inside := (List.getElem?_eq_some_iff.mp slot).1
    have kept : ∀ other, other ∈ history.live.filter
        (fun other => !other.sessionId.same session.sessionId) ↔
        other ∈ history.live ∧ other ≠ session := by
      intro other
      rw [List.mem_filter]
      apply and_congr_right
      intro otherLive
      have same := sound.same_iff (sound.live_sublist.subset otherLive) issued
      simp [← same]
    have unlisted : session.sessionId.storageIndex ∉ history.pool.freeIndices := by
      simp [sound.free_iff, slot]
    simp only [step, sound.remove_live live]
    refine ⟨sound.numbers, sound.next_eq, by simpa using sound.placed,
      (List.filter_sublist).trans sound.live_sublist, ?_, ?_, ?_⟩
    · intro index other
      simp only [kept]
      by_cases same : session.sessionId.storageIndex = index
      · subst same
        simp only [List.getElem?_set_self inside, Option.some.injEq, reduceCtorEq, false_iff]
        rintro ⟨⟨otherLive, differs⟩, at_⟩
        have found := sound.slot_of_live otherLive
        rw [at_, slot, Option.some.injEq, Option.some.injEq] at found
        exact differs found.symm
      · rw [List.getElem?_set_ne same, sound.holds_iff]
        constructor
        · rintro ⟨otherLive, at_⟩
          refine ⟨⟨otherLive, ?_⟩, at_⟩
          rintro rfl
          exact same at_
        · exact fun ⟨both, at_⟩ => ⟨both.1, at_⟩
    · apply List.Nodup.append sound.free_nodup (List.nodup_singleton _)
      simpa using unlisted
    · intro index
      simp only [List.mem_append, List.mem_singleton]
      by_cases same : session.sessionId.storageIndex = index
      · subst same
        simp [List.getElem?_set_self inside]
      · rw [List.getElem?_set_ne same, sound.free_iff]
        simp [Ne.symm same]
  · have kept : history.live.filter (fun other => !other.sessionId.same session.sessionId) =
        history.live := by
      apply List.filter_eq_self.mpr
      intro other otherLive
      have same := sound.same_iff (sound.live_sublist.subset otherLive) issued
      simp only [Bool.not_eq_true', ← Bool.not_eq_true, same]
      rintro rfl
      exact live otherLive
    simp only [step, sound.remove_gone issued live, kept]
    exact ⟨sound.numbers, sound.next_eq, sound.placed, sound.live_sublist, sound.holds_iff,
      sound.free_nodup, sound.free_iff⟩

theorem length_issued_step (history : History) (op : Op) :
    (history.step op).issued.length =
      history.issued.length + (if op.creates then 1 else 0) := by
  cases op <;> simp [step, Op.creates]

theorem Sound.run (sound : history.Sound) {ops : List Op} (legal : history.Legal ops)
    (few : history.issued.length + ops.countP Op.creates ≤ word64) : (history.run ops).Sound := by
  induction ops generalizing history with
  | nil => exact sound
  | cons op ops ih =>
      have counted := length_issued_step history op
      rw [List.countP_cons] at few
      cases op with
      | emplaceSession role params =>
          apply ih
          · apply sound.emplaceSession
            simp only [Op.creates, if_true] at few
            omega
          · exact legal
          · omega
      | remove id =>
          rcases legal with ⟨⟨session, issued, rfl⟩, legal⟩
          apply ih (sound.remove issued) legal
          omega

end Steps

/-- In every history in which the counter of session numbers has not wrapped, the pool is a slot
map. -/
theorem run_slotMap (ops : List Op) (legal : ({} : History).Legal ops)
    (few : ops.countP Op.creates ≤ word64) : (({} : History).run ops).SlotMap :=
  (sound_fresh.run legal (by simpa using few)).slotMap

/-- A slot is used again while its old id is still around. -/
def reuse : List Op :=
  [.emplaceSession .initiator {}, .emplaceSession .acceptor {}, .remove ⟨0, 0⟩,
    .emplaceSession .initiator {}, .remove ⟨0, 0⟩]

theorem run_slotMap_reuse : (({} : History).run reuse).SlotMap := by
  apply run_slotMap reuse
  · exact ⟨⟨_, List.mem_cons_self .., rfl⟩, ⟨_, List.mem_cons_self .., rfl⟩, trivial⟩
  · decide

section Wrap

theorem run_append (history : History) (front rest : List Op) :
    history.run (front ++ rest) = (history.run front).run rest :=
  List.foldl_append

theorem legal_append {history : History} {front rest : List Op} (frontLegal : history.Legal front)
    (restLegal : (history.run front).Legal rest) : history.Legal (front ++ rest) := by
  induction front generalizing history with
  | nil => exact restLegal
  | cons op front ih =>
      cases op with
      | emplaceSession role params => exact ih frontLegal restLegal
      | remove id => exact ⟨frontLegal.1, ih frontLegal.2 restLegal⟩

/-- One session after the other is made and removed, always in the first slot. -/
def recycle : ℕ → List Op
  | 0 => []
  | rounds + 1 =>
      recycle rounds ++ [.emplaceSession .initiator {}, .remove ⟨0, rounds % word64⟩]

/-- The pool after that many rounds. -/
def recycledPool (rounds : ℕ) : SessionPool :=
  if rounds = 0 then {} else ⟨[none], [0], rounds % word64⟩

theorem run_recycle (rounds : ℕ) :
    (({} : History).run (recycle rounds)).pool = recycledPool rounds ∧
      (({} : History).run (recycle rounds)).issued.map PooledSession.sessionId =
        (List.range rounds).map (fun round => ⟨0, round % word64⟩) ∧
      ({} : History).Legal (recycle rounds) := by
  induction rounds with
  | zero => exact ⟨rfl, rfl, trivial⟩
  | succ rounds ih =>
      rcases ih with ⟨pool, issued, legal⟩
      have made : (recycledPool rounds).emplaceSession .initiator {} =
          (⟨⟨0, rounds % word64⟩, .initiator, {}⟩,
            ⟨[some ⟨⟨0, rounds % word64⟩, .initiator, {}⟩], [], (rounds + 1) % word64⟩) := by
        by_cases zero : rounds = 0
        · simp [recycledPool, zero, SessionPool.emplaceSession, generateSessionId]
        · simp [recycledPool, zero, SessionPool.emplaceSession, generateSessionId]
      rw [recycle, run_append]
      have issues : (({} : History).run (recycle rounds)).Legal
          [.emplaceSession .initiator {}, .remove ⟨0, rounds % word64⟩] := by
        refine ⟨⟨⟨⟨0, rounds % word64⟩, .initiator, {}⟩, ?_, rfl⟩, trivial⟩
        simp [step, pool, made]
      refine ⟨?_, ?_, legal_append legal issues⟩
      · generalize ({} : History).run (recycle rounds) = earlier at pool
        rw [recycledPool, if_neg (Nat.succ_ne_zero rounds)]
        simp [run, step, pool, made, SessionPool.remove, slotAt, SessionID.same]
      · rw [List.range_succ, List.map_append, ← issued]
        generalize ({} : History).run (recycle rounds) = earlier at pool
        simp [run, step, pool, made]

theorem not_slotMap_recycle {rounds : ℕ} (wraps : word64 < rounds) :
    ({} : History).Legal (recycle rounds) ∧
      ¬(({} : History).run (recycle rounds)).SlotMap := by
  rcases run_recycle rounds with ⟨_, issued, legal⟩
  refine ⟨legal, ?_⟩
  intro slotMap
  have numbers := slotMap.ids_nodup
  have ids := congrArg (List.map SessionID.id) issued
  rw [List.map_map, List.map_map] at ids
  rw [show (fun session : PooledSession => session.sessionId.id) =
    SessionID.id ∘ PooledSession.sessionId from rfl, ids] at numbers
  have same := List.inj_on_of_nodup_map numbers (List.mem_range.mpr (Nat.zero_lt_of_lt wraps))
    (List.mem_range.mpr wraps) (by simp)
  exact absurd same (by decide)

/-- After `2 ^ 64` sessions the numbers start again. -/
theorem run_recycle_repeats :
    ({} : History).Legal (recycle (word64 + 1)) ∧
      ¬(({} : History).run (recycle (word64 + 1))).SlotMap :=
  not_slotMap_recycle (Nat.lt_succ_self word64)

end Wrap

end History

end SessionPool

end FixEngine
