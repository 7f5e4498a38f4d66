import FixEngine.Core.MpscRing
import Mathlib.Data.List.Infix

/-!
# Many producers and one consumer

Any number of producers run `push` and one consumer runs `pop` on one ring, and every access to
shared memory is a step of its own. `pushed` lists the items by their tickets and `returned` what
`pop` has returned. The invariant says for each ticket of the current round whether its cell is
vacant or filled, and for each producer between its ticket and its release what it may rely on.
-/

namespace FixEngine

/-- Where a call of `push` is: it has a ticket, has left the wait loop, or has written its item. -/
inductive Producer (α : Type)
  | idle
  | waiting (ticket : ℕ) (data : α)
  | writing (ticket : ℕ) (data : α)
  | publishing (ticket : ℕ)
  deriving DecidableEq, Repr

namespace Producer

variable {α : Type}

/-- The ticket a producer holds. -/
def ticket? : Producer α → Option ℕ
  | .idle => none
  | .waiting ticket _ => some ticket
  | .writing ticket _ => some ticket
  | .publishing ticket => some ticket

/-- The ticket of a producer that has left the wait loop. -/
def past? : Producer α → Option ℕ
  | .idle => none
  | .waiting _ _ => none
  | .writing ticket _ => some ticket
  | .publishing ticket => some ticket

end Producer

/-- Where the call of `pop` is: the epoch was the expected one, the item is moved out, or the cell is
released. -/
inductive Consumer (α : Type)
  | idle
  | matched
  | moved (out : α)
  | released (out : α)
  deriving DecidableEq, Repr

/-- The ring, the places of its users in `push` and `pop`, and what went in and out. -/
structure LogRing (ι α : Type) where
  ring : MpscRing α
  producers : ι → Producer α
  consumer : Consumer α
  pushed : List α
  returned : List α

namespace LogRing

variable {ι α : Type}

/-- The atomic steps of `push` and `pop`. -/
inductive Event (ι α : Type)
  /-- `push(data)` is called and takes a ticket. -/
  | start (producer : ι) (data : α)
  /-- One load of the wait loop. -/
  | spin (producer : ι)
  | write (producer : ι)
  | publish (producer : ι)
  /-- `pop` is called and loads the epoch. -/
  | check
  | take
  | release
  /-- The tail is advanced and `pop` returns. -/
  | finish
  deriving DecidableEq, Repr

/-- A new ring that nobody uses yet. -/
def new [Inhabited α] : LogRing ι α := ⟨.new, fun _ => .idle, .idle, [], []⟩

section Step

variable [DecidableEq ι]

/-- A producer at another place. -/
def withProducer (state : LogRing ι α) (producer : ι) (pc : Producer α) : LogRing ι α :=
  { state with producers := Function.update state.producers producer pc }

/-- What a thread does when it is scheduled; one that is not at the named place does nothing. -/
def step (leftover : α → α) (state : LogRing ι α) : Event ι α → LogRing ι α
  | .start producer data =>
      match state.producers producer with
      | .idle =>
          let (ticket, ring) := state.ring.fetchAdd
          { state with ring := ring, pushed := state.pushed ++ [data] }.withProducer producer
            (.waiting ticket data)
      | _ => state
  | .spin producer =>
      match state.producers producer with
      | .waiting ticket data =>
          if ticket ≠ state.ring.loadEpoch ticket then state
          else state.withProducer producer (.writing ticket data)
      | _ => state
  | .write producer =>
      match state.producers producer with
      | .writing ticket data =>
          { state with ring := state.ring.storeData ticket data }.withProducer producer
            (.publishing ticket)
      | _ => state
  | .publish producer =>
      match state.producers producer with
      | .publishing ticket =>
          { state with ring := state.ring.storeEpoch ticket (ticket + 1) }.withProducer producer .idle
      | _ => state
  | .check =>
      match state.consumer with
      | .idle =>
          if state.ring.loadEpoch state.ring.tail ≠ (state.ring.tail + 1) % word64 then state
          else { state with consumer := .matched }
      | _ => state
  | .take =>
      match state.consumer with
      | .matched =>
          let (out, ring) := state.ring.moveData leftover state.ring.tail
          { state with ring := ring, consumer := .moved out }
      | _ => state
  | .release =>
      match state.consumer with
      | .moved out =>
          { state with
            ring := state.ring.storeEpoch state.ring.tail (state.ring.tail + MpscRing.capacity)
            consumer := .released out }
      | _ => state
  | .finish =>
      match state.consumer with
      | .released out =>
          { state with
            ring := state.ring.advanceTail
            consumer := .idle
            returned := state.returned ++ [out] }
      | _ => state

/-- The state after steps in the order given. -/
def run [Inhabited α] (leftover : α → α) (events : List (Event ι α)) : LogRing ι α :=
  events.foldl (step leftover) new

end Step

/-- What was moved out of the cells, in order. -/
def popped (state : LogRing ι α) : List α :=
  match state.consumer with
  | .moved out => state.returned ++ [out]
  | .released out => state.returned ++ [out]
  | _ => state.returned

/-- The number of cells that the consumer has released. -/
def freed (state : LogRing ι α) : ℕ :=
  match state.consumer with
  | .released _ => state.returned.length + 1
  | _ => state.returned.length

/-- The cell of ticket `n`. -/
def cell (state : LogRing ι α) (n : ℕ) : RingCell α := state.ring.buff (n % MpscRing.capacity)

/-- The cell of ticket `n` waits for its item. -/
structure Vacant (state : LogRing ι α) (n : ℕ) : Prop where
  epoch : (state.cell n).epoch = n % word64
  written : ∀ producer, state.producers producer = .publishing n →
    state.pushed[n]? = some (state.cell n).data

/-- The cell of ticket `n` is published, and still has its item unless that was moved out. -/
structure Filled (state : LogRing ι α) (n : ℕ) : Prop where
  epoch : (state.cell n).epoch = (n + 1) % word64
  lt : n < state.pushed.length
  unheld : ∀ producer, (state.producers producer).ticket? ≠ some n
  data : n < state.popped.length ∨ state.pushed[n]? = some (state.cell n).data

/-- What the consumer relies on between the steps of `pop`. -/
def ConsumerSound (state : LogRing ι α) : Prop :=
  match state.consumer with
  | .idle => True
  | .matched => state.Filled state.returned.length
  | .moved out =>
      state.Filled state.returned.length ∧ state.pushed[state.returned.length]? = some out
  | .released out => state.pushed[state.returned.length]? = some out

/-- The invariant: what each cell holds between the entries taken and a round beyond them, and what
each user knows at its place. -/
structure Sound (state : LogRing ι α) : Prop where
  head : state.ring.head = state.pushed.length % word64
  tail : state.ring.tail = state.returned.length % word64
  returned : state.returned <+: state.pushed
  freed_le : state.freed ≤ state.pushed.length
  cells : ∀ n, state.freed ≤ n → n < state.freed + MpscRing.capacity →
    state.Vacant n ∨ state.Filled n
  held : ∀ producer ticket, (state.producers producer).ticket? = some ticket →
    state.freed ≤ ticket ∧ ticket < state.pushed.length
  distinct : ∀ first second ticket, (state.producers first).ticket? = some ticket →
    (state.producers second).ticket? = some ticket → first = second
  item : ∀ producer ticket data, (state.producers producer = .waiting ticket data ∨
    state.producers producer = .writing ticket data) → state.pushed[ticket]? = some data
  past : ∀ producer ticket, (state.producers producer).past? = some ticket →
    ticket < state.freed + MpscRing.capacity
  consumer : state.ConsumerSound

section Frame

variable {state after : LogRing ι α} {n : ℕ}

theorem getElem?_of_isPrefix {front whole : List α} {place : ℕ} {item : α}
    (begins : front <+: whole) (found : front[place]? = some item) : whole[place]? = some item := by
  rcases begins with ⟨rest, rfl⟩
  rw [List.getElem?_append_left (List.getElem?_eq_some_iff.mp found).1]
  exact found

theorem Filled.mono (filled : state.Filled n) (cellEq : after.cell n = state.cell n)
    (pushed : state.pushed <+: after.pushed) (popped : state.popped <+: after.popped)
    (unheld : ∀ producer, (after.producers producer).ticket? = some n →
      (state.producers producer).ticket? = some n) : after.Filled n where
  epoch := by rw [cellEq, filled.epoch]
  lt := Nat.lt_of_lt_of_le filled.lt pushed.length_le
  unheld := by
    intro producer holds
    exact filled.unheld producer (unheld producer holds)
  data := by
    rw [cellEq]
    rcases filled.data with out | inside
    · exact .inl (Nat.lt_of_lt_of_le out popped.length_le)
    · exact .inr (getElem?_of_isPrefix pushed inside)

theorem Vacant.mono (vacant : state.Vacant n) (cellEq : after.cell n = state.cell n)
    (pushed : state.pushed <+: after.pushed)
    (publishing : ∀ producer, after.producers producer = .publishing n →
      state.producers producer = .publishing n) : after.Vacant n where
  epoch := by rw [cellEq, vacant.epoch]
  written := by
    intro producer place
    rw [cellEq]
    exact getElem?_of_isPrefix pushed (vacant.written producer (publishing producer place))

theorem Producer.ticket_of_past {pc : Producer α} {ticket : ℕ} (past : pc.past? = some ticket) :
    pc.ticket? = some ticket := by
  cases pc <;> simp_all [Producer.past?, Producer.ticket?]

/-- An epoch that is a ticket is that of the ticket's own turn. -/
theorem Sound.lt_of_epoch (sound : state.Sound) (few : state.pushed.length < word64) {ticket : ℕ}
    (low : state.freed ≤ ticket) (high : ticket < state.pushed.length)
    (epoch : (state.cell ticket).epoch = ticket) :
    ticket < state.freed + MpscRing.capacity := by
  -- The ticket of the current round that has the same cell.
  let n := state.freed + (ticket - state.freed) % MpscRing.capacity
  have below : (ticket - state.freed) % MpscRing.capacity < MpscRing.capacity :=
    Nat.mod_lt _ (by decide)
  have same : n % MpscRing.capacity = ticket % MpscRing.capacity := by
    simp only [n, Nat.add_mod_mod]
    congr 1
    omega
  have cellEq : state.cell n = state.cell ticket := by rw [cell, cell, same]
  have le : n ≤ ticket := by
    have := Nat.mod_le (ticket - state.freed) MpscRing.capacity
    omega
  rcases sound.cells n (Nat.le_add_right _ _) (by omega) with vacant | filled
  · have turn := vacant.epoch
    rw [cellEq, epoch, Nat.mod_eq_of_lt (by omega)] at turn
    omega
  · have turn := filled.epoch
    have lt := filled.lt
    rw [cellEq, epoch, Nat.mod_eq_of_lt (by omega)] at turn
    simp only [MpscRing.capacity] at same
    omega

end Frame

section Producers

variable [DecidableEq ι] {state : LogRing ι α} {producer : ι}

theorem producers_withProducer (state : LogRing ι α) (producer : ι) (pc : Producer α) (other : ι) :
    (state.withProducer producer pc).producers other =
      if other = producer then pc else state.producers other :=
  Function.update_apply ..

/-- A vacant cell that is left alone stays vacant unless its producer gets ready to publish. -/
theorem Vacant.withProducer {n : ℕ} {ring : MpscRing α} {pushed : List α} {pc : Producer α}
    (vacant : state.Vacant n)
    (cellEq : ring.buff (n % MpscRing.capacity) = state.ring.buff (n % MpscRing.capacity))
    (longer : state.pushed <+: pushed) (notPublishing : pc ≠ .publishing n) :
    ({ state with ring := ring, pushed := pushed }.withProducer producer pc).Vacant n := by
  refine vacant.mono cellEq longer ?_
  intro other publishing
  rw [producers_withProducer] at publishing
  split at publishing
  · exact absurd publishing notPublishing
  · exact publishing

/-- A filled cell that is left alone stays filled unless a producer takes its ticket. -/
theorem Filled.withProducer {n : ℕ} {ring : MpscRing α} {pushed : List α} {pc : Producer α}
    (filled : state.Filled n)
    (cellEq : ring.buff (n % MpscRing.capacity) = state.ring.buff (n % MpscRing.capacity))
    (longer : state.pushed <+: pushed)
    (own : pc.ticket? = some n → (state.producers producer).ticket? = some n) :
    ({ state with ring := ring, pushed := pushed }.withProducer producer pc).Filled n := by
  refine filled.mono cellEq longer (List.prefix_refl _) ?_
  intro other holds
  rw [producers_withProducer] at holds
  split at holds
  · next same => rw [same]; exact own holds
  · exact holds

/-- A new ticket is above all others, and no cell is touched. -/
theorem Sound.start (sound : state.Sound) (few : state.pushed.length < word64) (producer : ι)
    (data : α) :
    ({ state with
        ring := state.ring.fetchAdd.2
        pushed := state.pushed ++ [data] }.withProducer producer
      (.waiting state.ring.fetchAdd.1 data)).Sound := by
  have ticket : state.ring.fetchAdd.1 = state.pushed.length := by
    show state.ring.head = _
    rw [sound.head, Nat.mod_eq_of_lt few]
  rw [ticket]
  have longer : state.pushed <+: state.pushed ++ [data] := List.prefix_append _ _
  have length : (state.pushed ++ [data]).length = state.pushed.length + 1 := by simp
  have filled : ∀ n, state.Filled n →
      ({ state with
          ring := state.ring.fetchAdd.2
          pushed := state.pushed ++ [data] }.withProducer producer
        (.waiting state.pushed.length data)).Filled n := by
    intro n filled
    refine filled.withProducer rfl longer ?_
    intro holds
    have lt := filled.lt
    rw [Producer.ticket?, Option.some.injEq] at holds
    omega
  refine ⟨?_, sound.tail, sound.returned.trans longer, ?_, ?_, ?_, ?_, ?_, ?_, ?_⟩
  · show (state.ring.head + 1) % word64 = (state.pushed ++ [data]).length % word64
    rw [sound.head, Nat.mod_add_mod, length]
  · exact Nat.le_trans sound.freed_le longer.length_le
  · intro n low high
    rcases sound.cells n low high with vacant | isFilled
    · left
      refine vacant.withProducer rfl longer ?_
      intro publishing
      cases publishing
    · exact .inr (filled n isFilled)
  · intro other t holds
    rw [producers_withProducer] at holds
    show state.freed ≤ t ∧ t < (state.pushed ++ [data]).length
    rw [length]
    split at holds
    · rw [Producer.ticket?, Option.some.injEq] at holds
      have := sound.freed_le
      omega
    · have := sound.held other t holds
      omega
  · intro first second t holdsFirst holdsSecond
    rw [producers_withProducer] at holdsFirst holdsSecond
    split at holdsFirst
    · split at holdsSecond
      · next isFirst isSecond => rw [isFirst, isSecond]
      · rw [Producer.ticket?, Option.some.injEq] at holdsFirst
        have := (sound.held second t holdsSecond).2
        omega
    · split at holdsSecond
      · rw [Producer.ticket?, Option.some.injEq] at holdsSecond
        have := (sound.held first t holdsFirst).2
        omega
      · exact sound.distinct first second t holdsFirst holdsSecond
  · intro other t item place
    rw [producers_withProducer] at place
    show (state.pushed ++ [data])[t]? = some item
    split at place
    · rcases place with place | place
      · cases place
        simp
      · cases place
    · exact getElem?_of_isPrefix longer (sound.item other t item place)
  · intro other t past
    rw [producers_withProducer] at past
    split at past
    · cases past
    · exact sound.past other t past
  · have consumer := sound.consumer
    simp only [ConsumerSound, withProducer] at consumer ⊢
    split at consumer
    · trivial
    · exact filled _ consumer
    · exact ⟨filled _ consumer.1, getElem?_of_isPrefix longer consumer.2⟩
    · exact getElem?_of_isPrefix longer consumer

/-- A producer goes on with its own ticket, or gives it up. -/
theorem Sound.progress {ring : MpscRing α} {pc : Producer α} (sound : state.Sound)
    (head : ring.head = state.ring.head) (tail : ring.tail = state.ring.tail)
    (own : ∀ ticket, pc.ticket? = some ticket →
      (state.producers producer).ticket? = some ticket)
    (item : ∀ ticket data, pc = .waiting ticket data ∨ pc = .writing ticket data →
      state.pushed[ticket]? = some data)
    (past : ∀ ticket, pc.past? = some ticket → ticket < state.freed + MpscRing.capacity)
    (vacant : ∀ n, state.freed ≤ n → n < state.freed + MpscRing.capacity → state.Vacant n →
      ({ state with ring := ring }.withProducer producer pc).Vacant n ∨
        ({ state with ring := ring }.withProducer producer pc).Filled n)
    (filled : ∀ n, state.freed ≤ n → n < state.freed + MpscRing.capacity → state.Filled n →
      ({ state with ring := ring }.withProducer producer pc).Filled n) :
    ({ state with ring := ring }.withProducer producer pc).Sound := by
  have held : ∀ other ticket,
      (({ state with ring := ring }.withProducer producer pc).producers other).ticket? =
        some ticket → (state.producers other).ticket? = some ticket := by
    intro other ticket holds
    rw [producers_withProducer] at holds
    split at holds
    · next same => rw [same]; exact own ticket holds
    · exact holds
  refine ⟨head.trans sound.head, tail.trans sound.tail, sound.returned, sound.freed_le, ?_, ?_, ?_,
    ?_, ?_, ?_⟩
  · intro n low high
    rcases sound.cells n low high with isVacant | isFilled
    · exact vacant n low high isVacant
    · exact .inr (filled n low high isFilled)
  · intro other ticket holds
    exact sound.held other ticket (held other ticket holds)
  · intro first second ticket holdsFirst holdsSecond
    exact sound.distinct first second ticket (held first ticket holdsFirst)
      (held second ticket holdsSecond)
  · intro other ticket data place
    rw [producers_withProducer] at place
    split at place
    · exact item ticket data place
    · exact sound.item other ticket data place
  · intro other ticket isPast
    rw [producers_withProducer] at isPast
    split at isPast
    · exact past ticket isPast
    · exact sound.past other ticket isPast
  · have consumer := sound.consumer
    have inside : state.returned.length < state.returned.length + MpscRing.capacity :=
      Nat.lt_add_of_pos_right (by decide)
    simp only [ConsumerSound, withProducer] at consumer ⊢
    split at consumer
    · trivial
    · next isMatched =>
        have freed : state.freed = state.returned.length := by rw [LogRing.freed, isMatched]
        exact filled _ (by omega) (by omega) consumer
    · next out isMoved =>
        have freed : state.freed = state.returned.length := by rw [LogRing.freed, isMoved]
        exact ⟨filled _ (by omega) (by omega) consumer.1, consumer.2⟩
    · exact consumer

/-- The wait loop is left when the cell is vacant for the ticket, which is a ticket of the current
round then. -/
theorem Sound.spin {ticket : ℕ} {data : α} (sound : state.Sound)
    (few : state.pushed.length < word64) (place : state.producers producer = .waiting ticket data)
    (turn : state.ring.loadEpoch ticket = ticket) :
    (state.withProducer producer (.writing ticket data)).Sound := by
  have holds : (state.producers producer).ticket? = some ticket := by rw [place]; rfl
  have bounds := sound.held producer ticket holds
  have epoch : (state.cell ticket).epoch = ticket := by
    rw [cell, ← MpscRing.cellOf_eq]
    exact turn
  refine sound.progress rfl rfl ?_ ?_ ?_ ?_ ?_
  · intro other same
    rw [holds]
    exact same
  · intro other item places
    rcases places with places | places
    · cases places
    · cases places
      exact sound.item producer ticket data (.inl place)
  · intro other same
    rw [Producer.past?, Option.some.injEq] at same
    rw [← same]
    exact sound.lt_of_epoch few bounds.1 bounds.2 epoch
  · intro n _ _ vacant
    left
    apply vacant.withProducer rfl (List.prefix_refl _)
    intro publishing
    cases publishing
  · intro n _ _ filled
    apply filled.withProducer rfl (List.prefix_refl _)
    intro same
    rw [holds]
    exact same

/-- The item goes into the producer's own cell. -/
theorem Sound.write {ticket : ℕ} {data : α} (sound : state.Sound)
    (place : state.producers producer = .writing ticket data) :
    ({ state with ring := state.ring.storeData ticket data }.withProducer producer
      (.publishing ticket)).Sound := by
  have holds : (state.producers producer).ticket? = some ticket := by rw [place]; rfl
  have isPast : (state.producers producer).past? = some ticket := by rw [place]; rfl
  have bounds := sound.held producer ticket holds
  have inside := sound.past producer ticket isPast
  have ownCell : ({ state with ring := state.ring.storeData ticket data }.withProducer producer
      (.publishing ticket)).cell ticket = { state.cell ticket with data := data } := by
    simp [cell, withProducer, MpscRing.storeData, MpscRing.cellOf_eq]
  have others : ∀ n, state.freed ≤ n → n < state.freed + MpscRing.capacity → n ≠ ticket →
      ({ state with ring := state.ring.storeData ticket data }.withProducer producer
        (.publishing ticket)).cell n = state.cell n := by
    intro n low high differs
    simp only [cell, withProducer, MpscRing.storeData, MpscRing.cellOf_eq]
    apply Function.update_of_ne
    exact MpscRing.cell_ne low high bounds.1 inside differs
  refine sound.progress rfl rfl ?_ ?_ ?_ ?_ ?_
  · intro other same
    rw [holds]
    exact same
  · intro other item places
    rcases places with places | places <;> cases places
  · intro other same
    rw [Producer.past?, Option.some.injEq] at same
    rw [← same]
    exact inside
  · intro n low high vacant
    left
    by_cases own : n = ticket
    · subst own
      refine ⟨by rw [ownCell]; exact vacant.epoch, ?_⟩
      intro other _
      rw [ownCell]
      exact sound.item producer n data (.inr place)
    · apply vacant.withProducer (others n low high own) (List.prefix_refl _)
      intro publishing
      cases publishing
      exact own rfl
  · intro n low high filled
    have own : n ≠ ticket := by
      rintro rfl
      exact filled.unheld producer holds
    apply filled.withProducer (others n low high own) (List.prefix_refl _)
    intro same
    rw [holds]
    exact same

/-- The cell is filled, and its ticket given up. -/
theorem Sound.publish {ticket : ℕ} (sound : state.Sound)
    (place : state.producers producer = .publishing ticket) :
    ({ state with ring := state.ring.storeEpoch ticket (ticket + 1) }.withProducer producer
      .idle).Sound := by
  have holds : (state.producers producer).ticket? = some ticket := by rw [place]; rfl
  have isPast : (state.producers producer).past? = some ticket := by rw [place]; rfl
  have bounds := sound.held producer ticket holds
  have inside := sound.past producer ticket isPast
  have ownCell : ({ state with ring := state.ring.storeEpoch ticket (ticket + 1) }.withProducer
      producer .idle).cell ticket =
      { state.cell ticket with epoch := (ticket + 1) % word64 } := by
    simp [cell, withProducer, MpscRing.storeEpoch, MpscRing.cellOf_eq]
  have others : ∀ n, state.freed ≤ n → n < state.freed + MpscRing.capacity → n ≠ ticket →
      ({ state with ring := state.ring.storeEpoch ticket (ticket + 1) }.withProducer producer
        .idle).cell n = state.cell n := by
    intro n low high differs
    simp only [cell, withProducer, MpscRing.storeEpoch, MpscRing.cellOf_eq]
    apply Function.update_of_ne
    exact MpscRing.cell_ne low high bounds.1 inside differs
  refine sound.progress rfl rfl ?_ ?_ ?_ ?_ ?_
  · intro other same
    cases same
  · intro other item places
    rcases places with places | places <;> cases places
  · intro other same
    cases same
  · intro n low high vacant
    by_cases own : n = ticket
    · subst own
      right
      refine ⟨by rw [ownCell], bounds.2, ?_, ?_⟩
      · intro other same
        rw [producers_withProducer] at same
        split at same
        · cases same
        · next differs => exact differs (sound.distinct other producer n same holds)
      · rw [ownCell]
        exact .inr (vacant.written producer place)
    · left
      apply vacant.withProducer (others n low high own) (List.prefix_refl _)
      intro publishing
      cases publishing
  · intro n low high filled
    have own : n ≠ ticket := by
      rintro rfl
      exact filled.unheld producer holds
    apply filled.withProducer (others n low high own) (List.prefix_refl _)
    intro same
    cases same

end Producers

section Consumer

variable {state : LogRing ι α} {out : α}

theorem append_isPrefix {front whole : List α} {item : α} (begins : front <+: whole)
    (next : whole[front.length]? = some item) : front ++ [item] <+: whole := by
  rcases begins with ⟨rest, rfl⟩
  rw [List.getElem?_append_right (Nat.le_refl _), Nat.sub_self] at next
  cases rest with
  | nil => cases next
  | cons first rest =>
      cases next
      exact ⟨rest, by simp⟩

/-- A filled cell does not look vacant. -/
theorem Filled.not_vacant {n : ℕ} (filled : state.Filled n) : ¬state.Vacant n := by
  intro vacant
  have epoch := filled.epoch
  rw [vacant.epoch] at epoch
  simp only [word64] at epoch
  omega

theorem Sound.cell_tail (sound : state.Sound) :
    MpscRing.cellOf state.ring.tail = state.returned.length % MpscRing.capacity := by
  rw [sound.tail, MpscRing.cellOf_mod]

/-- A step of the consumer that releases no cell. -/
theorem Sound.sameRound {after : LogRing ι α} (sound : state.Sound)
    (producers : after.producers = state.producers) (pushed : after.pushed = state.pushed)
    (head : after.ring.head = state.ring.head)
    (tail : after.ring.tail = after.returned.length % word64)
    (returned : after.returned <+: state.pushed) (freed : after.freed = state.freed)
    (cells : ∀ n, state.freed ≤ n → n < state.freed + MpscRing.capacity →
      state.Vacant n ∨ state.Filled n → after.Vacant n ∨ after.Filled n)
    (consumer : after.ConsumerSound) : after.Sound where
  head := by rw [head, pushed, sound.head]
  tail := tail
  returned := by
    rw [pushed]
    exact returned
  freed_le := by
    rw [freed, pushed]
    exact sound.freed_le
  cells := by
    intro n low high
    rw [freed] at low high
    exact cells n low high (sound.cells n low high)
  held := by
    rw [producers, pushed, freed]
    exact sound.held
  distinct := by
    rw [producers]
    exact sound.distinct
  item := by
    rw [producers, pushed]
    exact sound.item
  past := by
    rw [producers, freed]
    exact sound.past
  consumer := consumer

/-- The expected epoch says that the cell of the tail is filled. -/
theorem Sound.check (sound : state.Sound) (place : state.consumer = .idle)
    (turn : state.ring.loadEpoch state.ring.tail = (state.ring.tail + 1) % word64) :
    ({ state with consumer := .matched } : LogRing ι α).Sound := by
  have freed : state.freed = state.returned.length := by rw [LogRing.freed, place]
  have popped : state.popped = state.returned := by rw [LogRing.popped, place]
  have epoch : (state.cell state.returned.length).epoch = (state.returned.length + 1) % word64 := by
    rw [cell, ← sound.cell_tail]
    refine turn.trans ?_
    rw [sound.tail, Nat.mod_add_mod]
  have keepsFilled : ∀ n, state.Filled n → ({ state with consumer := .matched } :
      LogRing ι α).Filled n := by
    intro n filled
    refine filled.mono rfl (List.prefix_refl _) ?_ (fun _ holds => holds)
    rw [popped]
    exact List.prefix_refl _
  refine sound.sameRound rfl rfl rfl sound.tail sound.returned freed.symm ?_ ?_
  · intro n _ _ either
    rcases either with vacant | filled
    · exact .inl ⟨vacant.epoch, vacant.written⟩
    · exact .inr (keepsFilled n filled)
  · have inside : state.returned.length < state.freed + MpscRing.capacity := by
      simp only [MpscRing.capacity]
      omega
    rcases sound.cells state.returned.length (by omega) inside with vacant | filled
    · have other := vacant.epoch
      rw [epoch] at other
      simp only [word64] at other
      omega
    · exact keepsFilled _ filled

/-- The item that is moved out is the one whose turn it is. -/
theorem Sound.take (sound : state.Sound) (leftover : α → α) (place : state.consumer = .matched) :
    ({ state with
        ring := (state.ring.moveData leftover state.ring.tail).2
        consumer := .moved (state.ring.moveData leftover state.ring.tail).1 } :
      LogRing ι α).Sound := by
  have filledHere : state.Filled state.returned.length := by
    have consumer := sound.consumer
    simpa [ConsumerSound, place] using consumer
  have freed : state.freed = state.returned.length := by rw [LogRing.freed, place]
  have popped : state.popped = state.returned := by rw [LogRing.popped, place]
  have inside : state.returned.length < state.freed + MpscRing.capacity := by
    simp only [MpscRing.capacity]
    omega
  have item : state.pushed[state.returned.length]? =
      some (state.ring.moveData leftover state.ring.tail).1 := by
    rcases filledHere.data with gone | here
    · rw [popped] at gone
      omega
    · rw [here, MpscRing.moveData, sound.cell_tail]
      rfl
  have others : ∀ n, state.freed ≤ n → n < state.freed + MpscRing.capacity →
      n ≠ state.returned.length →
      (state.ring.moveData leftover state.ring.tail).2.buff (n % MpscRing.capacity) =
        state.ring.buff (n % MpscRing.capacity) := by
    intro n low high differs
    simp only [MpscRing.moveData, MpscRing.storeData, sound.cell_tail]
    apply Function.update_of_ne
    exact MpscRing.cell_ne low high (by omega) inside differs
  have epochHere : ((state.ring.moveData leftover state.ring.tail).2.buff
      (state.returned.length % MpscRing.capacity)).epoch =
        (state.cell state.returned.length).epoch := by
    simp [MpscRing.moveData, MpscRing.storeData, sound.cell_tail, cell]
  have filled : ∀ n, state.freed ≤ n → n < state.freed + MpscRing.capacity → state.Filled n →
      ({ state with
          ring := (state.ring.moveData leftover state.ring.tail).2
          consumer := .moved (state.ring.moveData leftover state.ring.tail).1 } :
        LogRing ι α).Filled n := by
    intro n low high filled
    by_cases here : n = state.returned.length
    · subst here
      refine ⟨epochHere.trans filled.epoch, filled.lt, filled.unheld, .inl ?_⟩
      simp [LogRing.popped]
    · refine filled.mono (others n low high here) (List.prefix_refl _) ?_ (fun _ holds => holds)
      rw [popped]
      exact List.prefix_append _ _
  refine sound.sameRound rfl rfl rfl sound.tail sound.returned freed.symm ?_ ?_
  · intro n low high either
    rcases either with vacant | isFilled
    · left
      have here : n ≠ state.returned.length := by
        rintro rfl
        exact filledHere.not_vacant vacant
      exact vacant.mono (others n low high here) (List.prefix_refl _) (fun _ holds => holds)
    · exact .inr (filled n low high isFilled)
  · exact ⟨filled _ (Nat.le_of_eq freed) inside filledHere, item⟩

/-- The released cell is vacant for the ticket 1024 further on. -/
theorem Sound.release (sound : state.Sound) (place : state.consumer = .moved out) :
    ({ state with
        ring := state.ring.storeEpoch state.ring.tail (state.ring.tail + MpscRing.capacity)
        consumer := .released out } : LogRing ι α).Sound := by
  have consumer := sound.consumer
  simp only [ConsumerSound, place] at consumer
  rcases consumer with ⟨filledHere, item⟩
  have freed : state.freed = state.returned.length := by rw [LogRing.freed, place]
  have popped : state.popped = state.returned ++ [out] := by rw [LogRing.popped, place]
  have ownCell : (state.ring.storeEpoch state.ring.tail
      (state.ring.tail + MpscRing.capacity)).buff (state.returned.length % MpscRing.capacity) =
      { state.cell state.returned.length with
        epoch := (state.returned.length + MpscRing.capacity) % word64 } := by
    simp [MpscRing.storeEpoch, cell, sound.tail, MpscRing.cellOf_mod]
  have others : ∀ n, state.freed ≤ n → n < state.freed + MpscRing.capacity →
      n ≠ state.returned.length →
      (state.ring.storeEpoch state.ring.tail (state.ring.tail + MpscRing.capacity)).buff
          (n % MpscRing.capacity) = state.ring.buff (n % MpscRing.capacity) := by
    intro n low high differs
    simp only [MpscRing.storeEpoch, sound.cell_tail]
    apply Function.update_of_ne
    exact MpscRing.cell_ne low high (by omega) (by simp only [MpscRing.capacity]; omega) differs
  refine ⟨sound.head, sound.tail, sound.returned, filledHere.lt, ?_, ?_, sound.distinct, sound.item,
    ?_, item⟩
  · intro n low high
    change state.returned.length + 1 ≤ n at low
    change n < state.returned.length + 1 + MpscRing.capacity at high
    by_cases last : n = state.returned.length + MpscRing.capacity
    · left
      have own : (state.ring.storeEpoch state.ring.tail
          (state.ring.tail + MpscRing.capacity)).buff (n % MpscRing.capacity) =
          { state.cell state.returned.length with epoch := n % word64 } := by
        rw [last, Nat.add_mod_right]
        exact ownCell
      refine ⟨by rw [cell, own], ?_⟩
      intro producer publishing
      change state.producers producer = .publishing n at publishing
      have bound := sound.past producer n (by rw [publishing]; rfl)
      omega
    · rcases sound.cells n (by omega) (by omega) with vacant | filled
      · exact .inl (vacant.mono (others n (by omega) (by omega) (by omega)) (List.prefix_refl _)
          (fun _ holds => holds))
      · right
        refine filled.mono (others n (by omega) (by omega) (by omega)) (List.prefix_refl _) ?_
          (fun _ holds => holds)
        rw [popped]
        exact List.prefix_refl _
  · intro producer ticket holds
    have bounds := sound.held producer ticket holds
    have differs : ticket ≠ state.returned.length := by
      rintro rfl
      exact filledHere.unheld producer holds
    refine ⟨?_, bounds.2⟩
    show state.returned.length + 1 ≤ ticket
    omega
  · intro producer ticket past
    have bound := sound.past producer ticket past
    show ticket < state.returned.length + 1 + MpscRing.capacity
    omega

/-- `pop` returns what it has moved out. -/
theorem Sound.finish (sound : state.Sound) (place : state.consumer = .released out) :
    ({ state with
        ring := state.ring.advanceTail
        consumer := .idle
        returned := state.returned ++ [out] } : LogRing ι α).Sound := by
  have item : state.pushed[state.returned.length]? = some out := by
    have consumer := sound.consumer
    simpa [ConsumerSound, place] using consumer
  have freed : state.freed = (state.returned ++ [out]).length := by
    rw [LogRing.freed, place]
    simp
  have popped : state.popped = state.returned ++ [out] := by rw [LogRing.popped, place]
  refine sound.sameRound rfl rfl rfl ?_ (append_isPrefix sound.returned item) freed.symm ?_ trivial
  · show (state.ring.tail + 1) % word64 = (state.returned ++ [out]).length % word64
    rw [sound.tail, Nat.mod_add_mod, List.length_append, List.length_singleton]
  · intro n _ _ either
    rcases either with vacant | filled
    · exact .inl ⟨vacant.epoch, vacant.written⟩
    · right
      refine filled.mono rfl (List.prefix_refl _) ?_ (fun _ holds => holds)
      rw [popped]
      exact List.prefix_refl _

end Consumer

section Run

variable {state : LogRing ι α}

theorem sound_new [Inhabited α] : (new : LogRing ι α).Sound where
  head := rfl
  tail := rfl
  returned := List.prefix_refl _
  freed_le := Nat.le_refl _
  cells := by
    intro n _ high
    change n < 0 + MpscRing.capacity at high
    rw [Nat.zero_add] at high
    left
    refine ⟨?_, ?_⟩
    · show n % MpscRing.capacity = n % word64
      rw [Nat.mod_eq_of_lt high, Nat.mod_eq_of_lt]
      simp only [MpscRing.capacity, word64] at *
      omega
    · intro producer publishing
      cases publishing
  held := by
    intro producer ticket holds
    cases holds
  distinct := by
    intro first second ticket holds
    cases holds
  item := by
    intro producer ticket data place
    rcases place with place | place <;> cases place
  past := by
    intro producer ticket past
    cases past
  consumer := trivial

/-- What the ring promises in every state. -/
structure Safe (state : LogRing ι α) : Prop where
  /-- A producer with a ticket works on the item that `pushed` lists under it. -/
  ticketed : ∀ producer ticket data, (state.producers producer = .waiting ticket data ∨
    state.producers producer = .writing ticket data) → state.pushed[ticket]? = some data
  returned : state.returned <+: state.pushed
  popped : state.popped <+: state.pushed
  /-- Where an item is about to be written, all earlier items of the cell have been popped. -/
  notOverwritten : ∀ producer ticket data, state.producers producer = .writing ticket data →
    ∀ earlier < ticket, earlier % MpscRing.capacity = ticket % MpscRing.capacity →
      earlier < state.popped.length
  alone : ∀ first second ticket other, (state.producers first).past? = some ticket →
    (state.producers second).past? = some other →
      ticket % MpscRing.capacity = other % MpscRing.capacity → first = second

theorem freed_le_popped (state : LogRing ι α) : state.freed ≤ state.popped.length := by
  rw [freed, popped]
  cases state.consumer <;> simp

theorem Sound.popped_isPrefix (sound : state.Sound) : state.popped <+: state.pushed := by
  have consumer := sound.consumer
  rw [LogRing.popped]
  cases place : state.consumer with
  | idle => exact sound.returned
  | matched => exact sound.returned
  | moved out =>
      simp only [ConsumerSound, place] at consumer
      exact append_isPrefix sound.returned consumer.2
  | released out =>
      simp only [ConsumerSound, place] at consumer
      exact append_isPrefix sound.returned consumer

theorem Sound.safe (sound : state.Sound) : state.Safe where
  ticketed := sound.item
  returned := sound.returned
  popped := sound.popped_isPrefix
  notOverwritten := by
    intro producer ticket data place earlier before same
    have inside := sound.past producer ticket (by rw [place]; rfl)
    have freed := state.freed_le_popped
    simp only [MpscRing.capacity] at *
    omega
  alone := by
    intro first second ticket other past otherPast same
    have bounds := sound.held first ticket (Producer.ticket_of_past past)
    have otherBounds := sound.held second other (Producer.ticket_of_past otherPast)
    have equal : ticket = other := by
      by_contra differs
      exact MpscRing.cell_ne bounds.1 (sound.past first ticket past) otherBounds.1
        (sound.past second other otherPast) differs same
    rw [← equal] at otherPast
    exact sound.distinct first second ticket (Producer.ticket_of_past past)
      (Producer.ticket_of_past otherPast)

variable [DecidableEq ι]

theorem Sound.step (sound : state.Sound) (leftover : α → α)
    (few : state.pushed.length < word64) (event : Event ι α) :
    (state.step leftover event).Sound := by
  cases event with
  | start producer data =>
      simp only [LogRing.step]
      split
      · exact sound.start few producer data
      · exact sound
  | spin producer =>
      simp only [LogRing.step]
      split
      · next ticket data place =>
          split
          · exact sound
          · next turn =>
              rw [not_not] at turn
              exact sound.spin few place turn.symm
      · exact sound
  | write producer =>
      simp only [LogRing.step]
      split
      · next ticket data place => exact sound.write place
      · exact sound
  | publish producer =>
      simp only [LogRing.step]
      split
      · next ticket place => exact sound.publish place
      · exact sound
  | check =>
      simp only [LogRing.step]
      split
      · next place =>
          split
          · exact sound
          · next turn =>
              rw [not_not] at turn
              exact sound.check place turn
      · exact sound
  | take =>
      simp only [LogRing.step]
      split
      · next place => exact sound.take leftover place
      · exact sound
  | release =>
      simp only [LogRing.step]
      split
      · next out place => exact sound.release place
      · exact sound
  | finish =>
      simp only [LogRing.step]
      split
      · next out place => exact sound.finish place
      · exact sound

/-- Items are only ever added. -/
theorem pushed_step (leftover : α → α) (state : LogRing ι α) (event : Event ι α) :
    state.pushed <+: (state.step leftover event).pushed := by
  cases event <;> simp only [LogRing.step] <;> split <;> try exact List.prefix_refl _
  · exact List.prefix_append _ _
  · split <;> exact List.prefix_refl _
  · split <;> exact List.prefix_refl _

theorem sound_run [Inhabited α] (leftover : α → α) (events : List (Event ι α))
    (few : (run leftover events).pushed.length < word64) : (run leftover events).Sound := by
  induction events using List.reverseRecOn with
  | nil => exact sound_new
  | append_singleton events event ih =>
      rw [run, List.foldl_concat] at few ⊢
      have fewBefore : (run leftover events).pushed.length < word64 :=
        Nat.lt_of_le_of_lt (pushed_step leftover _ event).length_le few
      exact (ih fewBefore).step leftover fewBefore event

/-- In every interleaving of the steps of any number of producers and one consumer, with fewer than
2^64 tickets, `pop` returns the items in the order of their tickets, no item is overwritten before
it was popped, and no two producers are past the wait loop for one cell. -/
theorem run_safe [Inhabited α] (leftover : α → α) (events : List (Event ι α))
    (few : (run leftover events).pushed.length < word64) : (run leftover events).Safe :=
  (sound_run leftover events few).safe

/-- Two producers take tickets, the second one publishes first, and the consumer waits for the
first one. -/
theorem run_safe_overtaken :
    (run id [.start true 1, .start false 2, .spin false, .write false, .publish false, .check,
      .spin true, .write true, .publish true, .check, .take, .release, .finish] :
        LogRing Bool ℕ).Safe :=
  run_safe id [.start true 1, .start false 2, .spin false, .write false, .publish false, .check,
    .spin true, .write true, .publish true, .check, .take, .release, .finish] (by decide)

end Run

end LogRing

end FixEngine
