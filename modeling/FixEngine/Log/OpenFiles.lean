import FixEngine.Core.LogFileSink
import FixEngine.Lib.Recency

/-!
# The open files of the log sink

As long as at most 128 sessions were added every one of them has its file open, and the list holds
them in the order of their last writes. The next session is the first that needs an eviction. It
closes the right file, but `close_file` moves the victim to the front of the list before
`pop_back` removes the last node: the victim stays listed with its file closed, and another
session loses its node and keeps the iterator to it.
-/

namespace FixEngine

namespace LogFileSink

open Recency

/-- The calls of a user of the sink. -/
inductive Call
  | addSession (sessId : SessionID)
  | write (entry : LogEntry)
  deriving DecidableEq, Repr

/-- What a call comes to. -/
def Call.run (depth : ℕ) (sink : LogFileSink) : Call → Outcome
  | .addSession sessId => sink.addSession depth sessId
  | .write entry => sink.write depth entry

/-- The sink after the calls, if all of them came to an end. -/
def run (depth : ℕ) (calls : List Call) : Option LogFileSink :=
  calls.foldl (fun sink call => sink.bind fun sink => (call.run depth sink).sink?) (some new)

/-- The sessions written to, the last write first. Adding a session writes to it, and an entry for
a session that was not added is refused. -/
def record (history : List ℕ) : Call → List ℕ
  | .addSession sessId => sessId.id :: history
  | .write entry => if entry.sessId.id ∈ history then entry.sessId.id :: history else history

/-- The sessions in the order in which the calls used their files. -/
def writes (calls : List Call) : List ℕ := calls.foldl record []

/-- The sessions that were added. -/
def added (calls : List Call) : List ℕ :=
  calls.filterMap fun call =>
    match call with
    | .addSession sessId => some sessId.id
    | .write _ => none

/-- The sessions of the list of open files, from the front on. -/
def listed (sink : LogFileSink) : List ℕ := sink.lruCache.map fun listed => listed.value.id

/-- The file of the session is open. -/
def Opened (sink : LogFileSink) (session : ℕ) : Prop := (sink.node session).file.isOpen = true

/-- The bookkeeping is right. -/
structure Consistent (sink : LogFileSink) (history : List ℕ) : Prop where
  mem_listed : ∀ session, session ∈ sink.listed ↔ sink.Opened session
  once : sink.listed.Nodup
  ordered : sink.listed.Pairwise fun newer older => history.idxOf newer < history.idxOf older
  inLru : ∀ session, (sink.node session).inLru = true ↔ session ∈ sink.listed
  lruIterator : ∀ session ∈ sink.listed, ∃ listed : ListNode,
    sink.dereference (sink.node session).lruIterator = some listed ∧ listed.value.id = session
  count : sink.currentlyOpenFiles = sink.listed.length
  count_le : sink.currentlyOpenFiles ≤ maxLruCacheSize

/-- A file that a call closes is that of the session written to least recently. -/
def EvictsOldest (before after : LogFileSink) (history : List ℕ) : Prop :=
  ∀ session, before.Opened session → ¬after.Opened session →
    ∀ other, before.Opened other → other ≠ session →
      history.idxOf other < history.idxOf session

/-- Every call of the run comes to an end, leaves the bookkeeping right and evicts as it should. -/
def StaysConsistent (depth : ℕ) (calls : List Call) : Prop :=
  ∀ earlier call later, calls = earlier ++ call :: later →
    ∃ before after, run depth earlier = some before ∧ run depth (earlier ++ [call]) = some after ∧
      after.Consistent (writes (earlier ++ [call])) ∧
      before.EvictsOldest after (writes earlier)

section Nodes

variable (sink : LogFileSink) (session : ℕ) (changed : SinkNode)

@[simp]
theorem node_setNode_self : (sink.setNode session changed).node session = changed := by
  simp [node, setNode]

@[simp]
theorem node_setNode_of_ne {other : ℕ} (differs : other ≠ session) :
    (sink.setNode session changed).node other = sink.node other := by
  simp [node, setNode, differs]

@[simp]
theorem lruCache_setNode : (sink.setNode session changed).lruCache = sink.lruCache := rfl

@[simp]
theorem nextAddress_setNode : (sink.setNode session changed).nextAddress = sink.nextAddress := rfl

@[simp]
theorem currentlyOpenFiles_setNode :
    (sink.setNode session changed).currentlyOpenFiles = sink.currentlyOpenFiles := rfl

end Nodes

/-- Opening the file of a session that is not in the list, and listing it. -/
theorem touch_opened {sink : LogFileSink} {session : ℕ}
    (unflagged : (sink.node session).inLru = false) (sessId : SessionID) :
    touch sessId session { sink.openFile session with
      currentlyOpenFiles := (sink.openFile session).currentlyOpenFiles + 1 } =
    .returned (setNode { sink with
        lruCache := ⟨sink.nextAddress, sessId⟩ :: sink.lruCache
        nextAddress := sink.nextAddress + 1
        currentlyOpenFiles := sink.currentlyOpenFiles + 1 } session
      ⟨⟨true, (sink.node session).file.text⟩, some sink.nextAddress, true,
        (sink.node session).firstWrite⟩) := by
  have opened : node { sink.openFile session with
      currentlyOpenFiles := (sink.openFile session).currentlyOpenFiles + 1 } session =
      { sink.node session with file := { (sink.node session).file with isOpen := true } } :=
    node_setNode_self sink session _
  simp only [touch, opened, unflagged, Bool.not_false, if_true]
  simp only [openFile, setNode, Function.update_idem]

/-- Closing the file of a session that was written to. -/
theorem closeFile_eq {ensureOpen : SessionID → ℕ → LogFileSink → Outcome}
    {sink ready : LogFileSink} {session : ℕ} (begun : (sink.node session).firstWrite = false)
    (reopened : ensureOpen ⟨0, 0⟩ session sink = .returned ready) (opened : ready.Opened session) :
    ∃ text, closeFile ensureOpen session sink = .returned (ready.setNode session
      { ready.node session with file := ⟨false, text⟩ }) := by
  refine ⟨(ready.node session).file.text ++ ascii "\n]", ?_⟩
  have isOpen : ((ready.stream session (ascii "\n]")).node session).file.isOpen = true := by
    rw [stream, node_setNode_self]
    exact opened
  simp only [closeFile, begun, reopened, Outcome.bind_returned, Bool.not_false, if_true, isOpen]
  simp only [stream, node_setNode_self]
  simp only [setNode, Function.update_idem]

/-- The open files are those of the sessions in the list, `order`, and the iterators are right. -/
structure Represents (sink : LogFileSink) (order : List ℕ) : Prop where
  listed_eq : sink.listed = order
  once : order.Nodup
  addresses : (sink.lruCache.map ListNode.address).Nodup
  used : ∀ listed ∈ sink.lruCache, listed.address < sink.nextAddress
  opened : ∀ listed ∈ sink.lruCache, sink.Opened listed.value.id ∧
    (sink.node listed.value.id).inLru = true ∧
    (sink.node listed.value.id).lruIterator = some listed.address
  closed : ∀ session, session ∉ order →
    ¬sink.Opened session ∧ (sink.node session).inLru = false
  count : sink.currentlyOpenFiles = order.length

namespace Represents

variable {sink : LogFileSink} {order history : List ℕ} {session : ℕ}

theorem new : LogFileSink.new.Represents [] where
  listed_eq := rfl
  once := List.nodup_nil
  addresses := List.nodup_nil
  used := by simp [LogFileSink.new]
  opened := by simp [LogFileSink.new]
  closed := by simp [LogFileSink.new, Opened, node, createSinkNode]
  count := rfl

theorem exists_listed (rep : sink.Represents order) (listed : session ∈ order) :
    ∃ node ∈ sink.lruCache, node.value.id = session := by
  rw [← rep.listed_eq, LogFileSink.listed, List.mem_map] at listed
  exact listed

theorem mem_order (rep : sink.Represents order) {node : ListNode} (inList : node ∈ sink.lruCache) :
    node.value.id ∈ order := by
  rw [← rep.listed_eq]
  exact List.mem_map_of_mem inList

theorem opened_iff (rep : sink.Represents order) : sink.Opened session ↔ session ∈ order := by
  constructor
  · intro opened
    by_contra unlisted
    exact (rep.closed session unlisted).1 opened
  · intro listed
    rcases rep.exists_listed listed with ⟨node, inList, rfl⟩
    exact (rep.opened node inList).1

theorem inLru_iff (rep : sink.Represents order) :
    (sink.node session).inLru = true ↔ session ∈ order := by
  constructor
  · intro flagged
    by_contra unlisted
    rw [(rep.closed session unlisted).2] at flagged
    cases flagged
  · intro listed
    rcases rep.exists_listed listed with ⟨node, inList, rfl⟩
    exact (rep.opened node inList).2.1

/-- An iterator to a node of the list points at it. -/
theorem dereference_eq (rep : sink.Represents order) {listed : ListNode}
    (inList : listed ∈ sink.lruCache) : sink.dereference (some listed.address) = some listed := by
  have present : (sink.dereference (some listed.address)).isSome := by
    rw [dereference, List.find?_isSome]
    exact ⟨listed, inList, by simp⟩
  rcases Option.isSome_iff_exists.mp present with ⟨found, eq⟩
  have same : found.address = listed.address := by simpa using List.find?_some eq
  rw [eq, List.inj_on_of_nodup_map rep.addresses (List.mem_of_find?_eq_some eq) inList same]

theorem consistent (rep : sink.Represents (recent history))
    (room : (recent history).length ≤ maxLruCacheSize) : sink.Consistent history where
  mem_listed := by
    intro session
    rw [rep.listed_eq, rep.opened_iff]
  once := by
    rw [rep.listed_eq]
    exact rep.once
  ordered := by
    rw [rep.listed_eq]
    exact pairwise_recent
  inLru := by
    intro session
    rw [rep.listed_eq, rep.inLru_iff]
  lruIterator := by
    intro session listed
    rw [rep.listed_eq] at listed
    rcases rep.exists_listed listed with ⟨node, inList, rfl⟩
    refine ⟨node, ?_, rfl⟩
    rw [(rep.opened node inList).2.2, rep.dereference_eq inList]
  count := by rw [rep.listed_eq, rep.count]
  count_le := by
    rw [rep.count]
    exact room

/-- Nothing but the files' texts and the `first_write` flags changes. -/
theorem of_same_entries (rep : sink.Represents order) {changed : LogFileSink}
    (cache : changed.lruCache = sink.lruCache) (next : changed.nextAddress = sink.nextAddress)
    (count : changed.currentlyOpenFiles = sink.currentlyOpenFiles)
    (files : ∀ session, (changed.node session).file.isOpen = (sink.node session).file.isOpen)
    (flags : ∀ session, (changed.node session).inLru = (sink.node session).inLru)
    (iterators : ∀ session, (changed.node session).lruIterator = (sink.node session).lruIterator) :
    changed.Represents order where
  listed_eq := by
    rw [listed, cache]
    exact rep.listed_eq
  once := rep.once
  addresses := by
    rw [cache]
    exact rep.addresses
  used := by
    rw [cache, next]
    exact rep.used
  opened := by
    intro listed inList
    rw [cache] at inList
    rw [Opened, files, flags, iterators]
    exact rep.opened listed inList
  closed := by
    intro session unlisted
    rw [Opened, files, flags]
    exact rep.closed session unlisted
  count := by rw [count, rep.count]

/-- Moving a node to the front moves its session there. -/
theorem touch_listed (rep : sink.Represents order) (sessId : SessionID) {front : ListNode}
    (inList : front ∈ sink.lruCache) (listed : front.value.id = session) :
    sink.touch sessId session = .returned { sink with
      lruCache := front :: sink.lruCache.filter fun other => other.address != front.address } := by
  have flagged := (rep.opened front inList).2.1
  have iterator := (rep.opened front inList).2.2
  rw [listed] at flagged iterator
  simp [touch, flagged, splice, iterator, rep.dereference_eq inList]

/-- The other nodes of the list are those of the other sessions. -/
theorem map_filter_address (rep : sink.Represents order) {front : ListNode}
    (inList : front ∈ sink.lruCache) :
    (sink.lruCache.filter fun other => other.address != front.address).map
        (fun listed => listed.value.id) =
      order.erase front.value.id := by
  have ids : (sink.lruCache.map fun listed => listed.value.id).Nodup := by
    have once := rep.once
    rwa [← rep.listed_eq] at once
  have same : ∀ other ∈ sink.lruCache,
      (other.address != front.address) = (other.value.id != front.value.id) := by
    intro other otherInList
    by_cases equal : other = front
    · rw [equal, bne_self_eq_false, bne_self_eq_false]
    · have address : other.address ≠ front.address := fun same =>
        equal (List.inj_on_of_nodup_map rep.addresses otherInList inList same)
      have number : other.value.id ≠ front.value.id := fun same =>
        equal (List.inj_on_of_nodup_map ids otherInList inList same)
      rw [bne_iff_ne.mpr address, bne_iff_ne.mpr number]
  rw [List.filter_congr same, ← rep.listed_eq, LogFileSink.listed, ids.erase_eq_filter,
    List.filter_map]
  rfl

theorem splice (rep : sink.Represents order) {front : ListNode} (inList : front ∈ sink.lruCache) :
    Represents { sink with
      lruCache := front :: sink.lruCache.filter fun other => other.address != front.address }
      (front.value.id :: order.erase front.value.id) where
  listed_eq := by
    simp only [LogFileSink.listed, List.map_cons, rep.map_filter_address inList]
  once := List.nodup_cons.mpr ⟨rep.once.not_mem_erase, rep.once.erase _⟩
  addresses := by
    refine List.nodup_cons.mpr ⟨?_, rep.addresses.sublist (List.filter_sublist.map _)⟩
    simp
  used := by
    intro listed among
    rcases List.mem_cons.mp among with rfl | among
    · exact rep.used listed inList
    · exact rep.used listed (List.mem_filter.mp among).1
  opened := by
    intro listed among
    rcases List.mem_cons.mp among with rfl | among
    · exact rep.opened listed inList
    · exact rep.opened listed (List.mem_filter.mp among).1
  closed := by
    intro session unlisted
    apply rep.closed session
    intro listed
    apply unlisted
    by_cases same : session = front.value.id
    · exact same ▸ List.mem_cons_self
    · exact List.mem_cons_of_mem _ ((List.mem_erase_of_ne same).mpr listed)
  count := by
    rw [List.length_cons, List.length_erase_add_one (rep.mem_order inList)]
    exact rep.count

/-- Listing the session whose file was opened. -/
theorem pushFront (rep : sink.Represents order) (unlisted : session ∉ order) {sessId : SessionID}
    (same : sessId.id = session) {opened : SinkNode} (isOpen : opened.file.isOpen = true)
    (flagged : opened.inLru = true) (iterator : opened.lruIterator = some sink.nextAddress) :
    Represents (setNode { sink with
        lruCache := ⟨sink.nextAddress, sessId⟩ :: sink.lruCache
        nextAddress := sink.nextAddress + 1
        currentlyOpenFiles := sink.currentlyOpenFiles + 1 } session opened)
      (session :: order) where
  listed_eq := by
    have listed := rep.listed_eq
    simp only [LogFileSink.listed, lruCache_setNode, List.map_cons, same] at listed ⊢
    rw [listed]
  once := List.nodup_cons.mpr ⟨unlisted, rep.once⟩
  addresses := by
    refine List.nodup_cons.mpr ⟨?_, rep.addresses⟩
    intro among
    rcases List.mem_map.mp among with ⟨listed, inList, address⟩
    exact absurd address (Nat.ne_of_lt (rep.used listed inList))
  used := by
    intro listed among
    rcases List.mem_cons.mp among with rfl | among
    · exact Nat.lt_succ_self _
    · exact Nat.lt_succ_of_lt (rep.used listed among)
  opened := by
    intro listed among
    rcases List.mem_cons.mp among with rfl | among
    · simp [Opened, same, isOpen, flagged, iterator]
    · have differs : listed.value.id ≠ session := by
        intro equal
        exact unlisted (equal ▸ rep.mem_order among)
      rw [Opened, node_setNode_of_ne _ _ _ differs]
      exact rep.opened listed among
  closed := by
    intro other absent
    rw [List.mem_cons, not_or] at absent
    rcases absent with ⟨differs, unlisted⟩
    rw [Opened, node_setNode_of_ne _ _ _ differs]
    exact rep.closed other unlisted
  count := by
    rw [List.length_cons, ← rep.count]
    rfl

theorem ensureOpen_eq (rep : sink.Represents order) (sessId : SessionID) {front : ListNode}
    (inList : front ∈ sink.lruCache) (depth : ℕ) :
    ensureOpen (depth + 1) sessId front.value.id sink = .returned { sink with
      lruCache := front :: sink.lruCache.filter fun other => other.address != front.address } := by
  have opened : (sink.node front.value.id).file.isOpen = true := (rep.opened front inList).1
  simp [ensureOpen, opened, rep.touch_listed sessId inList rfl]

theorem ensureOpen_listed (rep : sink.Represents order) (listed : session ∈ order)
    (sessId : SessionID) (depth : ℕ) :
    ∃ ready, ensureOpen (depth + 1) sessId session sink = .returned ready ∧
      ready.Represents (session :: order.erase session) ∧
      ready.sessToFile = sink.sessToFile := by
  rcases rep.exists_listed listed with ⟨front, inList, rfl⟩
  exact ⟨_, rep.ensureOpen_eq sessId inList depth, rep.splice inList, rfl⟩

theorem ensureOpen_room (rep : sink.Represents order) (unlisted : session ∉ order)
    (room : order.length < maxLruCacheSize) {sessId : SessionID} (same : sessId.id = session)
    (depth : ℕ) :
    ∃ ready opened, ensureOpen (depth + 1) sessId session sink = .returned ready ∧
      ready.Represents (session :: order) ∧
      ready.sessToFile = Function.update sink.sessToFile session (some opened) := by
  rcases rep.closed session unlisted with ⟨closed, unflagged⟩
  have spare : ¬maxLruCacheSize ≤ sink.currentlyOpenFiles := by
    rw [rep.count]
    exact Nat.not_le_of_lt room
  rw [Opened, Bool.not_eq_true] at closed
  refine ⟨_, ⟨⟨true, (sink.node session).file.text⟩, some sink.nextAddress, true,
    (sink.node session).firstWrite⟩, ?_, rep.pushFront unlisted same rfl rfl rfl, rfl⟩
  simp only [ensureOpen, closed, Bool.not_false, if_true, if_neg spare, Outcome.bind_returned,
    touch_opened unflagged]

/-- The entry made for a session that has none. -/
theorem setNode_created (rep : sink.Represents order)
    (created : sink.node session = createSinkNode) :
    (sink.setNode session createSinkNode).Represents order := by
  have same : ∀ other, (sink.setNode session createSinkNode).node other = sink.node other := by
    intro other
    by_cases equal : other = session
    · rw [equal, node_setNode_self, created]
    · rw [node_setNode_of_ne _ _ _ equal]
  refine rep.of_same_entries rfl rfl rfl ?_ ?_ ?_ <;>
  · intro other
    rw [same]

/-- An eviction moves its victim to the front and then takes the last node out of the list. -/
theorem evictOne_eq (rep : sink.Represents order) {front : List ListNode}
    {second victim : ListNode} (cache : sink.lruCache = front ++ [second, victim])
    (registered : sink.sessToFile victim.value.id ≠ none)
    (begun : (sink.node victim.value.id).firstWrite = false) (depth : ℕ) :
    ∃ evicted, evictOne (ensureOpen (depth + 1)) sink = .returned evicted ∧
      evicted.lruCache = victim :: front ∧ evicted.nextAddress = sink.nextAddress ∧
      ¬evicted.Opened victim.value.id ∧
      ∀ other ≠ victim.value.id, evicted.sessToFile other = sink.sessToFile other := by
  have inList : victim ∈ sink.lruCache := by simp [cache]
  have last : sink.lruCache.getLast? = some victim := by simp [cache]
  have counted : (sink.currentlyOpenFiles == 0) = false := by
    rw [beq_eq_false_iff_ne, rep.count]
    exact Nat.ne_of_gt (List.length_pos_of_mem (rep.mem_order inList))
  have others : (sink.lruCache.filter fun other => other.address != victim.address) =
      front ++ [second] := by
    have once := rep.addresses
    rw [cache, List.append_cons front second [victim]] at once ⊢
    rw [List.map_append, List.nodup_append] at once
    have differs : ∀ other ∈ front ++ [second], (other.address != victim.address) = true := by
      intro other among
      rw [bne_iff_ne]
      exact once.2.2 _ (List.mem_map_of_mem among) _ (List.mem_singleton_self _)
    rw [List.filter_append, List.filter_eq_self.mpr differs]
    simp
  rcases Option.ne_none_iff_exists'.mp registered with ⟨found, eq⟩
  have reopened := rep.ensureOpen_eq ⟨0, 0⟩ inList depth
  rw [others] at reopened
  rcases closeFile_eq begun reopened (rep.opened victim inList).1 with ⟨text, shut⟩
  have dropped : (victim :: (front ++ [second])).dropLast = victim :: front := by
    rw [← List.cons_append, List.dropLast_concat]
  refine ⟨{ sink.setNode victim.value.id ⟨⟨false, text⟩, (sink.node victim.value.id).lruIterator,
      false, (sink.node victim.value.id).firstWrite⟩ with
    lruCache := victim :: front
    currentlyOpenFiles := sink.currentlyOpenFiles - 1 }, ?_, rfl, rfl, ?_, ?_⟩
  · simp only [evictOne, counted, last, eq, shut, Outcome.bind_returned, node_setNode_self,
      Bool.false_eq_true, if_false]
    simp only [setNode, Function.update_idem, dropped]
    rfl
  · simp [Opened, node, setNode]
  · intro other differs
    exact Function.update_of_ne differs _ _

/-- The first call that has to evict: the victim keeps its place in the list, which now is right
behind the new session, and the session listed before it loses its place. -/
theorem ensureOpen_full (rep : sink.Represents order) {front : List ListNode}
    {second victim : ListNode} (cache : sink.lruCache = front ++ [second, victim])
    (registered : sink.sessToFile victim.value.id ≠ none)
    (begun : (sink.node victim.value.id).firstWrite = false)
    (full : maxLruCacheSize ≤ order.length) (unlisted : session ∉ order) (sessId : SessionID)
    (depth : ℕ) :
    ∃ ready, ensureOpen (depth + 2) sessId session sink = .returned ready ∧
      ready.lruCache = ⟨sink.nextAddress, sessId⟩ :: victim :: front ∧
      ¬ready.Opened victim.value.id ∧
      ∀ other, other ≠ session → other ≠ victim.value.id →
        ready.sessToFile other = sink.sessToFile other := by
  rcases rep.closed session unlisted with ⟨closed, unflagged⟩
  rcases rep.evictOne_eq cache registered begun depth with
    ⟨evicted, eq, evictedCache, next, closedVictim, others⟩
  rw [← rep.count] at full
  rw [Opened, Bool.not_eq_true] at closed
  have listed : victim.value.id ∈ order := rep.mem_order (by simp [cache])
  have differs : session ≠ victim.value.id := fun same => unlisted (same ▸ listed)
  have stillUnflagged : (evicted.node session).inLru = false := by
    rw [node, others session differs]
    exact unflagged
  have opening : ensureOpen (depth + 2) sessId session sink =
      touch sessId session { evicted.openFile session with
        currentlyOpenFiles := (evicted.openFile session).currentlyOpenFiles + 1 } := by
    rw [ensureOpen]
    simp only [closed, Bool.not_false, if_true, if_pos full, eq, Outcome.bind_returned]
  refine ⟨_, opening.trans (touch_opened stillUnflagged sessId), ?_, ?_, ?_⟩
  · simp only [lruCache_setNode, evictedCache, next]
  · rw [Opened, node_setNode_of_ne _ _ _ differs.symm]
    exact closedVictim
  · intro other notNew notVictim
    exact (Function.update_of_ne notNew _ _).trans (others other notVictim)

end Represents

/-- What a write does once the file is open. -/
theorem write_eq {sink ready : LogFileSink} (entry : LogEntry) {depth : ℕ}
    (registered : sink.sessToFile entry.sessId.id ≠ none)
    (ensured : ensureOpen depth entry.sessId entry.sessId.id sink = .returned ready) :
    ∃ text, sink.write depth entry = .returned (ready.setNode entry.sessId.id
      { ready.node entry.sessId.id with
        file := { (ready.node entry.sessId.id).file with text := text }
        firstWrite := false }) := by
  rcases Option.ne_none_iff_exists'.mp registered with ⟨found, eq⟩
  simp only [write, eq, ensured, Outcome.bind_returned]
  rcases node : ready.node entry.sessId.id with ⟨file, iterator, flagged, first⟩
  cases first with
  | true =>
      refine ⟨file.text ++ (ascii "[\n" ++ entry.json), ?_⟩
      simp only [if_true, stream, node_setNode_self]
      simp only [setNode, Function.update_idem]
  | false =>
      refine ⟨file.text ++ (ascii ",\n" ++ entry.json), ?_⟩
      simp only [Bool.false_eq_true, if_false, stream, node]

/-- The sink between calls: besides, the sessions added are in the list and were written to. -/
structure Sound (sink : LogFileSink) (order : List ℕ) : Prop extends Represents sink order where
  registered : ∀ session, sink.sessToFile session ≠ none ↔ session ∈ order
  begun : ∀ session ∈ order, (sink.node session).firstWrite = false

namespace Sound

variable {sink : LogFileSink} {order : List ℕ} {session : ℕ}

theorem new : LogFileSink.new.Sound [] where
  toRepresents := Represents.new
  registered := by simp [LogFileSink.new]
  begun := by simp

theorem unregistered (sound : sink.Sound order) (unlisted : session ∉ order) :
    sink.sessToFile session = none := by
  by_contra registered
  exact unlisted ((sound.registered session).mp registered)

/-- The rest of a write, where the session's file is open and at the front of the list. -/
theorem of_write (sound : sink.Sound order) {ready : LogFileSink} {rest : List ℕ}
    (rep : ready.Represents (session :: rest)) (among : ∀ other ∈ rest, other ∈ order)
    (others : ∀ other ≠ session, ready.sessToFile other = sink.sessToFile other)
    (kept : ∀ other ∈ order, other ∈ session :: rest) (text : Bytes) :
    Sound (ready.setNode session { ready.node session with
      file := { (ready.node session).file with text := text }
      firstWrite := false }) (session :: rest) where
  toRepresents := by
    refine rep.of_same_entries rfl rfl rfl ?_ ?_ ?_ <;>
    · intro other
      by_cases same : other = session
      · rw [same, node_setNode_self]
      · rw [node_setNode_of_ne _ _ _ same]
  registered := by
    intro other
    by_cases same : other = session
    · simp [setNode, same]
    · have differs : (ready.setNode session { ready.node session with
          file := { (ready.node session).file with text := text }
          firstWrite := false }).sessToFile other = sink.sessToFile other := by
        rw [← others other same]
        exact Function.update_of_ne same _ _
      rw [differs, sound.registered]
      constructor
      · exact kept other
      · intro listed
        exact among other ((List.mem_cons.mp listed).resolve_left same)
  begun := by
    intro other listed
    by_cases same : other = session
    · rw [same, node_setNode_self]
    · rw [node_setNode_of_ne _ _ _ same, node, others other same]
      exact sound.begun other (among other ((List.mem_cons.mp listed).resolve_left same))

/-- A write to a session that was added. -/
theorem write_listed (sound : sink.Sound order) {entry : LogEntry}
    (listed : entry.sessId.id ∈ order) (depth : ℕ) :
    ∃ after, sink.write (depth + 1) entry = .returned after ∧
      after.Sound (entry.sessId.id :: order.erase entry.sessId.id) := by
  rcases sound.ensureOpen_listed listed entry.sessId depth with ⟨ready, ensured, rep, entries⟩
  rcases write_eq entry ((sound.registered _).mpr listed) ensured with ⟨text, eq⟩
  refine ⟨_, eq, sound.of_write rep ?_ ?_ ?_ text⟩
  · exact fun other => List.mem_of_mem_erase
  · intro other _
    rw [entries]
  · intro other inOrder
    by_cases same : other = entry.sessId.id
    · exact same ▸ List.mem_cons_self
    · exact List.mem_cons_of_mem _ ((List.mem_erase_of_ne same).mpr inOrder)

theorem write_unlisted (sound : sink.Sound order) {entry : LogEntry}
    (unlisted : entry.sessId.id ∉ order) (depth : ℕ) : sink.write depth entry = .thrown sink := by
  simp only [write, sound.unregistered unlisted]

theorem emplace_listed (sound : sink.Sound order) (listed : session ∈ order) (made : SinkNode) :
    sink.emplace session made = sink := by
  rcases Option.ne_none_iff_exists'.mp ((sound.registered session).mpr listed) with ⟨found, eq⟩
  simp only [emplace, eq]

theorem emplace_unlisted (sound : sink.Sound order) (unlisted : session ∉ order)
    (made : SinkNode) : sink.emplace session made = sink.setNode session made := by
  simp only [emplace, sound.unregistered unlisted]

theorem node_unlisted (sound : sink.Sound order) (unlisted : session ∉ order) :
    sink.node session = createSinkNode := by
  rw [node, sound.unregistered unlisted]
  rfl

theorem addSession_listed (sound : sink.Sound order) {sessId : SessionID}
    (listed : sessId.id ∈ order) (depth : ℕ) :
    ∃ after, sink.addSession (depth + 1) sessId = .returned after ∧
      after.Sound (sessId.id :: order.erase sessId.id) := by
  rw [addSession, sound.emplace_listed listed]
  exact sound.write_listed listed depth

theorem addSession_room (sound : sink.Sound order) {sessId : SessionID}
    (unlisted : sessId.id ∉ order) (room : order.length < maxLruCacheSize) (depth : ℕ) :
    ∃ after, sink.addSession (depth + 1) sessId = .returned after ∧
      after.Sound (sessId.id :: order) := by
  rw [addSession, sound.emplace_unlisted unlisted]
  have created := sound.setNode_created (sound.node_unlisted unlisted)
  rcases created.ensureOpen_room unlisted room rfl depth with ⟨ready, opened, ensured, rep, entries⟩
  have registered : (sink.setNode sessId.id createSinkNode).sessToFile sessId.id ≠ none := by
    simp [setNode]
  rcases write_eq (addedEntry sessId) registered ensured with ⟨text, eq⟩
  refine ⟨_, eq, sound.of_write rep (fun other listed => listed) ?_ ?_ text⟩
  · intro other differs
    rw [entries]
    exact (Function.update_of_ne differs _ _).trans (Function.update_of_ne differs _ _)
  · exact fun other listed => List.mem_cons_of_mem _ listed

/-- The call that adds a session when 128 files are open. -/
theorem addSession_full (sound : sink.Sound order) {sessId : SessionID}
    (unlisted : sessId.id ∉ order) (full : maxLruCacheSize ≤ order.length)
    {front : List ListNode} {second victim : ListNode}
    (cache : sink.lruCache = front ++ [second, victim]) (depth : ℕ) :
    ∃ after, sink.addSession (depth + 2) sessId = .returned after ∧
      after.lruCache = ⟨sink.nextAddress, sessId⟩ :: victim :: front ∧
      ¬after.Opened victim.value.id ∧
      after.sessToFile second.value.id = sink.sessToFile second.value.id := by
  have victimListed : victim.value.id ∈ order := sound.mem_order (by simp [cache])
  have secondListed : second.value.id ∈ order := sound.mem_order (by simp [cache])
  have ids : second.value.id ≠ victim.value.id := by
    have once := sound.once
    rw [← sound.listed_eq, LogFileSink.listed, cache, List.map_append, List.nodup_append] at once
    simpa using once.2.1
  have victimOld : victim.value.id ≠ sessId.id := fun same => unlisted (same ▸ victimListed)
  have secondOld : second.value.id ≠ sessId.id := fun same => unlisted (same ▸ secondListed)
  rw [addSession, sound.emplace_unlisted unlisted]
  have created := sound.setNode_created (sound.node_unlisted unlisted)
  have others : ∀ other ≠ sessId.id,
      (sink.setNode sessId.id createSinkNode).sessToFile other = sink.sessToFile other :=
    fun other differs => Function.update_of_ne differs _ _
  have victimRegistered :
      (sink.setNode sessId.id createSinkNode).sessToFile victim.value.id ≠ none := by
    rw [others _ victimOld]
    exact (sound.registered _).mpr victimListed
  have begun : ((sink.setNode sessId.id createSinkNode).node victim.value.id).firstWrite =
      false := by
    rw [node_setNode_of_ne _ _ _ victimOld]
    exact sound.begun _ victimListed
  rcases created.ensureOpen_full cache victimRegistered begun full unlisted sessId depth with
    ⟨ready, ensured, readyCache, closed, kept⟩
  have registered : (sink.setNode sessId.id createSinkNode).sessToFile sessId.id ≠ none := by
    simp [setNode]
  rcases write_eq (addedEntry sessId) registered ensured with ⟨text, eq⟩
  refine ⟨_, eq, readyCache, ?_, ?_⟩
  · rw [Opened, node_setNode_of_ne _ (addedEntry sessId).sessId.id _ victimOld]
    exact closed
  · rw [← others _ secondOld, ← kept _ secondOld ids]
    exact Function.update_of_ne secondOld _ _

/-- The session that has lost its place keeps the iterator to it, and the next write uses it. -/
theorem write_dangling (sound : sink.Sound order) {front : List ListNode}
    {second victim : ListNode} (cache : sink.lruCache = front ++ [second, victim])
    {sessId : SessionID} {after : LogFileSink}
    (afterCache : after.lruCache = ⟨sink.nextAddress, sessId⟩ :: victim :: front)
    (kept : after.sessToFile second.value.id = sink.sessToFile second.value.id)
    (entry : LogEntry) (same : entry.sessId.id = second.value.id) (depth : ℕ) :
    after.Opened second.value.id ∧ after.write (depth + 1) entry = .undefined := by
  have inList : second ∈ sink.lruCache := by simp [cache]
  have nodes : after.node second.value.id = sink.node second.value.id := by
    rw [node, node, kept]
  rcases sound.opened second inList with ⟨opened, flagged, iterator⟩
  rw [Opened, ← nodes] at opened
  rw [← nodes] at flagged iterator
  have used := sound.used second inList
  have once := sound.addresses
  rw [cache, List.map_append, List.nodup_append] at once
  have gone : after.dereference (some second.address) = none := by
    rw [dereference, List.find?_eq_none]
    intro listed among
    rw [afterCache, List.mem_cons, List.mem_cons] at among
    have differs : listed.address ≠ second.address := by
      rcases among with rfl | rfl | inFront
      · exact Nat.ne_of_gt used
      · have pair := once.2.1
        simp only [List.map_cons, List.nodup_cons, List.mem_cons, not_or] at pair
        exact Ne.symm pair.1.1
      · exact once.2.2 _ (List.mem_map_of_mem inFront) _ List.mem_cons_self
    simpa using differs
  have registered : after.sessToFile second.value.id ≠ none := by
    rw [kept, sound.registered]
    exact sound.mem_order inList
  rcases Option.ne_none_iff_exists'.mp registered with ⟨found, eq⟩
  refine ⟨opened, ?_⟩
  simp only [write, same, eq, ensureOpen, opened, touch, flagged, iterator, LogFileSink.splice, gone,
    Bool.not_true, Bool.false_eq_true, if_false, Outcome.bind_returned]
  rfl

end Sound

theorem exists_last_two {α : Type} {list : List α} (long : 2 ≤ list.length) :
    ∃ front second last, list = front ++ [second, last] := by
  rcases List.eq_nil_or_concat list with rfl | ⟨most, last, rfl⟩
  · simp at long
  · rcases List.eq_nil_or_concat most with rfl | ⟨front, second, rfl⟩
    · simp at long
    · exact ⟨front, second, last, by simp⟩

section Runs

theorem run_append_singleton (depth : ℕ) (calls : List Call) (call : Call) :
    run depth (calls ++ [call]) =
      (run depth calls).bind fun sink => (call.run depth sink).sink? := by
  simp [run]

theorem writes_append_singleton (calls : List Call) (call : Call) :
    writes (calls ++ [call]) = record (writes calls) call := by
  simp [writes]

theorem mem_writes {session : ℕ} (calls : List Call) :
    session ∈ writes calls ↔ session ∈ added calls := by
  induction calls using List.reverseRecOn with
  | nil => simp [writes, added]
  | append_singleton calls call ih =>
      rw [writes_append_singleton, added, List.filterMap_append, List.mem_append, ← added, ← ih]
      cases call with
      | addSession sessId => simp [record, or_comm]
      | write entry =>
          by_cases known : entry.sessId.id ∈ writes calls
          · have again : session = entry.sessId.id → session ∈ writes calls := by
              intro same
              exact same ▸ known
            simpa [record, known] using again
          · simp [record, known]

/-- The sessions in the list are those added. -/
theorem length_recent_writes (calls : List Call) :
    (recent (writes calls)).length = (added calls).toFinset.card := by
  rw [length_recent]
  congr 1
  ext session
  simp [mem_writes]

variable {sink : LogFileSink} {history : List ℕ}

theorem length_recent_le_record (history : List ℕ) (call : Call) :
    (recent history).length ≤ (recent (record history call)).length := by
  cases call with
  | addSession sessId => exact length_recent_le_cons _
  | write entry =>
      rw [record]
      split
      · exact length_recent_le_cons _
      · exact Nat.le_refl _

theorem mem_record {session : ℕ} (known : session ∈ history) (call : Call) :
    session ∈ record history call := by
  cases call with
  | addSession sessId => exact List.mem_cons_of_mem _ known
  | write entry =>
      rw [record]
      split
      · exact List.mem_cons_of_mem _ known
      · exact known

/-- One call, as long as no file has to be closed. -/
theorem Sound.call (sound : sink.Sound (recent history)) {call : Call}
    (room : (recent (record history call)).length ≤ maxLruCacheSize) (depth : ℕ) :
    ∃ after, (call.run (depth + 1) sink).sink? = some after ∧
      after.Sound (recent (record history call)) := by
  cases call with
  | addSession sessId =>
      by_cases known : sessId.id ∈ history
      · rcases sound.addSession_listed (mem_recent.mpr known) depth with ⟨after, eq, still⟩
        exact ⟨after, congrArg Outcome.sink? eq, still⟩
      · rw [record, recent_cons_of_not_mem known] at room ⊢
        rcases sound.addSession_room (mt mem_recent.mp known) room depth with ⟨after, eq, still⟩
        exact ⟨after, congrArg Outcome.sink? eq, still⟩
  | write entry =>
      by_cases known : entry.sessId.id ∈ history
      · rw [record, if_pos known]
        rcases sound.write_listed (mem_recent.mpr known) depth with ⟨after, eq, still⟩
        exact ⟨after, congrArg Outcome.sink? eq, still⟩
      · rw [record, if_neg known]
        have refused := sound.write_unlisted (mt mem_recent.mp known) (depth + 1)
        exact ⟨sink, congrArg Outcome.sink? refused, sound⟩

/-- The run as long as at most 128 sessions were added. -/
theorem run_sound (depth : ℕ) {calls : List Call}
    (room : (recent (writes calls)).length ≤ maxLruCacheSize) :
    ∃ sink, run (depth + 1) calls = some sink ∧ sink.Sound (recent (writes calls)) := by
  induction calls using List.reverseRecOn with
  | nil => exact ⟨new, rfl, Sound.new⟩
  | append_singleton calls call ih =>
      rw [writes_append_singleton] at room ⊢
      rcases ih (Nat.le_trans (length_recent_le_record _ call) room) with ⟨sink, eq, sound⟩
      rcases sound.call room depth with ⟨after, result, still⟩
      refine ⟨after, ?_, still⟩
      rw [run_append_singleton, eq]
      exact result

/-- After a call that needs a 129th open file the bookkeeping is wrong. -/
theorem Sound.not_consistent (sound : sink.Sound (recent history))
    (full : (recent history).length ≤ maxLruCacheSize) {call : Call}
    (another : maxLruCacheSize < (recent (record history call)).length) {depth : ℕ}
    {after : LogFileSink} (result : (call.run (depth + 2) sink).sink? = some after)
    (later : List ℕ) : ¬after.Consistent later := by
  cases call with
  | addSession sessId =>
      have unknown : sessId.id ∉ history := by
        intro known
        rw [record, length_recent_cons_of_mem known] at another
        omega
      rw [record, recent_cons_of_not_mem unknown, List.length_cons] at another
      have long : 2 ≤ sink.lruCache.length := by
        have length := congrArg List.length sound.listed_eq
        rw [listed, List.length_map] at length
        simp only [maxLruCacheSize] at another
        omega
      rcases exists_last_two long with ⟨front, second, victim, cache⟩
      rcases sound.addSession_full (mt mem_recent.mp unknown) (Nat.le_of_lt_succ another) cache
        depth with ⟨found, eq, foundCache, closed, _⟩
      have same : found = after := by
        simpa [Call.run, eq, Outcome.sink?] using result
      subst same
      intro consistent
      apply closed
      rw [← consistent.mem_listed, listed, foundCache]
      simp
  | write entry =>
      exfalso
      by_cases known : entry.sessId.id ∈ history
      · rw [record, if_pos known, length_recent_cons_of_mem known] at another
        omega
      · rw [record, if_neg known] at another
        omega

theorem StaysConsistent.of_append {depth : ℕ} {calls more : List Call}
    (stays : StaysConsistent depth (calls ++ more)) : StaysConsistent depth calls := by
  intro earlier call later split
  apply stays earlier call (later ++ more)
  rw [split, List.append_assoc, List.cons_append]

theorem room_of_staysConsistent {depth : ℕ} {calls : List Call}
    (stays : StaysConsistent (depth + 2) calls) :
    (recent (writes calls)).length ≤ maxLruCacheSize := by
  induction calls using List.reverseRecOn with
  | nil => exact Nat.zero_le _
  | append_singleton calls call ih =>
      have room := ih stays.of_append
      by_contra another
      rw [writes_append_singleton, Nat.not_le] at another
      rcases stays calls call [] rfl with ⟨before, after, eq, result, consistent, _⟩
      rcases run_sound (depth + 1) room with ⟨sink, ran, sound⟩
      have same : sink = before := Option.some.inj (ran.symm.trans eq)
      subst same
      rw [run_append_singleton, eq] at result
      exact sound.not_consistent room another result _ consistent

theorem length_recent_writes_le (calls more : List Call) :
    (recent (writes calls)).length ≤ (recent (writes (calls ++ more))).length := by
  simp only [length_recent_writes, added, List.filterMap_append, List.toFinset_append]
  exact Finset.card_le_card Finset.subset_union_left

theorem staysConsistent_of_room (depth : ℕ) {calls : List Call}
    (room : (recent (writes calls)).length ≤ maxLruCacheSize) :
    StaysConsistent (depth + 1) calls := by
  intro earlier call later split
  rw [split, ← List.singleton_append, ← List.append_assoc] at room
  have roomAfter := Nat.le_trans (length_recent_writes_le _ later) room
  have roomBefore := Nat.le_trans (length_recent_writes_le earlier [call]) roomAfter
  rcases run_sound depth roomBefore with ⟨before, eq, sound⟩
  rcases run_sound depth roomAfter with ⟨after, result, still⟩
  refine ⟨before, after, eq, result, still.consistent roomAfter, ?_⟩
  intro session opened closed
  rw [sound.opened_iff, mem_recent] at opened
  rw [still.opened_iff, mem_recent, writes_append_singleton] at closed
  exact absurd (mem_record opened call) closed

end Runs

/-- The bookkeeping stays right exactly as long as at most 128 sessions are added. -/
theorem staysConsistent_iff (depth : ℕ) (calls : List Call) :
    StaysConsistent (depth + 2) calls ↔ (added calls).toFinset.card ≤ maxLruCacheSize := by
  rw [← length_recent_writes]
  constructor
  · exact room_of_staysConsistent
  · exact staysConsistent_of_room (depth + 1)

/-- `count` sessions are added, one after the other. -/
def additions (count : ℕ) : List Call :=
  (List.range count).map fun number => .addSession ⟨number, number⟩

theorem additions_succ (count : ℕ) :
    additions (count + 1) = additions count ++ [.addSession ⟨count, count⟩] := by
  rw [additions, List.range_succ, List.map_append, ← additions, List.map_singleton]

theorem writes_additions (count : ℕ) : writes (additions count) = (List.range count).reverse := by
  induction count with
  | zero => rfl
  | succ count ih =>
      rw [additions_succ, writes_append_singleton, ih, List.range_succ, List.reverse_append]
      rfl

/-- The 129th session closes the file of the first, which stays in the list, and the second loses
its place: a write to it uses the iterator that dangles. -/
theorem additions_evict :
    ¬StaysConsistent 2 (additions 129) ∧
      ∃ sink, run 2 (additions 129) = some sink ∧ 0 ∈ sink.listed ∧ ¬sink.Opened 0 ∧
        sink.Opened 1 ∧ ∀ entry, entry.sessId.id = 1 → sink.write 2 entry = .undefined := by
  have order (count : ℕ) : recent (writes (additions count)) = (List.range count).reverse := by
    rw [writes_additions, recent_eq_self (List.nodup_reverse.mpr List.nodup_range)]
  have length (count : ℕ) : (recent (writes (additions count))).length = count := by
    rw [order, List.length_reverse, List.length_range]
  refine ⟨?_, ?_⟩
  · intro stays
    have room := room_of_staysConsistent stays
    rw [length] at room
    exact absurd room (by decide)
  · have room : (recent (writes (additions 128))).length ≤ maxLruCacheSize := by
      rw [length]
      exact Nat.le_refl _
    rcases run_sound 1 room with ⟨before, ran, sound⟩
    rw [order] at sound
    have long : 2 ≤ before.lruCache.length := by
      have eq := congrArg List.length sound.listed_eq
      rw [listed, List.length_map, List.length_reverse, List.length_range] at eq
      omega
    rcases exists_last_two long with ⟨front, second, victim, cache⟩
    have ids : (front.map fun node => node.value.id) ++ [second.value.id, victim.value.id] =
        (List.range' 2 126).reverse ++ [1, 0] := by
      have eq := sound.listed_eq
      rw [listed, cache, List.map_append] at eq
      exact eq
    rcases List.append_inj' ids rfl with ⟨_, lastIds⟩
    rw [List.cons.injEq, List.cons.injEq] at lastIds
    rcases lastIds with ⟨secondId, victimId, _⟩
    have unlisted : (⟨128, 128⟩ : SessionID).id ∉ (List.range 128).reverse := by simp
    rcases sound.addSession_full unlisted (by simp [maxLruCacheSize]) cache 0 with
      ⟨after, eq, afterCache, closed, kept⟩
    refine ⟨after, ?_, ?_, ?_, ?_, ?_⟩
    · rw [additions_succ, run_append_singleton, ran]
      exact congrArg Outcome.sink? eq
    · rw [listed, afterCache, ← victimId]
      simp
    · rw [← victimId]
      exact closed
    · have dangling := sound.write_dangling cache afterCache kept ⟨second.value, []⟩ rfl 0
      rw [← secondId]
      exact dangling.1
    · intro entry same
      exact (sound.write_dangling cache afterCache kept entry (same.trans secondId.symm) 1).2

end LogFileSink

end FixEngine
