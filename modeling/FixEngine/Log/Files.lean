import FixEngine.Log.Core

/-!
# What the log files hold

As long as at most 128 sessions are added no file is closed before `shutdown`, and each file then is
an array of the session's entries, in the order they were written in.
-/

namespace FixEngine

namespace LogFileSink

open Recency

/-- The entry that a call writes. -/
def Call.entry : Call → LogEntry
  | .addSession sessId => addedEntry sessId
  | .write entry => entry

/-- The entries that the calls write for a session. -/
def entriesOf (session : ℕ) (calls : List Call) : List LogEntry :=
  (calls.map Call.entry).filter fun entry => entry.sessId.id = session

/-- A file that is written to. -/
def opening : List LogEntry → Bytes
  | [] => []
  | first :: rest => ascii "[\n" ++ first.json ++ rest.flatMap fun entry => ascii ",\n" ++ entry.json

/-- A file that is complete. -/
def array (entries : List LogEntry) : Bytes := opening entries ++ ascii "\n]"

theorem opening_concat {entries : List LogEntry} (nonempty : entries ≠ []) (entry : LogEntry) :
    opening (entries ++ [entry]) = opening entries ++ (ascii ",\n" ++ entry.json) := by
  cases entries with
  | nil => exact absurd rfl nonempty
  | cons first rest => simp [opening]

theorem entriesOf_concat (session : ℕ) (calls : List Call) (call : Call) :
    entriesOf session (calls ++ [call]) = entriesOf session calls ++
      (if call.entry.sessId.id = session then [call.entry] else []) := by
  rw [entriesOf, List.map_append, List.filter_append]
  by_cases own : call.entry.sessId.id = session <;> simp [entriesOf, own]

/-- The files hold what the calls wrote. -/
structure Holds (sink : LogFileSink) (calls : List Call) : Prop where
  sound : sink.Sound (recent (writes calls))
  text_eq : ∀ session ∈ added calls,
    entriesOf session calls ≠ [] ∧
      (sink.node session).file.text = opening (entriesOf session calls)
  silent : ∀ session, session ∉ added calls → entriesOf session calls = []

theorem holds_new : LogFileSink.new.Holds [] where
  sound := Sound.new
  text_eq := by
    intro session among
    cases among
  silent := fun _ _ => rfl

section Calls

variable {sink after : LogFileSink} {order : List ℕ} {calls : List Call}

theorem added_concat_write (calls : List Call) (entry : LogEntry) :
    added (calls ++ [.write entry]) = added calls := by
  simp [added]

theorem added_concat_add (calls : List Call) (sessId : SessionID) :
    added (calls ++ [.addSession sessId]) = added calls ++ [sessId.id] := by
  simp [added]

/-- A write to an open file appends the entry. -/
theorem Sound.write_text (sound : sink.Sound order) {entry : LogEntry}
    (listed : entry.sessId.id ∈ order) {depth : ℕ}
    (wrote : sink.write (depth + 1) entry = .returned after) :
    (after.node entry.sessId.id).file.text =
        (sink.node entry.sessId.id).file.text ++ (ascii ",\n" ++ entry.json) ∧
      ∀ other ≠ entry.sessId.id, after.node other = sink.node other := by
  rcases sound.ensureOpen_listed listed entry.sessId depth with ⟨ready, ensured, -, entries⟩
  have nodes : ∀ session, ready.node session = sink.node session := by
    intro session
    rw [node, node, entries]
  have begun : (ready.node entry.sessId.id).firstWrite = false := by
    rw [nodes]
    exact sound.begun _ listed
  rcases Option.ne_none_iff_exists'.mp ((sound.registered _).mpr listed) with ⟨found, eq⟩
  simp only [write, eq, ensured, Outcome.bind_returned, begun, Bool.false_eq_true, if_false,
    Outcome.returned.injEq] at wrote
  subst wrote
  refine ⟨?_, ?_⟩
  · rw [stream, node_setNode_self, nodes]
  · intro other differs
    rw [stream, node_setNode_of_ne _ _ _ differs, nodes]

/-- The first entry of a file. -/
theorem Sound.addSession_text (sound : sink.Sound order) {sessId : SessionID}
    (unlisted : sessId.id ∉ order) (room : order.length < maxLruCacheSize) {depth : ℕ}
    (done : sink.addSession (depth + 1) sessId = .returned after) :
    (after.node sessId.id).file.text = ascii "[\n" ++ (addedEntry sessId).json ∧
      ∀ other ≠ sessId.id, after.node other = sink.node other := by
  have created : (sink.setNode sessId.id createSinkNode).node sessId.id = createSinkNode :=
    node_setNode_self _ _ _
  have spare : ¬maxLruCacheSize ≤ (sink.setNode sessId.id createSinkNode).currentlyOpenFiles := by
    rw [currentlyOpenFiles_setNode, sound.count]
    exact Nat.not_le_of_lt room
  have registered : (sink.setNode sessId.id createSinkNode).sessToFile sessId.id =
      some createSinkNode := by
    simp [setNode]
  have opens : ensureOpen (depth + 1) sessId sessId.id (sink.setNode sessId.id createSinkNode) =
      touch sessId sessId.id { (sink.setNode sessId.id createSinkNode).openFile sessId.id with
        currentlyOpenFiles := ((sink.setNode sessId.id createSinkNode).openFile
          sessId.id).currentlyOpenFiles + 1 } := by
    have closed : createSinkNode.file.isOpen = false := rfl
    rw [ensureOpen, created, closed]
    simp only [Bool.not_false, if_true, if_neg spare, Outcome.bind_returned]
  have ensured := opens.trans (touch_opened (by rw [created]; rfl) sessId)
  rw [addSession, sound.emplace_unlisted unlisted] at done
  have same : (addedEntry sessId).sessId = sessId := rfl
  have first : createSinkNode.firstWrite = true := rfl
  have blank : createSinkNode.file.text = [] := rfl
  simp only [write, same, registered, ensured, Outcome.bind_returned, node_setNode_self, created,
    first, blank, if_true, Outcome.returned.injEq] at done
  subst done
  refine ⟨?_, ?_⟩
  · rw [stream, node_setNode_self, node_setNode_self]
    rfl
  · intro other differs
    rw [stream, node_setNode_of_ne _ _ _ differs, node_setNode_of_ne _ _ _ differs,
      node_setNode_of_ne _ _ _ differs]
    exact node_setNode_of_ne sink _ _ differs

/-- One more entry in a file. -/
theorem Holds.append (holds : sink.Holds calls) {call : Call}
    (sound : after.Sound (recent (writes (calls ++ [call]))))
    (own : (after.node call.entry.sessId.id).file.text =
      opening (entriesOf call.entry.sessId.id calls ++ [call.entry]))
    (others : ∀ other ≠ call.entry.sessId.id, after.node other = sink.node other)
    (among : ∀ session, session ∈ added (calls ++ [call]) ↔
      session = call.entry.sessId.id ∨ session ∈ added calls) : after.Holds (calls ++ [call]) := by
  refine ⟨sound, ?_, ?_⟩
  · intro session isAdded
    rw [entriesOf_concat]
    by_cases same : session = call.entry.sessId.id
    · rw [if_pos same.symm, same, own]
      exact ⟨by simp, rfl⟩
    · rw [if_neg (Ne.symm same), List.append_nil, others session same]
      exact holds.text_eq session (((among session).mp isAdded).resolve_left same)
  · intro session absent
    rw [among, not_or] at absent
    rw [entriesOf_concat, if_neg (Ne.symm absent.1), List.append_nil]
    exact holds.silent session absent.2

theorem Holds.write_listed (holds : sink.Holds calls) {entry : LogEntry}
    (known : entry.sessId.id ∈ added calls) (depth : ℕ) :
    ∃ after, sink.write (depth + 1) entry = .returned after ∧
      after.Sound (recent (entry.sessId.id :: writes calls)) ∧
      (after.node entry.sessId.id).file.text =
        opening (entriesOf entry.sessId.id calls ++ [entry]) ∧
      ∀ other ≠ entry.sessId.id, after.node other = sink.node other := by
  have listed := mem_recent.mpr ((mem_writes calls).mpr known)
  rcases holds.sound.write_listed listed depth with ⟨after, wrote, sound⟩
  rcases holds.sound.write_text listed wrote with ⟨own, others⟩
  rcases holds.text_eq _ known with ⟨nonempty, text⟩
  refine ⟨after, wrote, sound, ?_, others⟩
  rw [own, text, opening_concat nonempty]

/-- An entry for a session that was added. -/
theorem Holds.write (holds : sink.Holds calls) {entry : LogEntry}
    (known : entry.sessId.id ∈ added calls) (depth : ℕ) :
    ∃ after, sink.write (depth + 1) entry = .returned after ∧
      after.Holds (calls ++ [.write entry]) := by
  rcases holds.write_listed known depth with ⟨after, wrote, sound, own, others⟩
  refine ⟨after, wrote, holds.append ?_ own others ?_⟩
  · rw [writes_append_singleton, record, if_pos ((mem_writes calls).mpr known)]
    exact sound
  · intro session
    rw [added_concat_write]
    constructor
    · exact .inr
    · rintro (rfl | among)
      · exact known
      · exact among

/-- A session is added, for the first time or again. -/
theorem Holds.addSession (holds : sink.Holds calls) {sessId : SessionID}
    (room : (added (calls ++ [.addSession sessId])).toFinset.card ≤ maxLruCacheSize) (depth : ℕ) :
    ∃ after, sink.addSession (depth + 1) sessId = .returned after ∧
      after.Holds (calls ++ [.addSession sessId]) := by
  have among : ∀ session, session ∈ added (calls ++ [.addSession sessId]) ↔
      session = sessId.id ∨ session ∈ added calls := by
    intro session
    rw [added_concat_add, List.mem_append, List.mem_singleton, or_comm]
  by_cases known : sessId.id ∈ added calls
  · have listed := mem_recent.mpr ((mem_writes calls).mpr known)
    rcases @Holds.write_listed sink calls holds (addedEntry sessId) known depth with
      ⟨after, wrote, sound, own, others⟩
    refine ⟨after, ?_, holds.append ?_ own others among⟩
    · rw [LogFileSink.addSession, holds.sound.emplace_listed listed]
      exact wrote
    · rw [writes_append_singleton]
      exact sound
  · have unlisted : sessId.id ∉ recent (writes calls) := by
      rw [mem_recent, mem_writes]
      exact known
    rw [← length_recent_writes, writes_append_singleton, record, recent_cons_of_not_mem
      (mt mem_recent.mpr unlisted), List.length_cons] at room
    rcases holds.sound.addSession_room unlisted room depth with ⟨after, done, sound⟩
    rcases holds.sound.addSession_text unlisted room done with ⟨own, others⟩
    refine ⟨after, done, holds.append ?_ ?_ others among⟩
    · rw [writes_append_singleton, record, recent_cons_of_not_mem (mt mem_recent.mpr unlisted)]
      exact sound
    · have entry_eq : (Call.addSession sessId).entry = addedEntry sessId := rfl
      have sessId_eq : (addedEntry sessId).sessId = sessId := rfl
      rw [entry_eq, sessId_eq, own, holds.silent sessId.id known]
      simp [opening]

end Calls

section Shutdown

variable {sink : LogFileSink} {session : ℕ}

/-- The file is open and written to, and the iterator is one into the list. -/
structure Closable (sink : LogFileSink) (session : ℕ) : Prop where
  opened : sink.Opened session
  begun : (sink.node session).firstWrite = false
  inLru : (sink.node session).inLru = true
  iterator : ∃ listed ∈ sink.lruCache, (sink.node session).lruIterator = some listed.address

/-- The entry of a session whose file is complete and closed. -/
def closedNode (node : SinkNode) : SinkNode :=
  { node with file := ⟨false, node.file.text ++ ascii "\n]"⟩ }

/-- Closing one file leaves the iterators of the others good. -/
theorem Closable.closeFile (closable : sink.Closable session) (depth : ℕ) :
    ∃ after, closeFile (ensureOpen (depth + 1)) session sink = .returned after ∧
      after.sessToFile = Function.update sink.sessToFile session
        (some (closedNode (sink.node session))) ∧
      ∀ other ≠ session, sink.Closable other → after.Closable other := by
  have isOpen : (sink.node session).file.isOpen = true := closable.opened
  rcases closable.iterator with ⟨listed, inList, iterator⟩
  have present : (sink.dereference (some listed.address)).isSome := by
    rw [dereference, List.find?_isSome]
    exact ⟨listed, inList, by simp⟩
  rcases Option.isSome_iff_exists.mp present with ⟨front, found⟩
  have address : front.address = listed.address := by simpa using List.find?_some found
  obtain ⟨cache, cacheDef⟩ : ∃ cache, cache = front ::
    sink.lruCache.filter fun other => other.address != front.address := ⟨_, rfl⟩
  have ensured : ensureOpen (depth + 1) ⟨0, 0⟩ session sink =
      .returned { sink with lruCache := cache } := by
    simp [ensureOpen, isOpen, touch, closable.inLru, splice, iterator, found, cacheDef]
  have nodes : ∀ other, ({ sink with lruCache := cache } : LogFileSink).node other =
      sink.node other := fun _ => rfl
  refine ⟨setNode { sink with lruCache := cache } session (closedNode (sink.node session)), ?_, rfl,
    ?_⟩
  · simp only [LogFileSink.closeFile, closable.begun, ensured, Outcome.bind_returned, Bool.not_false,
      if_true, stream, node_setNode_self, nodes, isOpen]
    simp only [setNode, Function.update_idem, closedNode, closable.begun]
  · intro other differs otherClosable
    have same : (setNode { sink with lruCache := cache } session
        (closedNode (sink.node session))).node other = sink.node other :=
      node_setNode_of_ne { sink with lruCache := cache } _ _ differs
    refine ⟨?_, by rw [same]; exact otherClosable.begun, by rw [same]; exact otherClosable.inLru, ?_⟩
    · rw [Opened, same]
      exact otherClosable.opened
    · rcases otherClosable.iterator with ⟨kept, keptInList, keptIterator⟩
      rw [same, lruCache_setNode]
      by_cases atFront : kept.address = front.address
      · exact ⟨front, by rw [cacheDef]; exact List.mem_cons_self, by rw [keptIterator, atFront]⟩
      · refine ⟨kept, ?_, keptIterator⟩
        rw [cacheDef]
        exact List.mem_cons_of_mem _ (List.mem_filter.mpr ⟨keptInList, bne_iff_ne.mpr atFront⟩)

/-- `shutdown` ends every file, in whatever order the map is walked. -/
theorem closeAll_eq {order : List ℕ} (once : order.Nodup)
    (closable : ∀ session ∈ order, sink.Closable session) (depth : ℕ) :
    ∃ after, sink.closeAll (depth + 1) order = .returned after ∧
      ∀ session, after.sessToFile session =
        if session ∈ order then some (closedNode (sink.node session))
        else sink.sessToFile session := by
  induction order generalizing sink with
  | nil => exact ⟨sink, rfl, fun _ => by simp⟩
  | cons first rest ih =>
      rcases List.nodup_cons.mp once with ⟨absent, restOnce⟩
      rcases (closable first List.mem_cons_self).closeFile depth with ⟨next, closed, entries, others⟩
      have restClosable : ∀ session ∈ rest, next.Closable session := by
        intro session among
        have differs : session ≠ first := by
          rintro rfl
          exact absent among
        exact others session differs (closable session (List.mem_cons_of_mem _ among))
      rcases ih restOnce restClosable with ⟨after, done, result⟩
      refine ⟨after, ?_, ?_⟩
      · rw [closeAll, List.foldl_cons, Outcome.bind_returned, closed]
        exact done
      · intro session
        rw [result, entries]
        by_cases same : session = first
        · rw [same, if_neg absent, if_pos List.mem_cons_self, Function.update_self]
        · have nodeEq : next.node session = sink.node session := by
            rw [node, node, entries, Function.update_of_ne same]
          rw [Function.update_of_ne same, nodeEq]
          simp [same]

/-- The files that `shutdown` leaves. -/
theorem Holds.closeAll {calls : List Call} (holds : sink.Holds calls) {order : List ℕ}
    (once : order.Nodup) (walked : ∀ session, session ∈ order ↔ session ∈ added calls) (depth : ℕ) :
    ∃ after, sink.closeAll (depth + 1) order = .returned after ∧
      ∀ session ∈ added calls, (after.sessToFile session).map SinkNode.file =
        some ⟨false, array (entriesOf session calls)⟩ := by
  have closable : ∀ session ∈ order, sink.Closable session := by
    intro session among
    have listed := mem_recent.mpr ((mem_writes calls).mpr ((walked session).mp among))
    rcases holds.sound.exists_listed listed with ⟨node, inList, rfl⟩
    rcases holds.sound.opened node inList with ⟨opened, inLru, iterator⟩
    exact ⟨opened, holds.sound.begun _ listed, inLru, node, inList, iterator⟩
  rcases closeAll_eq once closable depth with ⟨after, done, result⟩
  refine ⟨after, done, ?_⟩
  intro session among
  rw [result, if_pos ((walked session).mpr among)]
  simp [closedNode, array, (holds.text_eq session among).2]

end Shutdown

end LogFileSink

end FixEngine
