import FixEngine.Core.SessionPool
import Mathlib.Logic.Function.Basic

/-!
# The log sink

`LogFileSink` (`log/LogFileSink.hpp`, `LogFileSink.cpp`) writes the log entries of each session to
a file of its own and keeps at most 128 of these files open. The open files are in a list, the
file written last at the front, and each file's node has an iterator to its place in the list.

An iterator is the address of a list node. The address of a removed node is not given out again,
so that the use of an iterator to it is seen: that is undefined behaviour. `evict_one`,
`close_file` and `ensure_open` call each other, and `depth` is how many calls of `ensure_open` the
stack has room for. A file can always be opened.
-/

namespace FixEngine

/-- A node of `std::list<SessionID>`. -/
structure ListNode where
  address : ℕ
  value : SessionID
  deriving DecidableEq, Repr

/-- `LogFile`, a file of the log. -/
structure LogFile where
  isOpen : Bool
  /-- What was written to the stream. -/
  text : Bytes
  deriving DecidableEq, Repr

/-- `SinkNode`: the file of a session and its place in the list of open files. -/
structure SinkNode where
  file : LogFile
  /-- `none` is the iterator that `{}` makes. -/
  lruIterator : Option ℕ
  inLru : Bool
  firstWrite : Bool
  deriving DecidableEq, Repr

/-- A log entry, with what `to_json` makes of its message and context. -/
structure LogEntry where
  sessId : SessionID
  json : Bytes
  deriving DecidableEq, Repr

/-- `LogFileSink`. -/
structure LogFileSink where
  /-- From the front on. -/
  lruCache : List ListNode
  /-- The address of the next list node. -/
  nextAddress : ℕ
  /-- The entries by the number of the session, which is what the map compares. -/
  sessToFile : ℕ → Option SinkNode
  currentlyOpenFiles : ℕ

/-- How a call ends: also after an exception the sink is used again. -/
inductive Outcome
  | returned (sink : LogFileSink)
  | thrown (sink : LogFileSink)
  /-- A dangling iterator was used, or the stack has overflown. -/
  | undefined

namespace Outcome

/-- The calls after an outcome, if it returned. -/
def bind (outcome : Outcome) (next : LogFileSink → Outcome) : Outcome :=
  match outcome with
  | .returned sink => next sink
  | .thrown sink => .thrown sink
  | .undefined => .undefined

/-- The sink that the next call finds. -/
def sink? : Outcome → Option LogFileSink
  | .returned sink => some sink
  | .thrown sink => some sink
  | .undefined => none

@[simp]
theorem bind_returned (sink : LogFileSink) (next : LogFileSink → Outcome) :
    (returned sink).bind next = next sink := rfl

end Outcome

/-- `create_sink_node`: the file is opened by the first write. -/
def createSinkNode : SinkNode := ⟨⟨false, []⟩, none, false, true⟩

namespace LogFileSink

/-- `MAX_LRU_CACHE_SIZE`. -/
def maxLruCacheSize : ℕ := 128

/-- The constructor; the file of the core itself is not modelled. -/
def new : LogFileSink := ⟨[], 0, fun _ => none, 0⟩

section Nodes

variable (sink : LogFileSink)

/-- What a reference to the node of a session refers to. The functions below have such references
only to entries that `find` or `at` has found, and no entry is erased. -/
def node (session : ℕ) : SinkNode := (sink.sessToFile session).getD createSinkNode

/-- A change of the node of a session. -/
def setNode (session : ℕ) (changed : SinkNode) : LogFileSink :=
  { sink with sessToFile := Function.update sink.sessToFile session (some changed) }

/-- `node.file.stream << text`. -/
def stream (session : ℕ) (text : Bytes) : LogFileSink :=
  let node := sink.node session
  sink.setNode session { node with file := { node.file with text := node.file.text ++ text } }

/-- `open_file`. -/
def openFile (session : ℕ) : LogFileSink :=
  let node := sink.node session
  sink.setNode session { node with file := { node.file with isOpen := true } }

/-- `emplace`, which leaves the entry of a session that has one as it is. -/
def emplace (session : ℕ) (made : SinkNode) : LogFileSink :=
  match sink.sessToFile session with
  | some _ => sink
  | none => sink.setNode session made

end Nodes

/-- The list node that an iterator points at; there is none where it dangles. -/
def dereference (sink : LogFileSink) (iterator : Option ℕ) : Option ListNode :=
  sink.lruCache.find? fun listed => some listed.address == iterator

/-- `lru_cache_.splice(begin, lru_cache_, iterator)`. -/
def splice (iterator : Option ℕ) (sink : LogFileSink) : Outcome :=
  match sink.dereference iterator with
  | none => .undefined
  | some listed =>
      .returned { sink with
        lruCache := listed :: sink.lruCache.filter fun other => other.address != listed.address }

/-- `touch`: the session moves to the front of the list, or enters it there. -/
def touch (sessId : SessionID) (session : ℕ) (sink : LogFileSink) : Outcome :=
  let node := sink.node session
  if !node.inLru then
    let pushed := { sink with
      lruCache := ⟨sink.nextAddress, sessId⟩ :: sink.lruCache
      nextAddress := sink.nextAddress + 1 }
    .returned (pushed.setNode session
      { node with lruIterator := some sink.nextAddress, inLru := true })
  else sink.splice node.lruIterator

section Recursion

variable (ensureOpen : SessionID → ℕ → LogFileSink → Outcome)

/-- `close_file`: the array in the file is ended, for which the file is opened once more if need be.
-/
def closeFile (session : ℕ) (sink : LogFileSink) : Outcome :=
  let bracketed :=
    if !(sink.node session).firstWrite then
      (ensureOpen ⟨0, 0⟩ session sink).bind fun sink =>
        .returned (sink.stream session (ascii "\n]"))
    else .returned sink
  bracketed.bind fun sink =>
    let node := sink.node session
    if node.file.isOpen then
      .returned (sink.setNode session { node with file := { node.file with isOpen := false } })
    else .returned sink

/-- `back` and `pop_back` need a list that is not empty. -/
def evictOne (sink : LogFileSink) : Outcome :=
  if sink.currentlyOpenFiles == 0 then .returned sink
  else
    match sink.lruCache.getLast? with
    | none => .undefined
    | some victim =>
        match sink.sessToFile victim.value.id with
        | none => .thrown sink
        | some _ =>
            (closeFile ensureOpen victim.value.id sink).bind fun sink =>
              let unlisted := sink.setNode victim.value.id
                { sink.node victim.value.id with inLru := false }
              .returned { unlisted with
                lruCache := unlisted.lruCache.dropLast
                currentlyOpenFiles := unlisted.currentlyOpenFiles - 1 }

end Recursion

/-- `ensure_open`, which evicts another file when too many are open. It calls itself through
`close_file`, so `depth` bounds the calls. -/
def ensureOpen : ℕ → SessionID → ℕ → LogFileSink → Outcome
  | 0, _, _, _ => .undefined
  | depth + 1, sessId, session, sink =>
      let opened :=
        if !(sink.node session).file.isOpen then
          let trimmed :=
            if maxLruCacheSize ≤ sink.currentlyOpenFiles then evictOne (ensureOpen depth) sink
            else .returned sink
          trimmed.bind fun sink =>
            let ready := sink.openFile session
            .returned { ready with currentlyOpenFiles := ready.currentlyOpenFiles + 1 }
        else .returned sink
      opened.bind (touch sessId session)

section Calls

variable (depth : ℕ) (sink : LogFileSink)

/-- `write`: an entry of the array in the file of its session. -/
def write (entry : LogEntry) : Outcome :=
  let session := entry.sessId.id
  match sink.sessToFile session with
  | none => .thrown sink
  | some _ =>
      (ensureOpen depth entry.sessId session sink).bind fun sink =>
        let node := sink.node session
        if node.firstWrite then
          .returned ((sink.setNode session { node with firstWrite := false }).stream session
            (ascii "[\n" ++ entry.json))
        else .returned (sink.stream session (ascii ",\n" ++ entry.json))

/-- The entry that says that a session was added. -/
def addedEntry (sessId : SessionID) : LogEntry where
  sessId := sessId
  json := ascii ("\x7b\"Category\":\"Info\",\"Layer\":\"Peripheral\",\"Severity\":\"Low\"," ++
    "\"Message\":\"Added session to LogFileSink\"\x7d")

/-- `add_session`: a node for the session, and an entry that says so. -/
def addSession (sessId : SessionID) : Outcome :=
  (sink.emplace sessId.id createSinkNode).write depth (addedEntry sessId)

end Calls

end LogFileSink

end FixEngine
