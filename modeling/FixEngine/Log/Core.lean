import FixEngine.Log.Interleaving
import FixEngine.Log.OpenFiles

/-!
# The log core

`LogCore` (`log/LogCore.hpp`, `LogCore.cpp`) has the ring, a semaphore with a permit for each entry,
the sink, and a thread of its own that moves the entries from the ring to the sink. The destructor
asks the thread to stop, releases 1024 permits so that it wakes up, and waits for it; the thread then
takes what is left in the ring and shuts the sink down.

A step is one access to the ring or the semaphore, or one call of the sink. The semaphore's counter
is as large as it gets.
-/

namespace FixEngine

instance : Inhabited LogEntry := ⟨⟨⟨0, 0⟩, []⟩⟩

namespace LogFileSink

/-- The loop of `shutdown`; `order` is how the map is walked. -/
def closeAll (depth : ℕ) (order : List ℕ) (sink : LogFileSink) : Outcome :=
  order.foldl (fun outcome session => outcome.bind (closeFile (ensureOpen depth) session))
    (.returned sink)

/-- The rest of it. -/
def cleared (sink : LogFileSink) : LogFileSink :=
  { sink with lruCache := [], sessToFile := fun _ => none, currentlyOpenFiles := 0 }

end LogFileSink

/-- Where the thread is in `drain`. -/
inductive Drain
  /-- Before `st.stop_requested()`. -/
  | checking
  /-- Before `sem_.acquire()`. -/
  | acquiring
  /-- In `q_.pop(entry)`. -/
  | popping (drained : ℕ)
  /-- Before `file_sink_.write(entry)`. -/
  | writing (drained : ℕ) (entry : LogEntry)
  /-- Before `sem_.try_acquire()`. -/
  | trying (drained : ℕ)
  /-- In the last loop, before or in its `q_.pop(entry)`. -/
  | finishing (cnt : ℕ)
  /-- Before its `file_sink_.write(entry)`. -/
  | flushing (cnt : ℕ) (entry : LogEntry)
  | ended
  /-- The sink has thrown, or done what is undefined. -/
  | failed
  deriving DecidableEq, Repr

/-- How far the destructor is. -/
inductive Owner
  | alive
  /-- The thread was asked to stop. -/
  | stopping
  /-- The permits are released, and the thread is waited for. -/
  | joining
  deriving DecidableEq, Repr

/-- `LogCore`, with the threads that use it. -/
structure LogCore (ι : Type) where
  ring : LogRing ι LogEntry
  /-- The callers of `push` whose entry is in the ring and whose permit is not released yet. -/
  releasing : ι → Bool
  /-- The counter of `sem_`, which is taken to count on beyond the `max()` of the semaphore. -/
  permits : ℕ
  drain : Drain
  owner : Owner
  sink : LogFileSink
  /-- What the sink was called with. -/
  calls : List LogFileSink.Call
  /-- The files as `shutdown` has left them. -/
  files : ℕ → Option LogFile

namespace LogCore

variable {ι : Type} [DecidableEq ι]

/-- The constructor, before the thread has taken a step. -/
def new : LogCore ι where
  ring := .new
  releasing := fun _ => false
  permits := 0
  drain := .checking
  owner := .alive
  sink := .new
  calls := []
  files := fun _ => none

section Drain

variable (order : List ℕ) (depth : ℕ) (leftover : LogEntry → LogEntry) (core : LogCore ι)

/-- A step of the queue. -/
def withRing (event : LogRing.Event ι LogEntry) : LogCore ι :=
  { core with ring := core.ring.step leftover event }

/-- The thread at another place. -/
def withDrain (drain : Drain) : LogCore ι := { core with drain := drain }

/-- A step of `pop`, and where the thread goes on when it returns. -/
def popStep (empty : Drain) (popped : LogEntry → Drain) : LogCore ι :=
  match core.ring.consumer with
  | .idle =>
      if core.ring.ring.loadEpoch core.ring.ring.tail ≠ (core.ring.ring.tail + 1) % word64 then
        core.withDrain empty
      else core.withRing leftover .check
  | .matched => core.withRing leftover .take
  | .moved _ => core.withRing leftover .release
  | .released out => (core.withRing leftover .finish).withDrain (popped out)

/-- The sink writes an entry. -/
def writeStep (entry : LogEntry) (next : Drain) : LogCore ι :=
  match core.sink.write depth entry with
  | .returned sink =>
      { core with sink := sink, calls := core.calls ++ [.write entry], drain := next }
  | .thrown _ => core.withDrain .failed
  | .undefined => core.withDrain .failed

/-- The call of `shutdown` at the end of the thread. -/
def shutdownStep : LogCore ι :=
  match core.sink.closeAll depth order with
  | .returned sink =>
      { core with
        sink := sink.cleared
        files := fun session => (sink.sessToFile session).map SinkNode.file
        drain := .ended }
  | .thrown _ => core.withDrain .failed
  | .undefined => core.withDrain .failed

/-- A permit is taken. -/
def takePermit (next : Drain) : LogCore ι :=
  { core with permits := core.permits - 1, drain := next }

/-- A step of the thread, if it can take one. -/
def drainStep : Option (LogCore ι) :=
  match core.drain with
  | .checking => some (core.withDrain (if core.owner = .alive then .acquiring else .finishing 0))
  | .acquiring => if core.permits = 0 then none else some (core.takePermit (.popping 0))
  | .popping drained => some (core.popStep leftover (.trying drained) (.writing drained))
  | .writing drained entry =>
      some (core.writeStep depth entry
        (if 1024 ≤ drained + 1 then .trying (drained + 1) else .popping (drained + 1)))
  | .trying drained =>
      some (if core.permits = 0 then core.withDrain .checking
        else core.takePermit (.popping drained))
  | .finishing cnt =>
      if cnt < MpscRing.capacity then
        some (core.popStep leftover (.finishing (cnt + 1)) (.flushing cnt))
      else some (core.shutdownStep order depth)
  | .flushing cnt entry => some (core.writeStep depth entry (.finishing (cnt + 1)))
  | .ended => none
  | .failed => none

end Drain

/-- Nobody is in `push`. -/
def Calm (core : LogCore ι) : Prop :=
  ∀ producer, core.ring.producers producer = .idle ∧ core.releasing producer = false

/-- A step of the callers of `push` and `add_session`, of the thread, or of the destructor. A session
logs after it was added, and the core is destroyed when nobody uses it any more. -/
inductive Step (order : List ℕ) (depth : ℕ) (leftover : LogEntry → LogEntry) :
    LogCore ι → LogCore ι → Prop
  | add (core : LogCore ι) (sessId : SessionID) (sink : LogFileSink) (alive : core.owner = .alive)
      (returned : core.sink.addSession depth sessId = .returned sink) :
      Step order depth leftover core
        { core with sink := sink, calls := core.calls ++ [.addSession sessId] }
  | start (core : LogCore ι) (producer : ι) (entry : LogEntry) (alive : core.owner = .alive)
      (idle : core.ring.producers producer = .idle) (settled : core.releasing producer = false)
      (added : entry.sessId.id ∈ LogFileSink.added core.calls) :
      Step order depth leftover core (core.withRing leftover (.start producer entry))
  | spin (core : LogCore ι) (producer : ι) (ticket : ℕ) (entry : LogEntry)
      (place : core.ring.producers producer = .waiting ticket entry) :
      Step order depth leftover core (core.withRing leftover (.spin producer))
  | write (core : LogCore ι) (producer : ι) (ticket : ℕ) (entry : LogEntry)
      (place : core.ring.producers producer = .writing ticket entry) :
      Step order depth leftover core (core.withRing leftover (.write producer))
  | publish (core : LogCore ι) (producer : ι) (ticket : ℕ)
      (place : core.ring.producers producer = .publishing ticket) :
      Step order depth leftover core { core.withRing leftover (.publish producer) with
        releasing := Function.update core.releasing producer true }
  /-- `sem_.release(1)`. -/
  | release (core : LogCore ι) (producer : ι) (releasing : core.releasing producer = true) :
      Step order depth leftover core { core with
        permits := core.permits + 1
        releasing := Function.update core.releasing producer false }
  | drain (core after : LogCore ι) (moves : core.drainStep order depth leftover = some after) :
      Step order depth leftover core after
  | requestStop (core : LogCore ι) (alive : core.owner = .alive) (calm : core.Calm) :
      Step order depth leftover core { core with owner := .stopping }
  /-- `sem_.release(capacity)`. -/
  | releaseAll (core : LogCore ι) (stopping : core.owner = .stopping) :
      Step order depth leftover core
        { core with permits := core.permits + MpscRing.capacity, owner := .joining }

end LogCore

end FixEngine
