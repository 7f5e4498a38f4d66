import FixEngine.Core.Session
import Mathlib.Logic.Relation

/-!
# The write queue

`send_bytes_`, `do_write` and its completion handler make a pipe of a connection that takes any
part of what it is offered: what the connection has taken and what is still queued are together
the messages sent, in order. A write is outstanding exactly while something is queued, and it
offers what is left of the message at the front.
-/

namespace FixEngine

/-- What is left of a queued message. -/
def PendingWrite.left (write : PendingWrite) : Bytes := write.data.drop write.sent

namespace Session

/-- A session, with the messages given to `send_bytes_` and the bytes its connection took. -/
structure Pipe where
  session : Session
  enqueued : List Bytes := []
  accepted : Bytes := []

/-- An outstanding write is over. -/
def withoutWrite (session : Session) (place : ℕ) : Session :=
  { session with pendingWrites := session.pendingWrites.eraseIdx place }

/-- The completion handler of an outstanding write. -/
def finishWrite (session : Session) (place : ℕ) (result : Except IoError ℕ) : Session :=
  (session.withoutWrite place).onWrite result

/-- The calls of `send_bytes_` and the completions of outstanding writes, in any order. -/
inductive PipeStep : Pipe → Pipe → Prop
  | send (pipe : Pipe) (data : Bytes) :
      PipeStep pipe
        { pipe with
          session := pipe.session.sendBytes data
          enqueued := pipe.enqueued ++ [data] }
  | accept (pipe : Pipe) (place conn : ℕ) (offered : Bytes) (count : ℕ)
      (outstanding : pipe.session.pendingWrites[place]? = some (conn, offered))
      (fits : count ≤ offered.length) :
      PipeStep pipe
        { pipe with
          session := pipe.session.finishWrite place (.ok count)
          accepted := pipe.accepted ++ offered.take count }
  | fail (pipe : Pipe) (place conn : ℕ) (offered : Bytes)
      (outstanding : pipe.session.pendingWrites[place]? = some (conn, offered)) :
      PipeStep pipe
        { pipe with session := pipe.session.finishWrite place (.error .transient) }

/-- The bytes that wait in the queue. -/
def waiting (session : Session) : Bytes := (session.writeQ.map PendingWrite.left).flatten

/-- The write that has to be outstanding: the rest of the message at the front. -/
def offer (session : Session) (conn : ℕ) : List (ℕ × Bytes) :=
  match session.writeQ with
  | [] => []
  | front :: _ => [(conn, front.left)]

/-- The queue of a running session on its connection, between two handlers. -/
structure Piping (conn : ℕ) (session : Session) : Prop where
  running : session.stopped = false
  connected : session.conn = some conn
  outstanding : session.pendingWrites = session.offer conn
  inflight : session.writeInflight = true ↔ session.writeQ ≠ []

section Steps

variable {conn : ℕ} {session : Session}

/-- With no write outstanding `do_write` offers the front of the queue. -/
theorem piping_doWrite (running : session.stopped = false) (connected : session.conn = some conn)
    (inflight : session.writeInflight = true) (idle : session.pendingWrites = []) :
    Piping conn session.doWrite ∧ session.doWrite.waiting = session.waiting := by
  rw [doWrite]
  split
  · next empty =>
      refine ⟨⟨running, connected, ?_, ?_⟩, rfl⟩
      · simp only [offer, empty]
        exact idle
      · simp [empty]
  · next front rest queued =>
      rw [if_neg (by simp [running])]
      split
      · next lost => simp [connected] at lost
      · next found foundEq =>
          have same : found = conn := Option.some.inj (foundEq.symm.trans connected)
          refine ⟨⟨running, connected, ?_, ?_⟩, rfl⟩
          · simp only [offer, queued, idle, List.nil_append, same]
            rfl
          · simp [inflight, queued]

theorem waiting_queued (session : Session) (data : Bytes) :
    waiting { session with writeQ := session.writeQ ++ [⟨data, 0⟩] } = session.waiting ++ data := by
  simp [waiting, PendingWrite.left]

theorem piping_sendBytes (piping : Piping conn session) (data : Bytes) :
    Piping conn (session.sendBytes data) ∧
      (session.sendBytes data).waiting = session.waiting ++ data := by
  simp only [sendBytes]
  split
  · next busy =>
      refine ⟨⟨piping.running, piping.connected, ?_, ?_⟩, session.waiting_queued data⟩
      · have queued := piping.inflight.mp busy
        have outstanding := piping.outstanding
        cases front : session.writeQ with
        | nil => exact absurd front queued
        | cons write rest =>
            simp only [offer, front, List.cons_append] at outstanding ⊢
            exact outstanding
      · simp [busy]
  · next idle =>
      have empty : session.writeQ = [] := by
        by_contra queued
        exact idle (piping.inflight.mpr queued)
      have none : session.pendingWrites = [] := by
        rw [piping.outstanding, offer, empty]
      have written := @piping_doWrite conn
        { session with writeQ := session.writeQ ++ [⟨data, 0⟩], writeInflight := true }
        piping.running piping.connected rfl none
      refine ⟨written.1, ?_⟩
      rw [written.2]
      exact session.waiting_queued data

/-- Only the write at the front can complete. -/
theorem Piping.front (piping : Piping conn session) {place found : ℕ} {offered : Bytes}
    (outstanding : session.pendingWrites[place]? = some (found, offered)) :
    place = 0 ∧ ∃ write rest, session.writeQ = write :: rest ∧ offered = write.left := by
  rw [piping.outstanding, offer] at outstanding
  cases queued : session.writeQ with
  | nil => simp [queued] at outstanding
  | cons write rest =>
      simp only [queued] at outstanding
      rcases List.getElem?_eq_some_iff.mp outstanding with ⟨lt, here⟩
      have first : place = 0 := by simpa using lt
      subst first
      refine ⟨rfl, write, rest, rfl, ?_⟩
      have same : (conn, write.left) = (found, offered) := by simpa using here
      exact (Prod.mk.inj same).2.symm

theorem onWrite_ok {place count : ℕ} {write : PendingWrite} {rest : List PendingWrite}
    (running : session.stopped = false) (queued : session.writeQ = write :: rest) :
    (session.withoutWrite place).onWrite (.ok count) =
      if write.data.length ≤ write.sent + count then
        { session.withoutWrite place with writeQ := rest }.doWrite
      else
        { session.withoutWrite place with
          writeQ := { write with sent := write.sent + count } :: rest }.doWrite := by
  have front : (session.withoutWrite place).writeQ = write :: rest := queued
  rw [onWrite, if_neg (by simp [withoutWrite, running])]
  simp only [front]
  split <;> rfl

/-- The bytes taken are the first of those that wait. -/
theorem piping_accept (piping : Piping conn session) {place found count : ℕ} {offered : Bytes}
    (outstanding : session.pendingWrites[place]? = some (found, offered))
    (fits : count ≤ offered.length) :
    Piping conn (session.finishWrite place (.ok count)) ∧
      offered.take count ++ (session.finishWrite place (.ok count)).waiting = session.waiting := by
  rcases piping.front outstanding with ⟨rfl, write, rest, queued, rfl⟩
  have idle : session.pendingWrites.eraseIdx 0 = [] := by
    simp [piping.outstanding, offer, queued]
  have busy : session.writeInflight = true := piping.inflight.mpr (by simp [queued])
  have written : ∀ queue : List PendingWrite,
      Piping conn { session.withoutWrite 0 with writeQ := queue }.doWrite ∧
        { session.withoutWrite 0 with writeQ := queue }.doWrite.waiting =
          (queue.map PendingWrite.left).flatten := fun queue =>
    @piping_doWrite conn { session.withoutWrite 0 with writeQ := queue } piping.running
      piping.connected busy idle
  rw [finishWrite, onWrite_ok piping.running queued]
  simp only [PendingWrite.left, List.length_drop] at fits
  split
  · next whole =>
      refine ⟨(written rest).1, ?_⟩
      rw [(written rest).2]
      have all : write.left.take count = write.left := by
        rw [PendingWrite.left, List.take_of_length_le]
        rw [List.length_drop]
        omega
      simp [waiting, queued, all]
  · have partly := written ({ write with sent := write.sent + count } :: rest)
    refine ⟨partly.1, ?_⟩
    rw [partly.2]
    have cut : write.left.take count ++
        PendingWrite.left { write with sent := write.sent + count } = write.left := by
      simp only [PendingWrite.left, ← List.drop_drop]
      exact List.take_append_drop count _
    simp only [waiting, queued, List.map_cons, List.flatten_cons, ← List.append_assoc, cut]

/-- After a transient error the same bytes are offered again. -/
theorem piping_fail (piping : Piping conn session) {place found : ℕ} {offered : Bytes}
    (outstanding : session.pendingWrites[place]? = some (found, offered)) :
    Piping conn (session.finishWrite place (.error .transient)) ∧
      (session.finishWrite place (.error .transient)).waiting = session.waiting := by
  rcases piping.front outstanding with ⟨rfl, write, rest, queued, rfl⟩
  have idle : session.pendingWrites.eraseIdx 0 = [] := by
    simp [piping.outstanding, offer, queued]
  have busy : session.writeInflight = true := piping.inflight.mpr (by simp [queued])
  have retried : session.finishWrite 0 (.error .transient) = (session.withoutWrite 0).doWrite := by
    rw [finishWrite, onWrite, if_neg (by simp [withoutWrite, piping.running])]
  rw [retried]
  exact @piping_doWrite conn (session.withoutWrite 0) piping.running piping.connected busy idle

end Steps

section Pipes

variable {conn : ℕ} {pipe next : Pipe}

/-- Nothing is lost, repeated or swapped between the messages sent and the bytes taken. -/
structure Pipe.Faithful (conn : ℕ) (pipe : Pipe) : Prop where
  piping : Piping conn pipe.session
  bytes_eq : pipe.accepted ++ pipe.session.waiting = pipe.enqueued.flatten

theorem Pipe.Faithful.step (faithful : pipe.Faithful conn) (step : PipeStep pipe next) :
    next.Faithful conn := by
  cases step with
  | send data =>
      have sent := piping_sendBytes faithful.piping data
      refine ⟨sent.1, ?_⟩
      simp only [sent.2, List.flatten_append, ← faithful.bytes_eq, List.append_assoc,
        List.flatten_cons, List.flatten_nil, List.append_nil]
  | accept place found offered count outstanding fits =>
      have taken := piping_accept faithful.piping outstanding fits
      refine ⟨taken.1, ?_⟩
      simp only [← faithful.bytes_eq, List.append_assoc, taken.2]
  | fail place found offered outstanding =>
      have again := piping_fail faithful.piping outstanding
      refine ⟨again.1, ?_⟩
      simp only [again.2, faithful.bytes_eq]

/-- A connection on which nothing has been sent. -/
structure Unused (conn : ℕ) (session : Session) : Prop where
  running : session.stopped = false
  connected : session.conn = some conn
  queue_eq : session.writeQ = []
  inflight_eq : session.writeInflight = false
  pending_eq : session.pendingWrites = []

theorem Unused.faithful {session : Session} (unused : session.Unused conn) :
    Pipe.Faithful conn { session := session } := by
  refine ⟨⟨unused.running, unused.connected, ?_, ?_⟩, ?_⟩
  · rw [offer, unused.queue_eq]
    exact unused.pending_eq
  · simp [unused.queue_eq, unused.inflight_eq]
  · simp [waiting, unused.queue_eq]

/-- The queue is a byte pipe, however sends and completions of writes are interleaved. -/
theorem write_queue_pipe (session : Session) (unused : session.Unused conn)
    (run : Relation.ReflTransGen PipeStep { session := session } pipe) :
    pipe.accepted <+: pipe.enqueued.flatten ∧
      pipe.session.pendingWrites.length ≤ 1 ∧
      (pipe.session.writeInflight = true ↔ pipe.session.pendingWrites ≠ []) ∧
      (pipe.session.pendingWrites = [] →
        pipe.session.writeQ = [] ∧ pipe.accepted = pipe.enqueued.flatten) := by
  have faithful : pipe.Faithful conn := by
    induction run with
    | refl => exact unused.faithful
    | tail _ step ih => exact ih.step step
  have outstanding := faithful.piping.outstanding
  have inflight := faithful.piping.inflight
  have bytes := faithful.bytes_eq
  refine ⟨⟨_, bytes⟩, ?_⟩
  cases queued : pipe.session.writeQ with
  | nil =>
      simp only [offer, queued] at outstanding
      simp only [waiting, queued, List.map_nil, List.flatten_nil, List.append_nil] at bytes
      simp [outstanding, bytes, inflight, queued]
  | cons write rest =>
      simp only [offer, queued] at outstanding
      simp [outstanding, inflight, queued]

end Pipes

section Example

/-- A session on a new connection. -/
def connectedSession : Session :=
  (Session.new 0 .initiator { senderCompId := ascii "A", targetCompId := ascii "B" }
    .standard).setConnection 0

/-- Two messages are queued. The first is taken in two parts, with a failure in between that may pass,
and then one byte of the second. -/
def partlyWritten : Session :=
  ((((((connectedSession.sendBytes (ascii "abc")).sendBytes (ascii "de")).finishWrite 0
    (.ok 2)).finishWrite 0 (.error .transient)).finishWrite 0 (.ok 1)).finishWrite 0 (.ok 1))

theorem write_queue_pipe_partly :
    ascii "abcd" <+: ascii "abcde" ∧ partlyWritten.pendingWrites.length ≤ 1 ∧
      (partlyWritten.writeInflight = true ↔ partlyWritten.pendingWrites ≠ []) ∧
      partlyWritten.pendingWrites = [(0, ascii "e")] := by
  have first : Relation.ReflTransGen PipeStep { session := connectedSession }
      ⟨connectedSession.sendBytes (ascii "abc"), [ascii "abc"], []⟩ :=
    .single (.send _ (ascii "abc"))
  have queued := first.tail (.send _ (ascii "de"))
  have taken := queued.tail (.accept _ 0 0 (ascii "abc") 2 (by decide +kernel) (by decide))
  have failed := taken.tail (.fail _ 0 0 (ascii "c") (by decide +kernel))
  have done := failed.tail (.accept _ 0 0 (ascii "c") 1 (by decide +kernel) (by decide))
  have run := done.tail (.accept _ 0 0 (ascii "de") 1 (by decide +kernel) (by decide))
  rcases write_queue_pipe connectedSession ⟨rfl, rfl, rfl, rfl, rfl⟩ run with
    ⟨accepted, single, inflight, -⟩
  exact ⟨accepted, single, inflight, by decide +kernel⟩

end Example

end Session

end FixEngine
