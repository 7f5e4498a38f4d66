import FixEngine.Framing.Retained
import FixEngine.Session.Runs

/-!
# Complete messages are processed when they arrive

The handler of a read appends what was read and processes messages until the framer has none, but
the framer looks for messages only in `append`, and only while its ring has room. A read that
completes more messages than the ring holds leaves the rest in the buffer until more input comes.
-/

namespace FixEngine

open Reference

namespace Session

section Framer

variable {session : Session} {type : Bytes} {view : ValidMessageView}

theorem HandlerOutcome.framer_eq {called after : Session}
    (outcome : HandlerOutcome called type view after) : after.framer = called.framer := by
  cases outcome with
  | quiet keeps => exact keeps.framer_eq
  | refused _ interval keeps => exact keeps.framer_eq
  | loggedOn _ _ interval state replied keeps afterEq =>
      rw [afterEq]
      exact replied.keeps_becomeActive.framer_eq.trans keeps.framer_eq
  | renumbered _ _ _ _ _ interval replied keeps afterEq =>
      rw [afterEq]
      exact replied.keeps_becomeActive.framer_eq.trans keeps.framer_eq
  | stopped _ keeps => exact keeps.framer_eq
  | moved _ _ afterEq => rw [afterEq]; rfl

theorem framer_cacheMessage (session : Session) (seqNum : ℕ) (raw : Bytes) :
    (session.cacheMessage seqNum raw).framer = session.framer := by
  simp only [cacheMessage]
  split <;> rfl

theorem framer_dispatch (session : Session) (message : Message) (raw : Bytes) :
    (session.dispatch message raw).framer = session.framer := by
  cases session.dispatch_effect message raw with
  | stopped _ afterEq => rw [afterEq]
  | quiet _ keeps => exact keeps.framer_eq
  | loggedOut _ _ keeps => exact keeps.framer_eq
  | handled running type _ _ ready keeps afterEq =>
      have runningReady : (ready.updateIn
          ((makeValidMessageView message).headerCache.msgSeqNum + 1)).stopped = false :=
        keeps.stopped_eq.trans running
      rw [afterEq]
      exact (handle_outcome _ runningReady type _).framer_eq.trans keeps.framer_eq
  | cached _ _ _ _ _ _ _ ready keeps afterEq =>
      rw [afterEq, framer_cacheMessage]
      exact keeps.framer_eq
  | gap _ _ _ _ _ requested keeps afterEq =>
      rw [afterEq, framer_cacheMessage]
      exact keeps.framer_eq

theorem framer_drainOne (session : Session) (message : Message) (raw : Bytes) :
    (session.drainOne message raw).framer = session.framer := by
  simp only [drainOne]
  split <;> exact session.framer_dispatch message raw

theorem framer_stop (session : Session) : session.stop.framer = session.framer := by
  cases running : session.stopped with
  | true => rw [stop_eq_self running]
  | false => exact (keeps_stop running).framer_eq

theorem framer_drainLoop (rounds : ℕ) (session : Session) :
    (drainLoop rounds session).framer = session.framer := by
  induction rounds generalizing session with
  | zero => rfl
  | succ rounds ih =>
      simp only [drainLoop]
      split
      · split
        · rw [ih, framer_drainOne]
        · rw [framer_stop]
          exact (session.keeps_sendLogout _).framer_eq
      · split <;> rfl

/-- Processing a message leaves the framer alone. -/
theorem framer_processWireMessage (session : Session) (wire : Bytes) :
    (session.processWireMessage wire).framer = session.framer := by
  have received : (session.receive wire).framer = session.framer := by
    simp only [receive]
    split
    · exact session.framer_dispatch _ _
    · cases running : session.stopped with
      | true => simp [stopWithLogout, running]
      | false => exact (keeps_stopWithLogout running _).framer_eq
  rw [processWireMessage, drainRecoveryCache]
  split
  · exact received
  · rw [framer_drainLoop, received]

theorem framer_doRead (session : Session) : session.doRead.framer = session.framer :=
  session.keeps_doRead.framer_eq

end Framer

/-- The messages that the loop after a read passes to `process_wire_message_`. -/
def passedFrames : ℕ → Session → List Bytes
  | 0, _ => []
  | rounds + 1, session =>
      if session.framer.hasMessage then
        let processed := session.processWireMessage session.framer.getMessage
        session.framer.getMessage ::
          passedFrames rounds (processed.withFramer processed.framer.consumeMessage)
      else []

section Loop

/-- The loop takes the messages of the framer, whatever the session does with them. -/
theorem processMessages_takes (rounds : ℕ) (session : Session) :
    ((processMessages rounds session).framer, session.passedFrames rounds) =
      session.framer.takeMessages rounds := by
  induction rounds generalizing session with
  | zero =>
      simp only [processMessages, passedFrames, Framer.takeMessages]
      split <;> rfl
  | succ rounds ih =>
      simp only [processMessages, passedFrames, Framer.takeMessages]
      split
      · have rest := ih ((session.processWireMessage session.framer.getMessage).withFramer
          (session.processWireMessage session.framer.getMessage).framer.consumeMessage)
        have after : ((session.processWireMessage session.framer.getMessage).withFramer
            (session.processWireMessage session.framer.getMessage).framer.consumeMessage).framer =
            session.framer.consumeMessage := by
          rw [withFramer, framer_processWireMessage]
        rw [after] at rest
        rw [← rest]
      · rfl

theorem framer_onRead {session : Session} (running : session.stopped = false) (data : Bytes) :
    (session.onRead (.ok data)).framer = (session.framer.read data).1 := by
  simp only [onRead, running, Bool.false_eq_true, if_false]
  rw [framer_doRead, Framer.read]
  exact congrArg Prod.fst (processMessages_takes _ (session.withFramer (session.framer.append data)))

end Loop

end Session

/-- A session, what was read for it, and the messages of that which it has processed. -/
structure Reading where
  session : Session
  received : Bytes := []
  processed : List Bytes := []

namespace Reading

/-- The handler of a read that brought data. A stopped session does not look at the data. -/
def read (reading : Reading) (data : Bytes) : Reading :=
  if reading.session.stopped then reading
  else
    let appended := reading.session.withFramer (reading.session.framer.append data)
    { session := reading.session.onRead (.ok data)
      received := reading.received ++ data
      processed := reading.processed ++ appended.passedFrames appended.framer.completed.size }

/-- Reads one after the other. -/
def readAll (reading : Reading) (reads : List Bytes) : Reading := reads.foldl read reading

/-- Every complete message has been processed, and the buffer holds none. -/
structure Handled (reading : Reading) : Prop where
  processed_eq : reading.processed = frames reading.received
  noneLeft : frames reading.session.framer.buffer.readable = []

/-- The read completes no more messages than the ring of the framer holds. -/
def Few (reading : Reading) (data : Bytes) : Prop :=
  reading.session.stopped = false →
    (frames (reading.session.framer.buffer.readable ++ data)).length ≤ completedSpec.capacity

/-- The framer has passed on everything it could find. -/
def Sound (reading : Reading) : Prop :=
  ∃ discarded,
    reading.session.framer.Drained reading.received reading.processed discarded

section Read

variable {reading : Reading} {data : Bytes}

theorem read_stopped (stopped : reading.session.stopped = true) : reading.read data = reading := by
  simp [read, stopped]

theorem framer_read (running : reading.session.stopped = false) :
    (reading.read data).session.framer = (reading.session.framer.read data).1 := by
  simp only [read, running, Bool.false_eq_true, if_false]
  exact Session.framer_onRead running data

theorem received_read (running : reading.session.stopped = false) :
    (reading.read data).received = reading.received ++ data := by
  simp only [read, running, Bool.false_eq_true, if_false]

theorem processed_read (running : reading.session.stopped = false) :
    (reading.read data).processed = reading.processed ++ (reading.session.framer.read data).2 := by
  simp only [read, running, Bool.false_eq_true, if_false]
  congr 1
  exact congrArg Prod.snd (Session.processMessages_takes _ _)

/-- The framer follows what was received, whether or not it has passed everything on. -/
def Follows (reading : Reading) : Prop :=
  ∃ discarded, reading.session.framer.Tracks reading.received reading.processed discarded

theorem Follows.read (follows : reading.Follows) (data : Bytes) : (reading.read data).Follows := by
  cases running : reading.session.stopped with
  | true =>
      rw [read_stopped running]
      exact follows
  | false =>
      rcases follows with ⟨discarded, tracks⟩
      have after := tracks.read data
      rwa [← framer_read running, ← received_read running, ← processed_read running] at after

theorem Follows.readAll (follows : reading.Follows) (reads : List Bytes) :
    (reading.readAll reads).Follows := by
  induction reads generalizing reading with
  | nil => exact follows
  | cons data rest ih => exact ih (follows.read data)

theorem Sound.handled (sound : reading.Sound) : reading.Handled := by
  rcases sound with ⟨discarded, drained⟩
  refine ⟨drained.consumed_eq, ?_⟩
  have kept := drained.frames_append []
  rw [List.append_nil, List.append_nil, drained.nothingLeft] at kept
  exact kept.symm

theorem Sound.read (sound : reading.Sound) (few : reading.Few data) : (reading.read data).Sound := by
  cases running : reading.session.stopped with
  | true =>
      rw [read_stopped running]
      exact sound
  | false =>
      rcases sound with ⟨discarded, drained⟩
      rcases drained.reads data with ⟨elsewhere, reads⟩
      have after := reads.drained (few running)
      rw [← framer_read running, ← received_read running, ← processed_read running] at after
      exact ⟨_, after⟩

/-- A message beyond the capacity of the ring is not processed. -/
theorem Sound.few_of_handled (sound : reading.Sound) (handled : (reading.read data).Handled) :
    reading.Few data := by
  intro running
  rcases sound with ⟨discarded, drained⟩
  have whole := handled.processed_eq
  have before := drained.tracks.frames_eq data
  rw [drained.empty, drained.frames_append] at before
  rw [processed_read running, received_read running, before, drained.messages_read] at whole
  simp only [List.map_nil, List.append_nil, List.append_cancel_left_eq] at whole
  rw [← whole, List.length_take]
  exact Nat.min_le_left _ _

end Read

/-- After every read all complete messages are processed, if and only if no read completes more
messages than the ring of the framer holds. -/
theorem Sound.handled_iff_few {reading : Reading} (sound : reading.Sound) (reads : List Bytes) :
    (∀ count, (reading.readAll (reads.take count)).Handled) ↔ Runs.Meets Reading.read Few reading reads := by
  induction reads generalizing reading with
  | nil => simp [readAll, Runs.Meets, sound.handled]
  | cons data rest ih =>
      constructor
      · intro handled
        have few : reading.Few data := sound.few_of_handled (handled 1)
        refine ⟨few, (ih (sound.read few)).mp ?_⟩
        intro count
        exact handled (count + 1)
      · rintro ⟨few, later⟩ count
        cases count with
        | zero => exact sound.handled
        | succ count => exact (ih (sound.read few)).mpr later count

/-- Nothing wraps in a run of reads from a new framer that receives fewer than 2^62 bytes. -/
theorem readAll_noWrap (session : Session) (fresh : session.framer = .new) (reads : List Bytes)
    (short : (({ session := session } : Reading).readAll reads).received.length < 2 ^ 62) :
    (({ session := session } : Reading).readAll reads).session.framer.NoWrap := by
  have follows : ({ session := session } : Reading).Follows := by
    refine ⟨0, ?_⟩
    simp only [fresh]
    exact Framer.tracks_new
  rcases follows.readAll reads with ⟨discarded, tracks⟩
  exact tracks.noWrap short

/-- In every run of reads from a new framer, all complete messages are processed after every
read, if and only if no read completes more messages than the ring of the framer holds. -/
theorem handled_readAll_iff (session : Session) (fresh : session.framer = .new)
    (reads : List Bytes) :
    (∀ count, (({ session := session } : Reading).readAll (reads.take count)).Handled) ↔
      Runs.Meets Reading.read Few { session := session } reads := by
  have sound : ({ session := session } : Reading).Sound := by
    refine ⟨0, ?_⟩
    simp only [fresh]
    exact Framer.drained_new
  exact Sound.handled_iff_few sound reads

/-- The shortest frame. -/
def shortest : Bytes := ascii "8=FIX.4.4\x019=0\x0110=000\x01"

/-- Three frames and the start of a fourth, in three reads that end inside of frames. -/
def splitReads : List Bytes :=
  [shortest.take 8, shortest.drop 8 ++ shortest ++ shortest.take 1, shortest.drop 1 ++ shortest.take 20]

theorem handled_readAll_split :
    (({ session := Session.initiator } : Reading).readAll (splitReads.take 2)).Handled ∧
      (({ session := Session.initiator } : Reading).readAll splitReads).Handled := by
  have few : Runs.Meets Reading.read Few { session := Session.initiator } splitReads := by
    refine ⟨fun _ => ?_, fun _ => ?_, fun _ => ?_, trivial⟩
    · decide +kernel
    · decide +kernel
    · decide +kernel
  have handled := (handled_readAll_iff Session.initiator rfl splitReads).mpr few
  exact ⟨handled 2, handled 3⟩

theorem frames_shortest (count : ℕ) :
    frames (List.replicate count shortest).flatten = List.replicate count shortest := by
  induction count with
  | zero => exact frames_of_find_none (by decide)
  | succ count ih =>
      rw [List.replicate_succ, List.flatten_cons]
      have starts : Framer.fixFirstField <+: shortest ++ (List.replicate count shortest).flatten :=
        (by decide : Framer.fixFirstField <+: shortest).trans (List.prefix_append _ _)
      have decision : headerDecision (shortest ++ (List.replicate count shortest).flatten) =
          .emit 21 := by
        rw [headerDecision_append _ (by decide)]
        decide
      have length : shortest.length = 21 := by decide
      rw [frames_of_starts starts, decision]
      simp only
      rw [← length, List.take_left, List.drop_left, ih]

theorem length_crowd (count : ℕ) :
    (List.replicate count shortest).flatten.length = 21 * count := by
  have one : shortest.length = 21 := by decide
  induction count with
  | zero => rfl
  | succ count ih =>
      rw [List.replicate_succ, List.flatten_cons, List.length_append, ih, one]
      omega

/-- One read with more messages than the ring holds. -/
theorem not_handled_crowd {count : ℕ} (many : completedSpec.capacity < count) :
    ¬(({ session := Session.initiator } : Reading).readAll
      [(List.replicate count shortest).flatten]).Handled := by
  intro handled
  have sound : ({ session := Session.initiator } : Reading).Sound := ⟨0, Framer.drained_new⟩
  have few := sound.few_of_handled handled rfl
  have empty : Session.initiator.framer.buffer.readable = [] := rfl
  simp only [empty, List.nil_append, frames_shortest, List.length_replicate] at few
  omega

theorem handled_readAll_crowd :
    (List.replicate 1025 shortest).flatten.length ≤ Framer.readSize ∧
      ¬(({ session := Session.initiator } : Reading).readAll
        [(List.replicate 1025 shortest).flatten]).Handled := by
  constructor
  · rw [length_crowd]
    decide
  · exact not_handled_crowd (by decide)

end Reading

end FixEngine
