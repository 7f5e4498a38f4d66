import FixEngine.Lib.Runs
import FixEngine.Framing.Draining

/-!
# How much input the framer keeps

Nothing makes the framer give up on a begin string: a body length that does not end is waited for
however long it gets, what lies in front of the begin string is kept with it, and messages beyond
the capacity of the ring stay in the buffer. In a run whose reads do none of this the input that
is kept is bounded by the limits of `Framer.hpp`.
-/

namespace FixEngine

open Reference

namespace Framer

/-- The bytes one read brings at most, the size of `buff_`. -/
def readSize : ℕ := 64 * 1024

/-- `MAX_BEGIN_TO_BODYLEN_FIELD_BYTES + MAX_MESSAGE_SIZE + 7`. -/
def retainedLimit : ℕ := maxBeginToBodylenFieldBytes + maxMessageSize + trailerSize

/-- A read after which the framer neither has more frames than its ring holds nor waits for a
frame that ends beyond the limit. Of a header whose body length has not ended only the bytes read
so far are known: it is waited for with one byte more than these, whatever the limit of 32 bytes
that the source names for it. -/
structure Manageable (framer : Framer) (data : Bytes) : Prop where
  few : (frames (framer.buffer.readable ++ data)).length ≤ completedSpec.capacity
  near : ∀ position, Pending (framer.buffer.readable ++ data) position →
    position + awaited ((framer.buffer.readable ++ data).drop position) ≤ retainedLimit + 1

/-- The framer after reads, with the messages taken after each. -/
def readAll (framer : Framer) (reads : List Bytes) : Framer :=
  reads.foldl (fun framer data => (framer.read data).1) framer

section Retained

variable {framer : Framer} {stream data : Bytes} {consumed : List Bytes} {discarded : ℕ}

theorem Drained.retained_read (drained : framer.Drained stream consumed discarded)
    (sized : data.length ≤ readSize) (manageable : framer.Manageable data) :
    (framer.read data).1.buffer.readable.length ≤ retainedLimit := by
  have limit : readSize ≤ retainedLimit := by decide
  rcases drained.reads data with ⟨elsewhere, reads⟩
  by_cases completes : frames (framer.buffer.readable ++ data) = []
  · rcases reads.kept_cases drained completes with ⟨short, -⟩ | ⟨all, position, pending⟩
    · have : 9 ≤ retainedLimit := by decide
      omega
    · have near := manageable.near position pending
      have waiting := length_lt_awaited pending.waits
      rw [List.length_drop] at waiting
      rw [all]
      omega
  · have := reads.kept_lt completes manageable.few
    omega

theorem Drained.retained_readAll (drained : framer.Drained stream consumed discarded)
    (bounded : framer.buffer.readable.length ≤ retainedLimit) {reads : List Bytes}
    (sized : ∀ data ∈ reads, data.length ≤ readSize)
    (meets : Runs.Meets (fun framer data => (framer.read data).1) Manageable framer reads)
    (count : ℕ) :
    (framer.readAll (reads.take count)).buffer.readable.length ≤ retainedLimit := by
  induction reads generalizing framer stream consumed discarded count with
  | nil => simpa [readAll] using bounded
  | cons data rest ih =>
      cases count with
      | zero => exact bounded
      | succ count =>
          rcases drained.reads data with ⟨elsewhere, reads⟩
          have sizedHere := sized data (List.mem_cons_self ..)
          exact ih (reads.drained meets.1.few) (drained.retained_read sizedHere meets.1)
            (fun later mem => sized later (List.mem_cons_of_mem _ mem)) meets.2 count

theorem Tracks.readAll (tracks : framer.Tracks stream consumed discarded) (reads : List Bytes) :
    ∃ consumed elsewhere,
      (framer.readAll reads).Tracks (stream ++ reads.flatten) consumed elsewhere := by
  induction reads generalizing framer stream consumed discarded with
  | nil => exact ⟨consumed, discarded, by simpa [Framer.readAll] using tracks⟩
  | cons data rest ih =>
      rcases tracks.read data with ⟨elsewhere, after⟩
      have later := ih after
      rwa [List.append_assoc] at later

/-- Nothing wraps in a run that reads fewer than 2^62 bytes, whatever they are. -/
theorem readAll_noWrap (reads : List Bytes) (short : reads.flatten.length < 2 ^ 62) :
    (Framer.new.readAll reads).NoWrap := by
  rcases tracks_new.readAll reads with ⟨consumed, discarded, tracks⟩
  exact tracks.noWrap short

/-- In every run whose reads are all manageable, what is kept in the buffer is bounded after each
read. -/
theorem readAll_retained (reads : List Bytes) (sized : ∀ data ∈ reads, data.length ≤ readSize)
    (meets : Runs.Meets (fun framer data => (framer.read data).1) Manageable Framer.new reads)
    (count : ℕ) :
    (Framer.new.readAll (reads.take count)).buffer.readable.length ≤ retainedLimit :=
  drained_new.retained_readAll (by decide) sized meets count

/-- A message cut inside its header is waited for. -/
theorem readAll_retained_cutHeader :
    (Framer.new.readAll [ascii "8=FIX.4.4\x019="]).buffer.readable.length ≤ retainedLimit := by
  refine readAll_retained [ascii "8=FIX.4.4\x019="] ?_ ⟨⟨by decide, ?_⟩, trivial⟩ 1
  · intro data mem
    rw [List.mem_singleton.mp mem]
    decide
  · intro position pending
    have inside := pending.starts.length_le
    rw [length_fixFirstField, List.length_drop] at inside
    have start : position ≤ 2 := by
      have : (Framer.new.buffer.readable ++ ascii "8=FIX.4.4\x019=").length = 12 := by decide
      omega
    interval_cases position <;> decide

/-- A text whose body length does not end is waited on. -/
theorem pending_unended {digits : Bytes} (unended : soh ∉ digits) :
    Pending (fixFirstField ++ (ascii "9=" ++ digits)) 0 := by
  have ten := length_fixFirstField
  refine ⟨List.prefix_append _ _, ?_, fun earlier lt => absurd lt (Nat.not_lt_zero _)⟩
  have two : (ascii "9=").length = 2 := by decide
  have rest : (ascii "9=" ++ digits).drop 2 = digits := by rw [← two, List.drop_left]
  have nine : (ascii "9=" ++ digits).take 2 = ascii "9=" := by rw [← two, List.take_left]
  simp only [headerDecision, List.drop_zero, List.drop_left, nine, rest, cut_eq_none.mpr unended]
  simp [two]

/-- A body length that goes on for ever. -/
def endless (count : ℕ) : List Bytes :=
  (fixFirstField ++ ascii "9=") :: List.replicate count (List.replicate readSize 48)

theorem readAll_append (framer : Framer) (front rest : List Bytes) :
    framer.readAll (front ++ rest) = (framer.readAll front).readAll rest :=
  List.foldl_append

theorem readAll_singleton (framer : Framer) (data : Bytes) :
    framer.readAll [data] = (framer.read data).1 := rfl

theorem Drained.read_unended (drained : framer.Drained stream consumed discarded) {digits : Bytes}
    (keptEq : framer.buffer.readable ++ data = fixFirstField ++ (ascii "9=" ++ digits))
    (unended : soh ∉ digits) :
    ∃ stream consumed discarded, (framer.read data).1.Drained stream consumed discarded ∧
      (framer.read data).1.buffer.readable = fixFirstField ++ (ascii "9=" ++ digits) := by
  have pending := pending_unended unended
  rw [← keptEq] at pending
  rcases drained.reads data with ⟨elsewhere, reads⟩
  have after := reads.drained (by simp [pending.frames_eq])
  rcases reads.kept_cases drained pending.frames_eq with ⟨-, none⟩ | ⟨all, -⟩
  · exact absurd pending (none 0)
  · exact ⟨_, _, _, after, all.trans keptEq⟩

/-- All of it is kept. -/
theorem readAll_endless (count : ℕ) :
    ∃ stream consumed discarded,
      (Framer.new.readAll (endless count)).Drained stream consumed discarded ∧
      (Framer.new.readAll (endless count)).buffer.readable =
        fixFirstField ++ (ascii "9=" ++ List.replicate (count * readSize) 48) := by
  induction count with
  | zero =>
      have begun : Framer.new.buffer.readable ++ (fixFirstField ++ ascii "9=") =
          fixFirstField ++ (ascii "9=" ++ []) := by
        simp [Framer.new, LinearBuffer.new, LinearBuffer.readable]
      rw [Nat.zero_mul, endless, List.replicate_zero, List.replicate_zero, readAll_singleton]
      exact drained_new.read_unended begun List.not_mem_nil
  | succ count ih =>
      rcases ih with ⟨stream, consumed, discarded, drained, keptEq⟩
      have step : endless (count + 1) = endless count ++ [List.replicate readSize 48] := by
        simp [endless, List.replicate_succ']
      rw [step, readAll_append, readAll_singleton]
      apply drained.read_unended
      · rw [keptEq, Nat.add_mul, Nat.one_mul, List.replicate_add]
        simp
      · intro mem
        exact absurd (List.eq_of_mem_replicate mem) (by decide)

theorem readAll_retained_endless :
    (∀ data ∈ endless 17, data.length ≤ readSize) ∧
      retainedLimit < (Framer.new.readAll (endless 17)).buffer.readable.length := by
  rcases readAll_endless 17 with ⟨stream, consumed, discarded, -, keptEq⟩
  constructor
  · intro data mem
    rcases List.mem_cons.mp mem with rfl | later
    · decide
    · rw [List.eq_of_mem_replicate later, List.length_replicate]
  · rw [keptEq]
    simp only [List.length_append, List.length_replicate]
    decide

end Retained

end Framer

end FixEngine
