import FixEngine.Framing.Streaming

/-!
# What a read leaves in the framer

`do_read` appends what was read and takes messages until the framer has none. A message that
does not fit into the ring of completed messages stays behind in the buffer, and so does
everything in front of a begin string that the scan waits for. The facts here follow one read:
which frames are taken, where the text that is kept starts, and why it is kept.
-/

namespace FixEngine

namespace Reference

open Framer (fixFirstField maxMessageSize trailerSize)

/-- The begin string at `position` is the one the scan waits for. -/
structure Pending (text : Bytes) (position : ℕ) : Prop where
  starts : fixFirstField <+: text.drop position
  waits : headerDecision (text.drop position) = .wait
  passed : ∀ earlier < position, fixFirstField <+: text.drop earlier →
    headerDecision (text.drop earlier) = .resync

/-- The length at which the frame of a text that starts with the begin string is complete. A body
length that has not ended yet asks for at least one byte more. -/
def awaited (text : Bytes) : ℕ :=
  match cut soh (text.drop (fixFirstField.length + 2)) with
  | none => text.length + 1
  | some (digits, _) => frameLength digits

section Decision

variable {text later : Bytes}

/-- A text on which the scan waits is shorter than the frame it waits for. -/
theorem length_lt_awaited (waits : headerDecision text = .wait) : text.length < awaited text := by
  simp only [headerDecision] at waits
  rw [awaited, ← List.drop_drop]
  split at waits
  · next short =>
      have nothing : (text.drop fixFirstField.length).drop 2 = [] :=
        List.drop_eq_nil_of_le (by omega)
      simp [nothing, cut]
  split at waits
  · cases waits
  cases found : cut soh ((text.drop fixFirstField.length).drop 2) with
  | none => exact Nat.lt_succ_self _
  | some parts =>
      simp only [found] at waits
      split at waits
      · split at waits
        · assumption
        · cases waits
      · cases waits

/-- Two begin strings do not overlap. -/
theorem not_prefix_near (starts : fixFirstField <+: text) {position : ℕ} (pos : 0 < position)
    (near : position < 10) : ¬fixFirstField <+: text.drop position := by
  rcases starts with ⟨rest, rfl⟩
  have bytes : fixFirstField = [56, 61, 70, 73, 88, 46, 52, 46, 52, 1] := by decide
  intro again
  rw [bytes] at again
  interval_cases position <;> simp at again

/-- A frame that lies in the text is found without what follows. -/
theorem emit_of_inside {stop : ℕ} (emits : headerDecision (text ++ later) = .emit stop)
    (inside : stop ≤ text.length) : headerDecision text = .emit stop := by
  rcases header_of_emit emits with ⟨digits, after, header, absent, acceptable, rfl⟩
  have long : fixFirstField.length + 2 + digits.length + 1 ≤ text.length := by
    simp only [frameLength] at inside
    omega
  have two : (ascii "9=").length = 2 := by decide
  have front : ascii "9=" ++ (digits ++ [soh]) <+: text.drop fixFirstField.length := by
    have whole : ascii "9=" ++ (digits ++ [soh]) <+: (text ++ later).drop fixFirstField.length := by
      refine ⟨after, ?_⟩
      rw [header]
      simp
    rw [List.drop_append_of_le_length (by omega)] at whole
    apply List.prefix_of_prefix_length_le whole (List.prefix_append _ _)
    simp only [List.length_append, List.length_drop, List.length_singleton, two]
    omega
  rcases front with ⟨rest, restEq⟩
  have here : text.drop fixFirstField.length = ascii "9=" ++ (digits ++ soh :: rest) := by
    rw [← restEq]
    simp
  rw [headerDecision_of_header here absent acceptable, if_neg (by omega)]

/-- When the wait for a body length ends in a resync, no begin string was in the text waited on. -/
theorem not_prefix_of_revised (starts : fixFirstField <+: text)
    (waits : headerDecision text = .wait) (revised : headerDecision (text ++ later) = .resync)
    {position : ℕ} (pos : 0 < position) : ¬fixFirstField <+: text.drop position := by
  intro again
  have inside := again.length_le
  rw [length_fixFirstField, List.length_drop] at inside
  have far : 10 ≤ position := by
    by_contra near
    exact not_prefix_near starts pos (by omega) again
  have unended : soh ∉ text.drop 12 := by
    simp only [headerDecision, length_fixFirstField] at waits
    split at waits
    · next short =>
        simp only [List.length_drop] at short
        omega
    split at waits
    · cases waits
    next nine =>
    split at waits
    · next none =>
        rw [List.drop_drop] at none
        exact cut_eq_none.mp none
    · next digits after found =>
        rcases cut_eq_some.mp found with ⟨restEq, absent⟩
        split at waits
        · next acceptable =>
            have header : (text ++ later).drop fixFirstField.length =
                ascii "9=" ++ (digits ++ soh :: (after ++ later)) := by
              rw [length_fixFirstField, List.drop_append_of_le_length (by omega),
                ← List.take_append_drop 2 (text.drop 10), not_not.mp nine, restEq]
              simp
            rw [headerDecision_of_header header absent acceptable] at revised
            split at revised <;> cases revised
        · cases waits
  apply unended
  have last : soh ∈ (text.drop position).drop 9 := by
    rcases again with ⟨rest, restEq⟩
    rw [← restEq, List.drop_append_of_le_length (by rw [length_fixFirstField]; omega)]
    apply List.mem_append_left
    decide
  rw [List.drop_drop] at last
  have suffix : text.drop (position + 9) <:+ text.drop 12 := by
    rw [show position + 9 = 12 + (position - 3) by omega, ← List.drop_drop]
    exact List.drop_suffix _ _
  exact suffix.mem last

end Decision

section Frames

variable {text later : Bytes}

/-- The scan comes to the same frames behind begin strings that are no messages. -/
theorem frames_of_passed (text : Bytes) (count : ℕ)
    (passed : ∀ position < count, fixFirstField <+: text.drop position →
      headerDecision (text.drop position) = .resync) :
    frames (text.drop count) = frames text := by
  induction count with
  | zero => rfl
  | succ count ih =>
      have before := ih fun position lt => passed position (by omega)
      rw [← before, ← List.drop_drop]
      by_cases starts : fixFirstField <+: text.drop count
      · rw [frames_of_starts starts, passed count (by omega) starts]
      · apply frames_drop
        intro position lt
        rw [Nat.lt_one_iff.mp lt]
        exact starts

/-- The scan waits on a text without frames, and on nothing else. -/
theorem Pending.frames_eq {position : ℕ} (pending : Pending text position) : frames text = [] := by
  rw [← frames_of_passed text position pending.passed, frames_of_starts pending.starts,
    pending.waits]

/-- A text without frames has none behind a begin string that turns out to be no message. -/
theorem frames_nil_of_resync (none : frames text = [])
    (resync : headerDecision (text ++ later) = .resync) : frames (text.drop 1) = [] := by
  by_cases here : fixFirstField <+: text
  · have scan := frames_of_starts here
    rw [none] at scan
    cases decision : headerDecision text with
    | wait =>
        apply frames_of_find_none
        cases found : find fixFirstField (text.drop 1) with
        | none => rfl
        | some distance =>
            have again := (find_eq_some found).1
            rw [List.drop_drop] at again
            exact absurd again (not_prefix_of_revised here decision resync (by omega))
    | resync =>
        rw [decision] at scan
        exact scan.symm
    | emit stop =>
        rw [decision] at scan
        cases scan
  · rw [frames_drop text 1, none]
    intro position lt
    rw [Nat.lt_one_iff.mp lt]
    exact here

/-- The first frame that is completed by later bytes ends in them. -/
theorem length_lt_of_emit {stop : ℕ} (none : frames text = [])
    (starts : fixFirstField <+: text ++ later)
    (emits : headerDecision (text ++ later) = .emit stop) : text.length < stop := by
  by_contra inside
  have decision := emit_of_inside emits (by omega)
  have long := (stop_pos decision).1
  have here : fixFirstField <+: text := by
    apply List.prefix_of_prefix_length_le starts (List.prefix_append _ _)
    rw [length_fixFirstField]
    omega
  have scan := frames_of_starts here
  rw [none, decision] at scan
  cases scan

theorem frames_nil_of_skipped {count : ℕ} (none : frames text = [])
    (skipped : ∀ position < count, ¬fixFirstField <+: (text ++ later).drop position) :
    frames (text.drop count) = [] := by
  rw [frames_drop text count, none]
  intro position lt here
  apply skipped position lt
  rcases Nat.le_total position text.length with le | ge
  · rw [List.drop_append_of_le_length le]
    exact here.trans (List.prefix_append _ _)
  · rw [List.drop_eq_nil_of_le ge] at here
    have := here.length_le
    rw [length_fixFirstField] at this
    simp at this

end Frames

end Reference

open Reference

namespace Framer

/-- What `parse_buffer` does, in positions of the stream. -/
inductive ParseStep (framer : Framer) (stream : Bytes) (result : Framer × FramerParseResult) : Prop
  | atEnd (le : stream.length ≤ framer.scanAbs) (result_eq : result = (framer, .needMoreData))
  /-- No message is queued, and what does not start one is dropped. -/
  | dropped (idle : framer.completed.empty = true)
      (absent : find fixFirstField (stream.drop framer.scanAbs) = none)
      (result_eq : result = framer.discardGarbage framer.buffer.readable)
  | kept (busy : framer.completed.empty = false)
      (absent : find fixFirstField (stream.drop framer.scanAbs) = none)
      (result_eq : result = (framer, .needMoreData))
  | waits (le : framer.scanAbs ≤ result.1.scanAbs)
      (skipped : ∀ position, framer.scanAbs ≤ position → position < result.1.scanAbs →
        ¬fixFirstField <+: stream.drop position)
      (starts : fixFirstField <+: stream.drop result.1.scanAbs)
      (decision : headerDecision (stream.drop result.1.scanAbs) = .wait)
      (asks : result.2 = .needMoreData) (buffer_eq : result.1.buffer = framer.buffer)
      (completed_eq : result.1.completed = framer.completed)
  | resyncs (position : ℕ) (le : framer.scanAbs ≤ position)
      (skipped : ∀ earlier, framer.scanAbs ≤ earlier → earlier < position →
        ¬fixFirstField <+: stream.drop earlier)
      (starts : fixFirstField <+: stream.drop position)
      (decision : headerDecision (stream.drop position) = .resync)
      (scan_eq : result.1.scanAbs = position + 1)
      (asks : result.2 ≠ .needMoreData) (buffer_eq : result.1.buffer = framer.buffer)
      (completed_eq : result.1.completed = framer.completed)
  | queues (position stop : ℕ) (le : framer.scanAbs ≤ position)
      (skipped : ∀ earlier, framer.scanAbs ≤ earlier → earlier < position →
        ¬fixFirstField <+: stream.drop earlier)
      (starts : fixFirstField <+: stream.drop position)
      (decision : headerDecision (stream.drop position) = .emit stop)
      (scan_eq : result.1.scanAbs = position + stop)
      (asks : result.2 ≠ .needMoreData) (buffer_eq : result.1.buffer = framer.buffer)
      (completed_eq : result.1.completed =
        (framer.completed.push ⟨position, position + stop⟩).1)

section Parse

variable {framer : Framer} {stream : Bytes} {consumed : List Bytes} {discarded : ℕ}

/-- The header behind a begin string that was found from `before` on. -/
theorem parseStep_readHeader {before : Framer} (rep : framer.buffer.Represents stream discarded)
    (bufferEq : framer.buffer = before.buffer) (completedEq : framer.completed = before.completed)
    (low : discarded ≤ framer.scanAbs) (le : before.scanAbs ≤ framer.scanAbs)
    (skipped : ∀ position, before.scanAbs ≤ position → position < framer.scanAbs →
      ¬fixFirstField <+: stream.drop position)
    (first_eq : framer.context.first = framer.scanAbs)
    (starts : fixFirstField <+: stream.drop framer.scanAbs) :
    ParseStep before stream
      (framer.readHeader (stream.drop discarded) (framer.scanAbs - discarded)) := by
  rcases headerStep_readHeader rep low starts with
    ⟨decision, resultEq⟩ | ⟨decision, resultEq⟩ |
      ⟨digits, after, reading, header, absent, acceptable, readingEq, resultEq⟩
  · rw [resultEq]
    exact .waits le skipped starts decision rfl bufferEq completedEq
  · rw [resultEq]
    exact .resyncs framer.scanAbs le skipped starts decision (by simp [resync, first_eq])
      (by simp [resync]) bufferEq completedEq
  · have decision := headerDecision_of_header header absent acceptable
    subst readingEq
    rw [resultEq]
    split
    · next short =>
        rw [if_pos short] at decision
        exact .waits le skipped starts decision rfl bufferEq completedEq
    · next long =>
        rw [if_neg long] at decision
        refine .queues framer.scanAbs (frameLength digits) le skipped starts decision rfl
          (by simp [queueMessage]) bufferEq ?_
        simp only [queueMessage, makeMessageWindow, first_eq, completedEq]

theorem parseStep_findBegin (tracks : framer.Tracks stream consumed discarded) :
    ParseStep framer stream
      (framer.findBegin (stream.drop discarded) (framer.scanAbs - discarded)) := by
  have discardedLe := tracks.discarded_le_scan
  simp only [findBegin, tracks.drop_scan]
  cases found : find fixFirstField (stream.drop framer.scanAbs) with
  | none =>
      simp only
      split
      · next idle =>
          exact .dropped idle found (by rw [tracks.rep.readable_eq])
      · next busy => exact .kept (by simpa using busy) found rfl
  | some distance =>
      have here := (find_eq_some found).1
      rw [List.drop_drop] at here
      have beginAbs : framer.buffer.readableRelToAbs (framer.scanAbs - discarded + distance) =
          framer.scanAbs + distance := by
        rw [tracks.rep.readableRelToAbs_eq]
        omega
      have skipped : ∀ position, framer.scanAbs ≤ position →
          position < framer.scanAbs + distance → ¬fixFirstField <+: stream.drop position := by
        intro position ge lt
        have := @not_prefix_of_lt_find _ _ _ (position - framer.scanAbs) found (by omega)
        rwa [List.drop_drop, Nat.add_sub_cancel' ge] at this
      simp only [beginAbs]
      have step := @parseStep_readHeader
        { framer with
          context := { framer.context with first := framer.scanAbs + distance }
          scanAbs := framer.scanAbs + distance }
        stream discarded framer tracks.rep rfl rfl (by simp only; omega) (by simp) skipped rfl here
      simp only at step
      rwa [show framer.scanAbs + distance - discarded = framer.scanAbs - discarded + distance by
        omega] at step

theorem parseStep_parseBuffer (tracks : framer.Tracks stream consumed discarded) :
    ParseStep framer stream framer.parseBuffer := by
  have discardedLe := tracks.discarded_le_scan
  have scanEq : max framer.scanAbs (framer.buffer.readableRelToAbs 0) = framer.scanAbs := by
    rw [tracks.rep.readableRelToAbs_eq]
    omega
  simp only [parseBuffer, scanEq, tracks.rep.readable_eq, tracks.rep.absToReadableRel_eq]
  split
  · next nothingNew =>
      rw [List.length_drop] at nothingNew
      exact .atEnd (by omega) rfl
  · rcases tracks.context with finding | ⟨reading, body⟩
    · simp only [finding]
      exact parseStep_findBegin tracks
    · have total : discarded + (stream.drop discarded).length = stream.length := by
        have := tracks.rep.discarded_le
        rw [List.length_drop]
        omega
      have decision := body.decision []
      have before := body.before_last
      rw [List.append_nil] at decision
      simp only [reading, readBody, tracks.rep.readableRelToAbs_eq, total]
      have skipped : ∀ position, framer.scanAbs ≤ position → position < framer.scanAbs →
          ¬fixFirstField <+: stream.drop position := by omega
      split
      · next short =>
          refine .waits (Nat.le_refl _) skipped body.starts ?_ rfl rfl rfl
          rw [decision, if_pos short]
      · next arrived =>
          refine .queues framer.scanAbs (framer.context.last - framer.scanAbs) (Nat.le_refl _)
            skipped body.starts ?_ ?_ (by simp [queueMessage]) rfl ?_
          · rw [decision, if_neg arrived]
          · simp only [queueMessage]
            omega
          · simp only [queueMessage, makeMessageWindow, body.first_eq]
            congr 3
            omega

end Parse

/-- What starts like a message between two positions is none. -/
def Passed (stream : Bytes) (low high : ℕ) : Prop :=
  ∀ position, low ≤ position → position < high → fixFirstField <+: stream.drop position →
    headerDecision (stream.drop position) = .resync

/-- The loop of `append`: nothing is left to find in `old`, and `data` is new. -/
structure Parsing (framer : Framer) (old data : Bytes) (consumed : List Bytes) (discarded : ℕ) :
    Prop where
  tracks : framer.Tracks (old ++ data) consumed discarded
  capacity : framer.completed.capacity = completedSpec.capacity
  quiet : frames (old.drop framer.scanAbs) = []
  late : ∀ window ∈ framer.completed.toList, old.length < window.last
  passed : Passed (old ++ data) (endOf discarded framer.completed.toList) framer.scanAbs

/-- The framer after the loop of `append`; `before` bytes were gone when it began. -/
structure Parsed (framer : Framer) (old data : Bytes) (consumed : List Bytes)
    (before discarded : ℕ) : Prop where
  tracks : framer.Tracks (old ++ data) consumed discarded
  capacity : framer.completed.capacity = completedSpec.capacity
  late : ∀ window ∈ framer.completed.toList, old.length < window.last
  passed : Passed (old ++ data) (endOf discarded framer.completed.toList) framer.scanAbs
  nothingLeft : framer.completed.full = false → frames ((old ++ data).drop framer.scanAbs) = []
  /-- Why text is kept: messages are queued, it may be part of a begin string, or the scan waits. -/
  reason : framer.completed.toList ≠ [] ∨
    (old ++ data).length ≤ discarded + 9 ∧ Passed (old ++ data) before (old ++ data).length ∨
    discarded = before ∧ fixFirstField <+: (old ++ data).drop framer.scanAbs ∧
      headerDecision ((old ++ data).drop framer.scanAbs) = .wait

section Quiet

variable {old data : Bytes} {scan position : ℕ}

theorem frames_nil_of_le (le : old.length ≤ position) : frames (old.drop position) = [] := by
  rw [List.drop_eq_nil_of_le le]
  exact frames_of_find_none (by decide)

theorem quiet_skip (quiet : frames (old.drop scan) = []) (le : scan ≤ position)
    (skipped : ∀ earlier, scan ≤ earlier → earlier < position →
      ¬fixFirstField <+: (old ++ data).drop earlier) : frames (old.drop position) = [] := by
  rcases Nat.le_total old.length position with beyond | within
  · exact frames_nil_of_le beyond
  · have skip := @frames_nil_of_skipped (old.drop scan) data (position - scan) quiet ?_
    · rwa [List.drop_drop, Nat.add_sub_cancel' le] at skip
    · intro offset lt
      rw [← List.drop_append_of_le_length (by omega), List.drop_drop]
      exact skipped _ (by omega) (by omega)

theorem quiet_resync (quiet : frames (old.drop position) = [])
    (decision : headerDecision ((old ++ data).drop position) = .resync) :
    frames (old.drop (position + 1)) = [] := by
  rcases Nat.le_total old.length (position + 1) with beyond | within
  · exact frames_nil_of_le beyond
  · rw [List.drop_append_of_le_length (by omega)] at decision
    have resumed := frames_nil_of_resync quiet decision
    rwa [List.drop_drop] at resumed

/-- A frame that completes now ends in the new text. -/
theorem late_of_emit {stop : ℕ} (quiet : frames (old.drop position) = [])
    (starts : fixFirstField <+: (old ++ data).drop position)
    (decision : headerDecision ((old ++ data).drop position) = .emit stop) :
    old.length < position + stop := by
  rcases Nat.le_total old.length position with beyond | within
  · have := (stop_pos decision).1
    omega
  · rw [List.drop_append_of_le_length within] at decision starts
    have := length_lt_of_emit quiet starts decision
    rw [List.length_drop] at this
    omega

end Quiet

section Loop

variable {framer : Framer} {old data : Bytes} {consumed : List Bytes} {discarded : ℕ}

theorem Tracks.discarded_eq {after : Framer} {stream : Bytes} {elsewhere : ℕ}
    (tracks : framer.Tracks stream consumed discarded)
    (tracksAfter : after.Tracks stream consumed elsewhere) (same : after.buffer = framer.buffer) :
    elsewhere = discarded := by
  rw [← tracks.rep.base, ← tracksAfter.rep.base, same]

theorem toList_push {window : MessageWindow} (valid : framer.completed.Valid)
    (notFull : framer.completed.size < framer.completed.capacity) :
    (framer.completed.push window).1.toList = framer.completed.toList ++ [window] := by
  have room : framer.completed.full = false := by
    simp only [Ring.full, beq_eq_false_iff_ne]
    omega
  simp only [Ring.push, room, Bool.false_eq_true, if_false]
  exact Ring.toList_put valid notFull window

theorem capacity_push {window : MessageWindow} :
    (framer.completed.push window).1.capacity = framer.completed.capacity := by
  simp only [Ring.push]
  split
  · simp [Ring.makeRoom, completedSpec]
  · rfl

theorem Passed.resync {stream : Bytes} {low scan position : ℕ} (passed : Passed stream low scan)
    (skipped : ∀ earlier, scan ≤ earlier → earlier < position →
      ¬fixFirstField <+: stream.drop earlier) : Passed stream low position := by
  intro earlier ge lt starts
  rcases Nat.lt_or_ge earlier scan with before | after
  · exact passed earlier ge before starts
  · exact absurd starts (skipped earlier after lt)

/-- A round of the loop that goes on. -/
theorem Parsing.step (parsing : framer.Parsing old data consumed discarded)
    (notFull : framer.completed.size < framer.completed.capacity)
    (goesOn : framer.parseBuffer.2 ≠ .needMoreData) :
    framer.parseBuffer.1.Parsing old data consumed discarded := by
  rcases (outcome_parseBuffer parsing.tracks notFull).tracks with ⟨elsewhere, tracks⟩
  cases parseStep_parseBuffer parsing.tracks with
  | atEnd _ resultEq => simp [resultEq] at goesOn
  | dropped _ _ resultEq => simp [resultEq, discardGarbage] at goesOn
  | kept _ _ resultEq => simp [resultEq] at goesOn
  | waits _ _ _ _ asks _ _ => exact absurd asks goesOn
  | resyncs position le skipped starts decision scanEq asks bufferEq completedEq =>
      have same := parsing.tracks.discarded_eq tracks bufferEq
      subst same
      refine ⟨tracks, ?_, ?_, ?_, ?_⟩
      · rw [completedEq]
        exact parsing.capacity
      · rw [scanEq]
        exact quiet_resync (quiet_skip parsing.quiet le skipped) decision
      · rw [completedEq]
        exact parsing.late
      · rw [completedEq, scanEq]
        intro earlier ge lt startsEarlier
        rcases Nat.lt_or_ge earlier position with before | after
        · exact parsing.passed.resync skipped earlier ge before startsEarlier
        · rw [show earlier = position by omega]
          exact decision
  | queues position stop le skipped starts decision scanEq asks bufferEq completedEq =>
      have same := parsing.tracks.discarded_eq tracks bufferEq
      have late := late_of_emit (quiet_skip parsing.quiet le skipped) starts decision
      have listEq := @toList_push framer ⟨position, position + stop⟩ parsing.tracks.ring notFull
      subst same
      refine ⟨tracks, ?_, ?_, ?_, ?_⟩
      · rw [completedEq, capacity_push]
        exact parsing.capacity
      · rw [scanEq]
        exact frames_nil_of_le (by omega)
      · rw [completedEq, listEq]
        intro window mem
        rcases List.mem_append.mp mem with queued | new
        · exact parsing.late window queued
        · rw [List.mem_singleton.mp new]
          exact late
      · rw [completedEq, listEq, endOf_append, scanEq]
        intro earlier ge lt
        exact absurd lt (Nat.not_lt.mpr ge)

/-- The last round. -/
theorem Parsing.stop (parsing : framer.Parsing old data consumed discarded)
    (notFull : framer.completed.size < framer.completed.capacity)
    (asks : framer.parseBuffer.2 = .needMoreData) :
    ∃ elsewhere, framer.parseBuffer.1.Parsed old data consumed discarded elsewhere := by
  have outcome := outcome_parseBuffer parsing.tracks notFull
  have nothingLeft := outcome.waits asks
  have scanLow := parsing.tracks.discarded_le_scan
  rcases outcome.tracks with ⟨elsewhere, tracks⟩
  cases parseStep_parseBuffer parsing.tracks with
  | atEnd le resultEq =>
      rw [resultEq] at tracks nothingLeft ⊢
      refine ⟨discarded, parsing.tracks, parsing.capacity, parsing.late, parsing.passed,
        fun _ => nothingLeft, ?_⟩
      rcases parsing.tracks.settled with same | room
      · by_cases queued : framer.completed.toList = []
        · rw [queued] at same
          simp only [endOf] at same
          refine .inr (.inl ⟨by omega, ?_⟩)
          intro position ge lt
          omega
        · exact .inl queued
      · omega
  | dropped idle absent resultEq =>
      have noWindows : framer.completed.toList = [] := by
        apply List.eq_nil_of_length_eq_zero
        simpa [Ring.empty] using idle
      rw [resultEq] at tracks nothingLeft ⊢
      have scanEq : (framer.discardGarbage framer.buffer.readable).1.scanAbs = elsewhere := by
        have := tracks.rep.readableRelToAbs_eq 0
        simpa [discardGarbage] using this
      refine ⟨elsewhere, tracks, parsing.capacity, parsing.late, ?_, fun _ => nothingLeft,
        .inr (.inl ⟨?_, ?_⟩)⟩
      · intro position ge lt
        simp only [discardGarbage, noWindows, endOf] at ge
        omega
      · have lenReadable := parsing.tracks.rep.length_readable_eq
        have lenStream := parsing.tracks.rep.discarded_le
        have moved := parsing.tracks.rep.discardPrefix (framer.buffer.readable.length -
          min framer.buffer.readable.length (fixFirstField.length - 1)) (by omega)
        have same : elsewhere = _ := tracks.rep.base.symm.trans moved.base
        rw [length_fixFirstField] at same
        omega
      · have passed := parsing.passed
        rw [noWindows] at passed
        apply passed.resync
        intro earlier ge lt starts
        have := find_eq_none absent (earlier - framer.scanAbs)
        rw [List.drop_drop, Nat.add_sub_cancel' ge] at this
        exact this starts
  | kept busy absent resultEq =>
      rw [resultEq] at nothingLeft ⊢
      refine ⟨discarded, parsing.tracks, parsing.capacity, parsing.late, parsing.passed,
        fun _ => nothingLeft, .inl ?_⟩
      intro noWindows
      have := congrArg List.length noWindows
      simp [Ring.empty] at this busy
      omega
  | waits le skipped starts decision asks bufferEq completedEq =>
      have same := parsing.tracks.discarded_eq tracks bufferEq
      subst same
      refine ⟨elsewhere, tracks, ?_, ?_, ?_, fun _ => nothingLeft, .inr (.inr ⟨rfl, starts, decision⟩)⟩
      · rw [completedEq]
        exact parsing.capacity
      · rw [completedEq]
        exact parsing.late
      · rw [completedEq]
        exact parsing.passed.resync skipped
  | resyncs _ _ _ _ _ _ goesOn => exact absurd asks goesOn
  | queues _ _ _ _ _ _ _ goesOn => exact absurd asks goesOn

theorem Parsing.loop {rounds : ℕ} (parsing : framer.Parsing old data consumed discarded)
    (enough : (old ++ data).length - framer.scanAbs < rounds) :
    ∃ elsewhere, (parseLoop rounds framer).Parsed old data consumed discarded elsewhere := by
  induction rounds generalizing framer with
  | zero => omega
  | succ rounds ih =>
      simp only [parseLoop]
      split
      · next full =>
          refine ⟨discarded, parsing.tracks, parsing.capacity, parsing.late, parsing.passed,
            by simp [full], .inl ?_⟩
          intro noWindows
          have := congrArg List.length noWindows
          have positive := completedSpec.capacity_pos
          rw [← parsing.capacity] at positive
          simp [Ring.full] at this full
          omega
      · next notFull =>
          have room : framer.completed.size < framer.completed.capacity := by
            have := parsing.tracks.ring.size_le
            simp only [Ring.full, beq_iff_eq] at notFull
            omega
          have progress := (outcome_parseBuffer parsing.tracks room).progress
          have stop := parsing.stop room
          have step := parsing.step room
          cases result : framer.parseBuffer with
          | mk next asked =>
              rw [result] at progress stop step
              cases asked with
              | needMoreData => exact stop rfl
              | queuedMessage =>
                  have moved := progress (by simp)
                  have scanLe := (step (by simp)).tracks.scan_le
                  exact ih (step (by simp)) (by simp only at moved scanLe ⊢; omega)
              | progressNoMsg =>
                  have moved := progress (by simp)
                  have scanLe := (step (by simp)).tracks.scan_le
                  exact ih (step (by simp)) (by simp only at moved scanLe ⊢; omega)

end Loop

/-- The loop of `do_read`, with a bound on its rounds: what it leaves, and the messages taken. -/
def takeMessages : ℕ → Framer → Framer × List Bytes
  | 0, framer => (framer, [])
  | rounds + 1, framer =>
      if framer.hasMessage then
        let (rest, messages) := takeMessages rounds framer.consumeMessage
        (rest, framer.getMessage :: messages)
      else (framer, [])

/-- What was read is appended, and every queued message is taken. -/
def read (framer : Framer) (data : Bytes) : Framer × List Bytes :=
  takeMessages (framer.append data).completed.size (framer.append data)

/-- Nothing is queued and nothing is left to find; the begin strings in what is kept are no
messages, up to the scan position. -/
structure Drained (framer : Framer) (stream : Bytes) (consumed : List Bytes) (discarded : ℕ) :
    Prop where
  tracks : framer.Tracks stream consumed discarded
  capacity : framer.completed.capacity = completedSpec.capacity
  empty : framer.completed.toList = []
  nothingLeft : frames (stream.drop framer.scanAbs) = []
  passed : Passed stream discarded framer.scanAbs

section Read

variable {framer : Framer} {stream data : Bytes} {consumed : List Bytes} {discarded elsewhere : ℕ}

theorem drained_new : Framer.new.Drained [] [] 0 where
  tracks := tracks_new
  capacity := rfl
  empty := Ring.toList_new
  nothingLeft := frames_of_find_none (by decide)
  passed := by
    intro position _ lt
    exact absurd lt (Nat.not_lt_zero _)

theorem Drained.consumed_eq (drained : framer.Drained stream consumed discarded) :
    consumed = frames stream := by
  have split := drained.tracks.frames_eq []
  simpa [drained.empty, drained.nothingLeft] using split.symm

theorem Drained.passed_append (drained : framer.Drained stream consumed discarded) (data : Bytes) :
    Passed (stream ++ data) discarded framer.scanAbs := by
  intro position ge lt starts
  rcases drained.tracks.settled with same | room
  · rw [drained.empty] at same
    simp only [endOf] at same
    omega
  · rw [prefix_drop_append_iff (by rw [length_fixFirstField]; omega)] at starts
    have decision := drained.passed position ge lt starts
    rw [List.drop_append_of_le_length (by omega), headerDecision_append data (by simp [decision]),
      decision]

theorem Drained.parsing (drained : framer.Drained stream consumed discarded) (data : Bytes) :
    ({ framer with buffer := framer.buffer.push data } : Framer).Parsing stream data consumed
      discarded where
  tracks := drained.tracks.push data
  capacity := drained.capacity
  quiet := drained.nothingLeft
  late := by simp [drained.empty]
  passed := by
    rw [drained.empty]
    exact drained.passed_append data

theorem Drained.append (drained : framer.Drained stream consumed discarded) (data : Bytes) :
    ∃ elsewhere, (framer.append data).Parsed stream data consumed discarded elsewhere := by
  have pushed := drained.parsing data
  apply pushed.loop
  have lenReadable := pushed.tracks.rep.length_readable
  have lenStream := pushed.tracks.rep.length_readable_eq
  have discardedLe := drained.tracks.discarded_le_scan
  simp only [LinearBuffer.readableSize] at lenReadable lenStream ⊢
  omega

theorem Drained.readable_append (drained : framer.Drained stream consumed discarded)
    (data : Bytes) :
    framer.buffer.readable ++ data = (stream ++ data).drop discarded := by
  rw [drained.tracks.rep.readable_eq,
    List.drop_append_of_le_length drained.tracks.rep.discarded_le]

/-- The frames that more text completes are those of the text kept and the new text. -/
theorem Drained.frames_append (drained : framer.Drained stream consumed discarded) (data : Bytes) :
    frames ((stream ++ data).drop framer.scanAbs) = frames (framer.buffer.readable ++ data) := by
  have forward := drained.tracks.discarded_le_scan
  have skip := frames_of_passed ((stream ++ data).drop discarded) (framer.scanAbs - discarded) ?_
  · rwa [List.drop_drop, Nat.add_sub_cancel' forward, ← drained.readable_append data] at skip
  · intro position lt starts
    rw [List.drop_drop] at starts ⊢
    exact drained.passed_append data _ (by omega) (by omega) starts

/-- Taking the queued messages one after the other. -/
structure Taken (framer : Framer) (stream : Bytes) (consumed : List Bytes) (discarded : ℕ)
    (result : Framer × List Bytes) : Prop where
  messages_eq : result.2 = framer.completed.toList.map (slice stream)
  tracks : result.1.Tracks stream (consumed ++ result.2) (endOf discarded framer.completed.toList)
  empty : result.1.completed.toList = []
  scan_eq : result.1.scanAbs = framer.scanAbs
  capacity_eq : result.1.completed.capacity = framer.completed.capacity

theorem Tracks.takeMessages {rounds : ℕ} (tracks : framer.Tracks stream consumed discarded)
    (enough : framer.completed.size = rounds) :
    Taken framer stream consumed discarded (takeMessages rounds framer) := by
  induction rounds generalizing framer consumed discarded with
  | zero =>
      have none : framer.completed.toList = [] := by
        apply List.eq_nil_of_length_eq_zero
        rw [Ring.length_toList, enough]
      refine ⟨?_, ?_, none, rfl, rfl⟩
      · simp [Framer.takeMessages, none]
      · simpa [Framer.takeMessages, none, endOf] using tracks
  | succ rounds ih =>
      have available : framer.hasMessage = true := by simp [hasMessage, enough]
      have front := (tracks.front available).2.2.2
      have rest := ih (tracks.consume available) (by simp [consumeMessage, Ring.popFront, enough])
      simp only [Framer.takeMessages, available, if_true]
      refine ⟨?_, ?_, rest.empty, rest.scan_eq, rest.capacity_eq⟩
      · simp only [front, List.map_cons, tracks.getMessage_eq available]
        rw [rest.messages_eq]
        rfl
      · have moved := rest.tracks
        rw [List.append_assoc] at moved
        simp only [front, endOf]
        exact moved

/-- Reading follows the stream, also where more messages are completed than the ring holds. -/
theorem Tracks.read (tracks : framer.Tracks stream consumed discarded) (data : Bytes) :
    ∃ elsewhere,
      (framer.read data).1.Tracks (stream ++ data) (consumed ++ (framer.read data).2) elsewhere := by
  rcases tracks.append data with ⟨elsewhere, appended, -⟩
  exact ⟨_, (appended.takeMessages rfl).tracks⟩

theorem endOf_mem {low : ℕ} {windows : List MessageWindow} (some : windows ≠ []) :
    ∃ window ∈ windows, endOf low windows = window.last := by
  induction windows generalizing low with
  | nil => exact absurd rfl some
  | cons head rest ih =>
      by_cases last : rest = []
      · exact ⟨head, List.mem_cons_self .., by simp [last, endOf]⟩
      · have later : ∃ window ∈ rest, endOf head.last rest = window.last := ih last
        rcases later with ⟨window, mem, same⟩
        exact ⟨window, List.mem_cons_of_mem _ mem, same⟩

/-- The read after the loop of `append`: what it takes, and what it leaves to find. -/
structure Reads (framer : Framer) (stream data : Bytes) (consumed : List Bytes)
    (discarded elsewhere : ℕ) : Prop where
  parsed : (framer.append data).Parsed stream data consumed discarded elsewhere
  taken : Taken (framer.append data) (stream ++ data) consumed elsewhere (framer.read data)
  size_eq : (framer.read data).2.length = (framer.append data).completed.size
  frames_eq : frames (framer.buffer.readable ++ data) =
    (framer.read data).2 ++ frames ((stream ++ data).drop (framer.append data).scanAbs)

theorem Drained.reads (drained : framer.Drained stream consumed discarded) (data : Bytes) :
    ∃ elsewhere, framer.Reads stream data consumed discarded elsewhere := by
  rcases drained.append data with ⟨elsewhere, parsed⟩
  have taken : Taken _ _ _ _ (framer.read data) := parsed.tracks.takeMessages rfl
  refine ⟨elsewhere, parsed, taken, ?_, ?_⟩
  · rw [taken.messages_eq, List.length_map, Ring.length_toList]
  · have split := parsed.tracks.frames_eq []
    have before := drained.tracks.frames_eq data
    rw [drained.empty, drained.frames_append] at before
    rw [List.append_nil] at split
    simp only [List.map_nil, List.append_nil] at before
    rwa [before, List.append_assoc, List.append_cancel_left_eq, ← taken.messages_eq] at split

/-- A read takes the first frames that it completes, as many as the ring holds. -/
theorem Drained.messages_read (drained : framer.Drained stream consumed discarded) (data : Bytes) :
    (framer.read data).2 =
      (frames (framer.buffer.readable ++ data)).take completedSpec.capacity := by
  rcases drained.reads data with ⟨elsewhere, reads⟩
  have bounded := reads.parsed.tracks.ring.size_le
  rw [reads.parsed.capacity, ← reads.size_eq] at bounded
  rw [reads.frames_eq]
  cases full : (framer.append data).completed.full with
  | false => rw [reads.parsed.nothingLeft full, List.append_nil, List.take_of_length_le bounded]
  | true =>
      have same : (framer.append data).completed.size = completedSpec.capacity := by
        rw [← reads.parsed.capacity]
        simpa [Ring.full] using full
      rw [← same, ← reads.size_eq]
      exact (List.take_left ..).symm

/-- When the ring can hold the frames that the read completes, nothing is left to find. -/
theorem Reads.drained (reads : framer.Reads stream data consumed discarded elsewhere)
    (few : (frames (framer.buffer.readable ++ data)).length ≤ completedSpec.capacity) :
    (framer.read data).1.Drained (stream ++ data) (consumed ++ (framer.read data).2)
      (endOf elsewhere (framer.append data).completed.toList) := by
  refine ⟨reads.taken.tracks, ?_, reads.taken.empty, ?_, ?_⟩
  · rw [reads.taken.capacity_eq]
    exact reads.parsed.capacity
  · rw [reads.taken.scan_eq]
    cases full : (framer.append data).completed.full with
    | false => exact reads.parsed.nothingLeft full
    | true =>
        have same : (framer.append data).completed.size = completedSpec.capacity := by
          rw [← reads.parsed.capacity]
          simpa [Ring.full] using full
        apply List.eq_nil_of_length_eq_zero
        have total := congrArg List.length reads.frames_eq
        have size := reads.size_eq
        rw [List.length_append] at total
        omega
  · rw [reads.taken.scan_eq]
    exact reads.parsed.passed

theorem Reads.messages_eq (reads : framer.Reads stream data consumed discarded elsewhere)
    (few : (frames (framer.buffer.readable ++ data)).length ≤ completedSpec.capacity) :
    (framer.read data).2 = frames (framer.buffer.readable ++ data) := by
  have nothingLeft := (reads.drained few).nothingLeft
  rw [reads.taken.scan_eq] at nothingLeft
  rw [reads.frames_eq, nothingLeft, List.append_nil]

/-- What is kept behind a completed frame was part of this read. -/
theorem Reads.kept_lt (reads : framer.Reads stream data consumed discarded elsewhere)
    (completes : frames (framer.buffer.readable ++ data) ≠ [])
    (few : (frames (framer.buffer.readable ++ data)).length ≤ completedSpec.capacity) :
    (framer.read data).1.buffer.readable.length < data.length := by
  have drained := reads.drained few
  have kept := drained.tracks.rep.length_readable_eq
  have within := drained.tracks.rep.discarded_le
  have queued : (framer.append data).completed.toList ≠ [] := by
    intro none
    apply completes
    rw [← reads.messages_eq few, reads.taken.messages_eq, none]
    rfl
  rcases @endOf_mem elsewhere _ queued with ⟨window, mem, last⟩
  have late := reads.parsed.late window mem
  rw [List.length_append] at kept within
  omega

/-- Without a completed frame everything is kept when the scan waits, and next to nothing
otherwise. -/
theorem Reads.kept_cases (reads : framer.Reads stream data consumed discarded elsewhere)
    (drained : framer.Drained stream consumed discarded)
    (completes : frames (framer.buffer.readable ++ data) = []) :
    (framer.read data).1.buffer.readable.length ≤ 9 ∧
        (∀ position, ¬Pending (framer.buffer.readable ++ data) position) ∨
      (framer.read data).1.buffer.readable = framer.buffer.readable ++ data ∧
        ∃ position, Pending (framer.buffer.readable ++ data) position := by
  have few : (frames (framer.buffer.readable ++ data)).length ≤ completedSpec.capacity := by
    simp [completes]
  have after := reads.drained few
  have none : (framer.append data).completed.toList = [] := by
    apply List.eq_nil_of_length_eq_zero
    rw [Ring.length_toList, ← reads.size_eq, reads.messages_eq few, completes]
    rfl
  rw [none] at after
  simp only [endOf] at after
  rcases reads.parsed.reason with queued | ⟨short, passed⟩ | ⟨same, starts, waits⟩
  · exact absurd none queued
  · left
    constructor
    · rw [after.tracks.rep.length_readable_eq]
      omega
    · intro position pending
      have starts := pending.starts
      have waits := pending.waits
      have inside := starts.length_le
      rw [drained.readable_append, List.drop_drop] at starts waits inside
      rw [length_fixFirstField, List.length_drop] at inside
      have resync := passed (discarded + position) (by omega) (by omega) starts
      rw [resync] at waits
      cases waits
  · right
    subst same
    have forward := reads.parsed.tracks.discarded_le_scan
    have passed := reads.parsed.passed
    rw [none] at passed
    refine ⟨?_, (framer.append data).scanAbs - elsewhere, ?_, ?_, ?_⟩
    · rw [after.tracks.rep.readable_eq, drained.readable_append]
    · rwa [drained.readable_append, List.drop_drop, Nat.add_sub_cancel' forward]
    · rwa [drained.readable_append, List.drop_drop, Nat.add_sub_cancel' forward]
    · intro earlier lt startsEarlier
      rw [drained.readable_append, List.drop_drop] at startsEarlier ⊢
      exact passed _ (by simp only [endOf]; omega) (by omega) startsEarlier

end Read

end Framer

end FixEngine
