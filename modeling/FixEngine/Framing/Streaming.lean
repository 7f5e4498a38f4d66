import FixEngine.Framing.Reference

/-!
# Streaming framing equals one-shot framing

The framer keeps absolute positions over a buffer that compacts, grows and discards, and a scan
that can stop at any byte. `Framer.Tracks` ties it to the whole stream appended so far: the
frames consumed, then those queued, then the frames of the stream from the scan position on are
the frames of the stream, whatever is appended later. Each operation keeps it, and a parse that
asks for more data has nothing left to find.
-/

namespace FixEngine

open Reference

/-- Windows in stream order between `low` and `high`, without overlap. -/
def Ordered (low : ℕ) : List MessageWindow → ℕ → Prop
  | [], high => low ≤ high
  | window :: rest, high =>
      low ≤ window.first ∧ window.first ≤ window.last ∧ Ordered window.last rest high

/-- The end of the last window, or `low` when there is none. -/
def endOf (low : ℕ) : List MessageWindow → ℕ
  | [] => low
  | window :: rest => endOf window.last rest

/-- The bytes of the stream in a window. -/
def slice (stream : Bytes) (window : MessageWindow) : Bytes :=
  (stream.drop window.first).take (window.last - window.first)

section Windows

variable {low high : ℕ} {windows : List MessageWindow}

theorem Ordered.le (ordered : Ordered low windows high) : low ≤ high := by
  induction windows generalizing low with
  | nil => exact ordered
  | cons window rest ih =>
      obtain ⟨lowLe, firstLe, tail⟩ := ordered
      have := ih tail
      omega

theorem Ordered.mono {higher : ℕ} (ordered : Ordered low windows high) (le : high ≤ higher) :
    Ordered low windows higher := by
  induction windows generalizing low with
  | nil => exact Nat.le_trans ordered le
  | cons window rest ih => exact ⟨ordered.1, ordered.2.1, ih ordered.2.2⟩

theorem Ordered.append (ordered : Ordered low windows high) (window : MessageWindow)
    (highLe : high ≤ window.first) (firstLe : window.first ≤ window.last) :
    Ordered low (windows ++ [window]) window.last := by
  induction windows generalizing low with
  | nil => exact ⟨Nat.le_trans ordered highLe, firstLe, Nat.le_refl _⟩
  | cons head rest ih => exact ⟨ordered.1, ordered.2.1, ih ordered.2.2⟩

theorem Ordered.last_le {window : MessageWindow} (ordered : Ordered low windows high)
    (mem : window ∈ windows) : window.last ≤ high := by
  induction windows generalizing low with
  | nil => cases mem
  | cons head rest ih =>
      rcases List.mem_cons.mp mem with rfl | mem
      · exact ordered.2.2.le
      · exact ih ordered.2.2 mem

theorem Ordered.first_le_last {window : MessageWindow} (ordered : Ordered low windows high)
    (mem : window ∈ windows) : window.first ≤ window.last := by
  induction windows generalizing low with
  | nil => cases mem
  | cons head rest ih =>
      rcases List.mem_cons.mp mem with rfl | mem
      · exact ordered.2.1
      · exact ih ordered.2.2 mem

theorem Ordered.le_first {window : MessageWindow} (ordered : Ordered low windows high)
    (mem : window ∈ windows) : low ≤ window.first := by
  induction windows generalizing low with
  | nil => cases mem
  | cons head rest ih =>
      obtain ⟨lowLe, firstLe, tail⟩ := ordered
      rcases List.mem_cons.mp mem with rfl | mem
      · exact lowLe
      · have := ih tail mem
        omega

@[simp]
theorem endOf_append (window : MessageWindow) : endOf low (windows ++ [window]) = window.last := by
  induction windows generalizing low with
  | nil => rfl
  | cons head rest ih => exact ih

/-- A window that lies inside the stream keeps its bytes when more is appended. -/
theorem slice_append {stream : Bytes} {window : MessageWindow} (later : Bytes)
    (inside : window.last ≤ stream.length) :
    slice (stream ++ later) window = slice stream window := by
  rcases Nat.lt_or_ge window.last window.first with lt | ge
  · simp [slice, Nat.sub_eq_zero_of_le (Nat.le_of_lt lt)]
  · rw [slice, slice, List.drop_append_of_le_length (by omega),
      List.take_append_of_le_length (by simp only [List.length_drop]; omega)]

theorem map_slice_append {stream : Bytes} (later : Bytes) (ordered : Ordered low windows high)
    (inside : high ≤ stream.length) :
    windows.map (slice (stream ++ later)) = windows.map (slice stream) :=
  List.map_congr_left fun _ mem => slice_append later (Nat.le_trans (ordered.last_le mem) inside)

end Windows

namespace Framer

/-- What a framer in the middle of a message body knows about the header it has read. -/
structure ReadingBody (framer : Framer) (stream : Bytes) : Prop where
  first_eq : framer.context.first = framer.scanAbs
  starts : fixFirstField <+: stream.drop framer.scanAbs
  before_last : framer.scanAbs + 17 ≤ framer.context.last
  last_le : framer.context.last ≤ stream.length + (maxMessageSize + trailerSize)
  decision : ∀ later : Bytes,
    headerDecision ((stream ++ later).drop framer.scanAbs) =
      if (stream ++ later).length < framer.context.last then .wait
      else .emit (framer.context.last - framer.scanAbs)

/-- The framer has processed `stream`, of which the first `discarded` bytes are gone from its
buffer, and its user has consumed the frames `consumed`. -/
structure Tracks (framer : Framer) (stream : Bytes) (consumed : List Bytes) (discarded : ℕ) :
    Prop where
  rep : framer.buffer.Represents stream discarded
  ring : framer.completed.Valid
  ordered : Ordered discarded framer.completed.toList framer.scanAbs
  scan_le : framer.scanAbs ≤ stream.length
  capacity_le : framer.buffer.capacity ≤ LinearBuffer.startCapacity + 2 * stream.length
  settled : framer.scanAbs = endOf discarded framer.completed.toList ∨
    framer.scanAbs + 9 ≤ stream.length
  frames_eq : ∀ later : Bytes,
    frames (stream ++ later) =
      consumed ++ framer.completed.toList.map (slice stream) ++
        frames ((stream ++ later).drop framer.scanAbs)
  context : framer.context.state = .findingBegin ∨
    (framer.context.state = .readingBody ∧ framer.ReadingBody stream)

/-- Every position of the framer that it looks at again is below 2^64. -/
structure NoWrap (framer : Framer) : Prop where
  buffer : framer.buffer.NoWrap
  scan_lt : framer.scanAbs < 2 ^ 64
  context_lt : framer.context.state = .readingBody →
    framer.context.first < 2 ^ 64 ∧ framer.context.last < 2 ^ 64
  windows_lt : ∀ window ∈ framer.completed.toList,
    window.first < 2 ^ 64 ∧ window.last < 2 ^ 64

theorem tracks_new : Framer.new.Tracks [] [] 0 where
  rep := .new
  ring := Ring.valid_new
  ordered := by simp [Framer.new, Ordered]
  scan_le := Nat.le_refl 0
  capacity_le := Nat.le_refl _
  settled := Or.inl rfl
  frames_eq := by simp [Framer.new]
  context := Or.inl rfl

/-- A text that is accepted as body length by the framer is accepted by the reference. -/
theorem parseBodyLength_eq (text : Bytes) :
    parseBodyLength text = if acceptableLength text then some (digitsValue text) else none := by
  have bound : maxMessageSize < 2 ^ 64 := by decide
  by_cases acceptable : acceptableLength text = true
  · have parts := acceptable
    simp only [acceptableLength, ne_eq, Bool.and_eq_true, decide_eq_true_eq, List.all_eq_true]
      at parts
    have accepted : (fromChars 64 text).whole text = some (digitsValue text) :=
      whole_fromChars_eq_some.mpr ⟨parts.1.1, parts.1.2, by omega, rfl⟩
    simp [parseBodyLength, accepted, acceptable, parts.2]
  · simp only [parseBodyLength, acceptable, Bool.false_eq_true, if_false]
    split
    · rfl
    · next value accepted =>
        obtain ⟨nonempty, digits, _, rfl⟩ := whole_fromChars_eq_some.mp accepted
        have tooLarge : maxMessageSize < digitsValue text := by
          by_contra small
          apply acceptable
          simp only [acceptableLength, ne_eq, Bool.and_eq_true, decide_eq_true_eq,
            List.all_eq_true]
          exact ⟨⟨nonempty, digits⟩, by omega⟩
        simp [tooLarge]

namespace Tracks

variable {framer : Framer} {stream : Bytes} {consumed : List Bytes} {discarded : ℕ}

theorem discarded_le_scan (tracks : framer.Tracks stream consumed discarded) :
    discarded ≤ framer.scanAbs := tracks.ordered.le

theorem drop_scan (tracks : framer.Tracks stream consumed discarded) :
    (stream.drop discarded).drop (framer.scanAbs - discarded) = stream.drop framer.scanAbs := by
  rw [List.drop_drop, Nat.add_sub_cancel' tracks.discarded_le_scan]

theorem noWrap (tracks : framer.Tracks stream consumed discarded)
    (short : stream.length < 2 ^ 62) : framer.NoWrap := by
  have scanLe := tracks.scan_le
  refine ⟨tracks.rep.noWrap tracks.capacity_le short, by omega, fun reading => ?_,
    fun window mem => ?_⟩
  · rcases tracks.context with finding | ⟨-, body⟩
    · rw [finding] at reading
      cases reading
    · have lastLe := body.last_le
      have limits : maxMessageSize + trailerSize < 2 ^ 62 := by decide
      rw [body.first_eq]
      omega
  · have lastLe := tracks.ordered.last_le mem
    have firstLe := tracks.ordered.first_le_last mem
    omega

/-- Appended bytes change neither the windows nor what was decided. -/
theorem push (tracks : framer.Tracks stream consumed discarded) (data : Bytes) :
    ({ framer with buffer := framer.buffer.push data } : Framer).Tracks (stream ++ data)
      consumed discarded where
  rep := tracks.rep.push data
  ring := tracks.ring
  ordered := tracks.ordered
  scan_le := by
    have := tracks.scan_le
    simp only [List.length_append]
    omega
  capacity_le := tracks.rep.capacity_push_le data tracks.capacity_le
  settled := by
    rcases tracks.settled with same | room
    · exact Or.inl same
    · right
      simp only [List.length_append]
      omega
  frames_eq later := by
    have := tracks.frames_eq (data ++ later)
    simp only [List.append_assoc] at this ⊢
    rw [map_slice_append data tracks.ordered tracks.scan_le]
    exact this
  context := by
    rcases tracks.context with finding | ⟨reading, body⟩
    · exact Or.inl finding
    · refine Or.inr ⟨reading, body.first_eq, ?_, body.before_last, ?_, fun later => ?_⟩
      · show fixFirstField <+: (stream ++ data).drop framer.scanAbs
        rw [List.drop_append_of_le_length tracks.scan_le]
        exact body.starts.trans (List.prefix_append _ _)
      · have := body.last_le
        simp only [List.length_append]
        omega
      · rw [List.append_assoc]
        exact body.decision (data ++ later)

/-- Moving the scan over text the reference scan passes as well. -/
theorem moveScan (tracks : framer.Tracks stream consumed discarded) {scan : ℕ}
    (context : FramerContext) (finding : context.state = .findingBegin)
    (le : framer.scanAbs ≤ scan) (inside : scan + 9 ≤ stream.length)
    (same : ∀ later : Bytes, frames ((stream ++ later).drop framer.scanAbs) =
      frames ((stream ++ later).drop scan)) :
    ({ framer with scanAbs := scan, context := context } : Framer).Tracks stream consumed
      discarded where
  rep := tracks.rep
  ring := tracks.ring
  ordered := tracks.ordered.mono le
  scan_le := by simp only; omega
  capacity_le := tracks.capacity_le
  settled := Or.inr inside
  frames_eq later := by rw [tracks.frames_eq later, same later]
  context := Or.inl finding

end Tracks

section Parse

variable {framer : Framer} {stream : Bytes} {consumed : List Bytes} {discarded : ℕ}

/-- What a parse step leaves: the framer still tracks the stream; if it asks for more data there
is nothing to find from its scan position on, and otherwise the scan has moved forward. -/
structure Outcome (framer : Framer) (stream : Bytes) (consumed : List Bytes)
    (result : Framer × FramerParseResult) : Prop where
  tracks : ∃ discarded, result.1.Tracks stream consumed discarded
  waits : result.2 = .needMoreData → frames (stream.drop result.1.scanAbs) = []
  progress : result.2 ≠ .needMoreData → framer.scanAbs < result.1.scanAbs

/-- The header has been read: the frame is emitted as soon as its last byte is there. -/
theorem ReadingBody.frames_drop (body : framer.ReadingBody stream)
    (scanLe : framer.scanAbs ≤ stream.length) (later : Bytes) :
    frames ((stream ++ later).drop framer.scanAbs) =
      if (stream ++ later).length < framer.context.last then []
      else slice (stream ++ later) (makeMessageWindow framer.context) ::
        frames ((stream ++ later).drop framer.context.last) := by
  have starts : fixFirstField <+: (stream ++ later).drop framer.scanAbs := by
    rw [List.drop_append_of_le_length scanLe]
    exact body.starts.trans (List.prefix_append _ _)
  have before := body.before_last
  rw [frames_of_starts starts, body.decision later]
  by_cases short : (stream ++ later).length < framer.context.last
  · simp only [short, if_true]
  · simp only [short, if_false, slice, makeMessageWindow, body.first_eq, List.drop_drop]
    rw [Nat.add_sub_cancel' (by omega)]

theorem outcome_queueMessage (tracks : framer.Tracks stream consumed discarded)
    (notFull : framer.completed.size < framer.completed.capacity)
    (body : framer.ReadingBody stream) (arrived : framer.context.last ≤ stream.length) :
    Outcome framer stream consumed framer.queueMessage := by
  have before := body.before_last
  have scanLe := tracks.scan_le
  have pushed : (framer.completed.push (makeMessageWindow framer.context)).1 =
      framer.completed.put (makeMessageWindow framer.context) := by
    have : framer.completed.full = false := by
      simp only [Ring.full, beq_eq_false_iff_ne]
      omega
    simp [Ring.push, this]
  have listEq : (framer.completed.put (makeMessageWindow framer.context)).toList =
      framer.completed.toList ++ [makeMessageWindow framer.context] :=
    Ring.toList_put tracks.ring notFull _
  refine ⟨⟨discarded, ?_⟩, by simp [queueMessage], fun _ => ?_⟩
  · refine ⟨tracks.rep, ?_, ?_, arrived, tracks.capacity_le, ?_, fun later => ?_, Or.inl rfl⟩
    · simp only [queueMessage, pushed]
      exact tracks.ring.put notFull _
    · simp only [queueMessage, pushed, listEq]
      refine tracks.ordered.append (makeMessageWindow framer.context) ?_ ?_
      · simp [makeMessageWindow, body.first_eq]
      · simp only [makeMessageWindow, body.first_eq]
        omega
    · left
      simp only [queueMessage, pushed, listEq, endOf_append]
      rfl
    · simp only [queueMessage, pushed, listEq]
      rw [tracks.frames_eq later, body.frames_drop tracks.scan_le later,
        if_neg (by simp only [List.length_append]; omega), slice_append later arrived]
      simp
  · show framer.scanAbs < framer.context.last
    omega

/-- After a malformed header the search resumes one byte later, as the reference scan does. -/
theorem outcome_resync (tracks : framer.Tracks stream consumed discarded)
    (first_eq : framer.context.first = framer.scanAbs)
    (starts : fixFirstField <+: stream.drop framer.scanAbs)
    (decision : headerDecision (stream.drop framer.scanAbs) = .resync) :
    Outcome framer stream consumed framer.resync := by
  have inside := starts.length_le
  rw [length_fixFirstField, List.length_drop] at inside
  refine ⟨⟨discarded, ?_⟩, by simp [resync], fun _ => ?_⟩
  · simp only [resync, first_eq]
    refine tracks.moveScan {} rfl (by omega) (by omega) fun later => ?_
    have startsLater : fixFirstField <+: (stream ++ later).drop framer.scanAbs := by
      rw [List.drop_append_of_le_length tracks.scan_le]
      exact starts.trans (List.prefix_append _ _)
    have decisionLater : headerDecision ((stream ++ later).drop framer.scanAbs) = .resync := by
      rw [List.drop_append_of_le_length tracks.scan_le,
        headerDecision_append later (by simp [decision]), decision]
    rw [frames_of_starts startsLater, decisionLater]
    simp only [List.drop_drop]
  · simp [resync, first_eq]

theorem outcome_wait (tracks : framer.Tracks stream consumed discarded)
    (waits : frames (stream.drop framer.scanAbs) = []) :
    Outcome framer stream consumed (framer, .needMoreData) :=
  ⟨⟨discarded, tracks⟩, fun _ => waits, by simp⟩

/-- The header is read from bytes that are present, so later bytes do not change it. -/
theorem readingBody_of_header {digits after : Bytes}
    (first_eq : framer.context.first = framer.scanAbs)
    (starts : fixFirstField <+: stream.drop framer.scanAbs)
    (header : (stream.drop framer.scanAbs).drop 10 = ascii "9=" ++ (digits ++ soh :: after))
    (absent : soh ∉ digits) (acceptable : acceptableLength digits = true)
    (last_eq : framer.context.last = framer.scanAbs + frameLength digits) :
    framer.ReadingBody stream := by
  have inside := starts.length_le
  rw [length_fixFirstField, List.length_drop] at inside
  have positive : 17 ≤ frameLength digits := by
    simp only [frameLength, length_fixFirstField, trailerSize]
    omega
  have headerInside : 13 + digits.length ≤ stream.length - framer.scanAbs := by
    have two : (ascii "9=").length = 2 := by decide
    have lengths := congrArg List.length header
    simp only [List.length_drop, List.length_append, List.length_cons, two] at lengths
    omega
  have value : digitsValue digits ≤ maxMessageSize := by
    simp only [acceptableLength, Bool.and_eq_true, decide_eq_true_eq] at acceptable
    exact acceptable.2
  refine ⟨first_eq, starts, by omega, ?_, fun later => ?_⟩
  · simp only [last_eq, frameLength, length_fixFirstField]
    omega
  · have headerLater : ((stream ++ later).drop framer.scanAbs).drop fixFirstField.length =
        ascii "9=" ++ (digits ++ soh :: (after ++ later)) := by
      rw [List.drop_append_of_le_length (by omega), length_fixFirstField,
        List.drop_append_of_le_length (by simpa using inside), header]
      simp
    rw [headerDecision_of_header headerLater absent acceptable, last_eq, Nat.add_sub_cancel_left]
    by_cases short : (stream ++ later).length < framer.scanAbs + frameLength digits
    · rw [if_pos short, if_pos (by rw [List.length_drop]; omega)]
    · rw [if_neg short, if_neg (by rw [List.length_drop]; omega)]

/-- What reading the header `text` comes to, in the words of the reference scan. -/
inductive HeaderStep (framer : Framer) (text : Bytes) (result : Framer × FramerParseResult) : Prop
  | waits (decision : headerDecision text = .wait) (result_eq : result = (framer, .needMoreData))
  | resyncs (decision : headerDecision text = .resync) (result_eq : result = framer.resync)
  | reads (digits after : Bytes) (reading : Framer)
      (header : text.drop 10 = ascii "9=" ++ (digits ++ soh :: after)) (absent : soh ∉ digits)
      (acceptable : acceptableLength digits = true)
      (reading_eq : reading = { framer with context :=
        ⟨framer.context.first, framer.scanAbs + frameLength digits, digitsValue digits,
          .readingBody⟩ })
      (result_eq : result = if text.length < frameLength digits then (reading, .needMoreData)
        else reading.queueMessage)

/-- The header is read where the begin string was found. -/
theorem headerStep_readHeader (rep : framer.buffer.Represents stream discarded)
    (low : discarded ≤ framer.scanAbs) (starts : fixFirstField <+: stream.drop framer.scanAbs) :
    HeaderStep framer (stream.drop framer.scanAbs)
      (framer.readHeader (stream.drop discarded) (framer.scanAbs - discarded)) := by
  have inside := starts.length_le
  rw [length_fixFirstField, List.length_drop] at inside
  have bodyText : (stream.drop discarded).drop (framer.scanAbs - discarded + 10) =
      (stream.drop framer.scanAbs).drop 10 := by
    rw [List.drop_drop, List.drop_drop]
    congr 1
    omega
  have lengthText : (stream.drop discarded).drop (framer.scanAbs - discarded + 10 + 2) =
      ((stream.drop framer.scanAbs).drop 10).drop 2 := by
    rw [← bodyText, List.drop_drop, List.drop_drop, List.drop_drop]
  simp only [readHeader, length_fixFirstField, bodyText, lengthText]
  split
  · next short =>
      -- The two bytes after the begin string are not there yet.
      refine .waits ?_ rfl
      rw [headerDecision, length_fixFirstField, if_pos]
      simp only [List.length_drop] at short ⊢
      omega
  next long =>
  have notShort : ¬((stream.drop framer.scanAbs).drop 10).length < 2 := by
    simp only [List.length_drop] at long ⊢
    omega
  split
  · next notNine =>
      refine .resyncs ?_ rfl
      simp only [headerDecision, length_fixFirstField, notShort, if_false]
      rw [if_pos notNine]
  next nine =>
  cases found : cut soh (((stream.drop framer.scanAbs).drop 10).drop 2) with
  | none =>
      refine .waits ?_ rfl
      simp only [headerDecision, length_fixFirstField, notShort, if_false, nine, found]
  | some parts =>
      rcases parts with ⟨digits, after⟩
      simp only [parseBodyLength_eq]
      by_cases acceptable : acceptableLength digits = true
      · rcases cut_eq_some.mp found with ⟨restEq, absent⟩
        have header : (stream.drop framer.scanAbs).drop 10 =
            ascii "9=" ++ (digits ++ soh :: after) := by
          rw [← restEq, ← not_not.mp nine, List.take_append_drop]
        have stopEq : discarded + (framer.scanAbs - discarded + 10 + 2 + digits.length + 1 +
            digitsValue digits + trailerSize) = framer.scanAbs + frameLength digits := by
          simp only [frameLength, length_fixFirstField]
          omega
        have arrives : (stream.drop discarded).length < framer.scanAbs - discarded + 10 + 2 +
            digits.length + 1 + digitsValue digits + trailerSize ↔
            (stream.drop framer.scanAbs).length < frameLength digits := by
          simp only [List.length_drop]
          omega
        refine .reads digits after _ header absent acceptable rfl ?_
        simp only [acceptable, if_true, rep.readableRelToAbs_eq, stopEq, arrives]
      · simp only [acceptable, Bool.false_eq_true, if_false]
        refine .resyncs ?_ rfl
        simp only [headerDecision, length_fixFirstField, notShort, if_false, nine, found,
          acceptable, Bool.false_eq_true]

theorem outcome_readHeader (tracks : framer.Tracks stream consumed discarded)
    (notFull : framer.completed.size < framer.completed.capacity)
    (first_eq : framer.context.first = framer.scanAbs)
    (starts : fixFirstField <+: stream.drop framer.scanAbs) :
    Outcome framer stream consumed
      (framer.readHeader (stream.drop discarded) (framer.scanAbs - discarded)) := by
  rcases headerStep_readHeader tracks.rep tracks.discarded_le_scan starts with
    ⟨decision, resultEq⟩ | ⟨decision, resultEq⟩ |
      ⟨digits, after, reading, header, absent, acceptable, readingEq, resultEq⟩
  · rw [resultEq]
    apply outcome_wait tracks
    rw [frames_of_starts starts, decision]
  · rw [resultEq]
    exact outcome_resync tracks first_eq starts decision
  · have scanEq : framer.scanAbs = reading.scanAbs := by rw [readingEq]
    have lastEq : reading.context.last = reading.scanAbs + frameLength digits := by rw [readingEq]
    rw [scanEq] at starts header
    have body : reading.ReadingBody stream :=
      readingBody_of_header (by rw [readingEq, first_eq]) starts header absent acceptable lastEq
    have readingTracks : reading.Tracks stream consumed discarded := by
      subst readingEq
      exact ⟨tracks.rep, tracks.ring, tracks.ordered, tracks.scan_le, tracks.capacity_le,
        tracks.settled, tracks.frames_eq, Or.inr ⟨rfl, body⟩⟩
    have scanLe := readingTracks.scan_le
    rw [resultEq]
    split
    · next short =>
        refine ⟨⟨discarded, readingTracks⟩, fun _ => ?_, by simp⟩
        have framesHere := body.frames_drop scanLe []
        rw [List.append_nil] at framesHere
        rw [framesHere, if_pos]
        rw [List.length_drop] at short
        omega
    · next long =>
        have arrived : reading.context.last ≤ stream.length := by
          rw [List.length_drop] at long
          omega
        have notFullThen : reading.completed.size < reading.completed.capacity := by
          rwa [readingEq]
        have queued := outcome_queueMessage readingTracks notFullThen body arrived
        exact ⟨queued.tracks, queued.waits, fun goesOn => scanEq ▸ queued.progress goesOn⟩

/-- Garbage is dropped up to the last nine bytes, in which a begin string may start. -/
theorem outcome_discardGarbage (tracks : framer.Tracks stream consumed discarded)
    (finding : framer.context.state = .findingBegin)
    (noMessages : framer.completed.toList = [])
    (absent : find fixFirstField (stream.drop framer.scanAbs) = none) :
    Outcome framer stream consumed (framer.discardGarbage (stream.drop discarded)) := by
  have discardedLe := tracks.discarded_le_scan
  have scanLe := tracks.scan_le
  obtain ⟨count, countDef⟩ : ∃ count, count = (stream.drop discarded).length -
    min (stream.drop discarded).length (fixFirstField.length - 1) := ⟨_, rfl⟩
  simp only [discardGarbage]
  rw [← countDef]
  simp only [length_fixFirstField, List.length_drop] at countDef
  have countLe : count ≤ stream.length - discarded := by omega
  have rep := tracks.rep.discardPrefix count countLe
  have scanEq : (framer.buffer.discardPrefix count).readableRelToAbs 0 = discarded + count := by
    rw [rep.readableRelToAbs_eq]
    omega
  -- With an empty queue the scan is at the discarded end or at least nine bytes from the end.
  have forward : framer.scanAbs ≤ discarded + count := by
    rcases tracks.settled with same | room
    · rw [noMessages] at same
      simp only [endOf] at same
      omega
    · omega
  have dropEq (later : Bytes) : frames ((stream ++ later).drop (discarded + count)) =
      frames ((stream ++ later).drop framer.scanAbs) := by
    have skip := frames_drop ((stream ++ later).drop framer.scanAbs)
      (discarded + count - framer.scanAbs) fun position lt => by
        rw [List.drop_append_of_le_length scanLe]
        exact not_prefix_of_find_none later absent (by rw [List.length_drop]; omega)
    rwa [List.drop_drop, Nat.add_sub_cancel' forward] at skip
  rw [scanEq]
  refine ⟨⟨discarded + count, rep, tracks.ring, ?_, ?_, ?_, ?_, fun later => ?_,
    Or.inl finding⟩, fun _ => ?_, by simp⟩
  · simp only [noMessages, Ordered]
    exact Nat.le_refl _
  · simp only
    omega
  · simpa using tracks.capacity_le
  · left
    simp [noMessages, endOf]
  · rw [tracks.frames_eq later, dropEq later]
  · have here := dropEq []
    rw [List.append_nil] at here
    rw [here]
    exact frames_of_find_none absent

theorem outcome_findBegin (tracks : framer.Tracks stream consumed discarded)
    (notFull : framer.completed.size < framer.completed.capacity)
    (finding : framer.context.state = .findingBegin) :
    Outcome framer stream consumed
      (framer.findBegin (stream.drop discarded) (framer.scanAbs - discarded)) := by
  have discardedLe := tracks.discarded_le_scan
  simp only [findBegin, tracks.drop_scan]
  cases found : find fixFirstField (stream.drop framer.scanAbs) with
  | none =>
      by_cases noMessages : framer.completed.empty = true
      · have noWindows : framer.completed.toList = [] := by
          apply List.eq_nil_of_length_eq_zero
          simpa [Ring.empty] using noMessages
        simp only [noMessages, if_true]
        exact outcome_discardGarbage tracks finding noWindows found
      · simp only [noMessages, Bool.false_eq_true, if_false]
        exact outcome_wait tracks (frames_of_find_none found)
  | some distance =>
      have here := (find_eq_some found).1
      have inside := here.length_le
      rw [List.drop_drop] at here
      rw [length_fixFirstField, List.length_drop, List.length_drop] at inside
      have beginAbs : framer.buffer.readableRelToAbs (framer.scanAbs - discarded + distance) =
          framer.scanAbs + distance := by
        rw [tracks.rep.readableRelToAbs_eq]
        omega
      have passes (later : Bytes) : frames ((stream ++ later).drop framer.scanAbs) =
          frames ((stream ++ later).drop (framer.scanAbs + distance)) := by
        have skip := frames_drop ((stream ++ later).drop framer.scanAbs) distance fun position lt => by
            rw [List.drop_append_of_le_length tracks.scan_le]
            exact not_prefix_of_lt_find (find_append later found) lt
        rw [← skip, List.drop_drop]
      simp only [beginAbs]
      have moved := tracks.moveScan { framer.context with first := framer.scanAbs + distance }
        finding (Nat.le_add_right _ distance) (by omega) passes
      have outcome := outcome_readHeader moved notFull rfl here
      simp only at outcome
      rw [show framer.scanAbs + distance - discarded = framer.scanAbs - discarded + distance by
        omega] at outcome
      refine ⟨outcome.tracks, outcome.waits, fun goesOn => ?_⟩
      have := outcome.progress goesOn
      simp only at this
      omega

theorem outcome_parseBuffer (tracks : framer.Tracks stream consumed discarded)
    (notFull : framer.completed.size < framer.completed.capacity) :
    Outcome framer stream consumed framer.parseBuffer := by
  have discardedLe := tracks.discarded_le_scan
  have readableEq := tracks.rep.readable_eq
  have scanEq : max framer.scanAbs (framer.buffer.readableRelToAbs 0) = framer.scanAbs := by
    rw [tracks.rep.readableRelToAbs_eq]
    omega
  simp only [parseBuffer, scanEq, readableEq, tracks.rep.absToReadableRel_eq]
  split
  · next nothingNew =>
      refine outcome_wait tracks ?_
      rw [List.length_drop] at nothingNew
      rw [List.drop_eq_nil_of_le (by omega)]
      exact frames_of_find_none (by decide)
  · rcases tracks.context with finding | ⟨reading, body⟩
    · simp only [finding]
      exact outcome_findBegin tracks notFull finding
    · simp only [reading, readBody, tracks.rep.readableRelToAbs_eq]
      have total : discarded + (stream.drop discarded).length = stream.length := by
        have := tracks.rep.discarded_le
        rw [List.length_drop]
        omega
      rw [total]
      split
      · next short =>
          refine outcome_wait tracks ?_
          have := body.frames_drop tracks.scan_le []
          rw [List.append_nil] at this
          rw [this, if_pos short]
      · next arrived =>
          exact outcome_queueMessage tracks notFull body (by omega)

end Parse

section Operations

variable {framer : Framer} {stream : Bytes} {consumed : List Bytes} {discarded : ℕ}

/-- The loop of `append` ends with a full queue or with nothing left to find. -/
theorem parseLoop_spec {rounds : ℕ} (tracks : framer.Tracks stream consumed discarded)
    (enough : stream.length - framer.scanAbs < rounds) :
    ∃ discarded, (parseLoop rounds framer).Tracks stream consumed discarded ∧
      ((parseLoop rounds framer).completed.full = false →
        frames (stream.drop (parseLoop rounds framer).scanAbs) = []) := by
  induction rounds generalizing framer discarded with
  | zero => omega
  | succ rounds ih =>
      simp only [parseLoop]
      split
      · next full => exact ⟨discarded, tracks, by simp [full]⟩
      · next notFull =>
          have room : framer.completed.size < framer.completed.capacity := by
            have := tracks.ring.size_le
            simp only [Ring.full, beq_iff_eq] at notFull
            omega
          have outcome := outcome_parseBuffer tracks room
          obtain ⟨discarded', tracks'⟩ := outcome.tracks
          have scanLe := tracks'.scan_le
          cases step : framer.parseBuffer with
          | mk next result =>
              rw [step] at outcome tracks' scanLe
              cases result with
              | needMoreData => exact ⟨discarded', tracks', fun _ => outcome.waits rfl⟩
              | queuedMessage =>
                  have := outcome.progress (by simp)
                  exact ih tracks' (by simp only at this scanLe ⊢; omega)
              | progressNoMsg =>
                  have := outcome.progress (by simp)
                  exact ih tracks' (by simp only at this scanLe ⊢; omega)

theorem Tracks.append (tracks : framer.Tracks stream consumed discarded) (data : Bytes) :
    ∃ discarded, (framer.append data).Tracks (stream ++ data) consumed discarded ∧
      ((framer.append data).completed.full = false →
        frames ((stream ++ data).drop (framer.append data).scanAbs) = []) := by
  have pushed := tracks.push data
  apply parseLoop_spec pushed
  have discardedLe := tracks.discarded_le_scan
  have lenReadable := pushed.rep.length_readable
  have lenStream := pushed.rep.length_readable_eq
  simp only [LinearBuffer.readableSize] at lenReadable lenStream ⊢
  omega

/-- The window at the front of the queue lies in the readable part of the buffer. -/
theorem Tracks.front (tracks : framer.Tracks stream consumed discarded)
    (available : framer.hasMessage = true) :
    discarded ≤ framer.completed.front.first ∧
      framer.completed.front.first ≤ framer.completed.front.last ∧
      framer.completed.front.last ≤ stream.length ∧
      framer.completed.toList =
        framer.completed.front :: framer.completed.popFront.toList := by
  have nonempty : 0 < framer.completed.size := by simpa [hasMessage] using available
  have listEq := Ring.toList_eq_front_cons tracks.ring nonempty
  have ordered := tracks.ordered
  have scanLe := tracks.scan_le
  rw [listEq] at ordered
  obtain ⟨lowLe, firstLe, rest⟩ := ordered
  have := rest.le
  exact ⟨lowLe, firstLe, by omega, listEq⟩

/-- `get_message` returns the bytes of the stream in the front window. -/
theorem Tracks.getMessage_eq (tracks : framer.Tracks stream consumed discarded)
    (available : framer.hasMessage = true) :
    framer.getMessage = slice stream framer.completed.front := by
  obtain ⟨lowLe, firstLe, lastLe, -⟩ := tracks.front available
  simp only [getMessage, tracks.rep.absToReadableRel_eq, tracks.rep.readable_eq, slice]
  rw [List.drop_drop, Nat.add_sub_cancel' lowLe]
  congr 1
  omega

theorem Tracks.asserts (tracks : framer.Tracks stream consumed discarded)
    (available : framer.hasMessage = true) : framer.GetMessageAsserts := by
  obtain ⟨lowLe, firstLe, lastLe, -⟩ := tracks.front available
  have base := tracks.rep.base
  have len := tracks.rep.length_readable_eq
  simp only [GetMessageAsserts, tracks.rep.absToReadableRel_eq]
  omega

theorem Tracks.consume (tracks : framer.Tracks stream consumed discarded)
    (available : framer.hasMessage = true) :
    framer.consumeMessage.Tracks stream (consumed ++ [framer.getMessage])
      framer.completed.front.last := by
  obtain ⟨lowLe, firstLe, lastLe, listEq⟩ := tracks.front available
  have nonempty : 0 < framer.completed.size := by simpa [hasMessage] using available
  have ordered := tracks.ordered
  have settled := tracks.settled
  rw [listEq] at ordered settled
  refine ⟨?_, tracks.ring.popFront nonempty, ordered.2.2, tracks.scan_le, ?_, settled,
    fun later => ?_, ?_⟩
  · have := tracks.rep.discardPrefix (framer.completed.front.last - discarded) (by omega)
    rw [Nat.add_sub_cancel' (by omega)] at this
    simpa only [consumeMessage, tracks.rep.absToReadableRel_eq] using this
  · simpa [consumeMessage] using tracks.capacity_le
  · rw [tracks.frames_eq later, tracks.getMessage_eq available, listEq]
    simp [consumeMessage]
  · rcases tracks.context with finding | ⟨reading, body⟩
    · exact Or.inl finding
    · exact Or.inr ⟨reading, body.first_eq, body.starts, body.before_last, body.last_le,
        body.decision⟩

/-- The queued messages, as `get_message` would return them one after the other. -/
def queuedMessages (framer : Framer) : List Bytes :=
  framer.completed.toList.map fun window =>
    (framer.buffer.readable.drop (framer.buffer.absToReadableRel window.first)).take
      (framer.buffer.absToReadableRel window.last - framer.buffer.absToReadableRel window.first)

theorem Tracks.queuedMessages_eq (tracks : framer.Tracks stream consumed discarded) :
    framer.queuedMessages = framer.completed.toList.map (slice stream) := by
  apply List.map_congr_left
  intro window mem
  have lowLe := tracks.ordered.le_first mem
  simp only [tracks.rep.absToReadableRel_eq, tracks.rep.readable_eq, slice]
  rw [List.drop_drop, Nat.add_sub_cancel' lowLe]
  congr 1
  omega

theorem Tracks.queued_prefix (tracks : framer.Tracks stream consumed discarded) :
    consumed ++ framer.queuedMessages <+: frames stream := by
  have := tracks.frames_eq []
  rw [List.append_nil] at this
  rw [this, tracks.queuedMessages_eq]
  exact List.prefix_append _ _

theorem Tracks.queued_eq (tracks : framer.Tracks stream consumed discarded)
    (nothingLeft : frames (stream.drop framer.scanAbs) = []) :
    consumed ++ framer.queuedMessages = frames stream := by
  have := tracks.frames_eq []
  rw [List.append_nil] at this
  rw [this, tracks.queuedMessages_eq, nothingLeft, List.append_nil]

end Operations

section Run

/-- The calls a user of the framer makes. -/
inductive Op
  | append (data : Bytes)
  | getMessage
  | consumeMessage
  deriving DecidableEq, Repr

/-- A framer, and what went in and out of it since it was fresh. -/
structure History where
  framer : Framer
  appended : Bytes
  consumed : List Bytes
  /-- Whether the ring of completed messages was full when the last `append` returned. -/
  lastAppendFull : Bool

/-- A fresh framer. -/
def History.fresh : History := ⟨.new, [], [], false⟩

/-- The history after a call. -/
def History.step (history : History) : Op → History
  | .append data =>
      { history with
        framer := history.framer.append data
        appended := history.appended ++ data
        lastAppendFull := (history.framer.append data).completed.full }
  | .getMessage => history
  | .consumeMessage =>
      { history with
        framer := history.framer.consumeMessage
        consumed := history.consumed ++ [history.framer.getMessage] }

/-- The history after calls. -/
def History.run (history : History) (ops : List Op) : History := ops.foldl History.step history

/-- `consume_message` is only called when there is a message. -/
def History.Legal (history : History) : List Op → Prop
  | [] => True
  | op :: rest =>
      (op = .consumeMessage → history.framer.hasMessage = true) ∧ (history.step op).Legal rest

/-- The framer of a history tracks what was appended, and has nothing left to find unless its
ring was full after the last append. -/
def History.Sound (history : History) : Prop :=
  ∃ discarded, history.framer.Tracks history.appended history.consumed discarded ∧
    (history.lastAppendFull = false →
      frames (history.appended.drop history.framer.scanAbs) = [])

theorem History.sound_fresh : History.fresh.Sound :=
  ⟨0, tracks_new, fun _ => frames_of_find_none (by decide)⟩

theorem History.Sound.step {history : History} (sound : history.Sound) {op : Op}
    (legal : op = .consumeMessage → history.framer.hasMessage = true) :
    (history.step op).Sound := by
  obtain ⟨discarded, tracks, nothingLeft⟩ := sound
  cases op with
  | append data => exact tracks.append data
  | getMessage => exact ⟨discarded, tracks, nothingLeft⟩
  | consumeMessage => exact ⟨_, tracks.consume (legal rfl), nothingLeft⟩

theorem History.Sound.run {history : History} (sound : history.Sound) {ops : List Op}
    (legal : history.Legal ops) : (history.run ops).Sound := by
  induction ops generalizing history with
  | nil => exact sound
  | cons op rest ih => exact ih (sound.step legal.1) legal.2

/-- Nothing wraps in a run that appends fewer than 2^62 bytes. -/
theorem run_noWrap (ops : List Op) (legal : History.fresh.Legal ops)
    (short : (History.fresh.run ops).appended.length < 2 ^ 62) :
    (History.fresh.run ops).framer.NoWrap := by
  rcases History.sound_fresh.run legal with ⟨discarded, tracks, -⟩
  exact tracks.noWrap short

/-- Whatever the chunks and however late messages are consumed, the messages consumed and those
queued are the first frames of the stream, all of them unless the ring filled up. -/
theorem run_frames (ops : List Op) (legal : History.fresh.Legal ops) :
    let history := History.fresh.run ops
    history.consumed ++ history.framer.queuedMessages <+: frames history.appended ∧
      (history.framer.hasMessage = true → history.framer.GetMessageAsserts) ∧
      (history.lastAppendFull = false →
        history.consumed ++ history.framer.queuedMessages = frames history.appended) := by
  intro history
  obtain ⟨discarded, tracks, nothingLeft⟩ := History.sound_fresh.run legal
  exact ⟨tracks.queued_prefix, tracks.asserts, fun notFull => tracks.queued_eq (nothingLeft notFull)⟩

/-- Two messages after garbage, the second one cut inside its header. -/
def splitStream : List Op :=
  [.append (ascii "x8=FIX.4.4\x019=5\x0135=0\x0110=161\x018=FI"), .getMessage, .consumeMessage,
    .append (ascii "X.4.4\x019=5\x0135=0\x0110=161\x01")]

theorem run_frames_splitStream :
    History.fresh.Legal splitStream ∧
      ((History.fresh.run splitStream).consumed ++
          (History.fresh.run splitStream).framer.queuedMessages =
        frames (History.fresh.run splitStream).appended) := by
  have legal : History.fresh.Legal splitStream := by
    refine ⟨by simp, by simp, fun _ => ?_, by simp, trivial⟩
    decide +kernel
  exact ⟨legal, (run_frames splitStream legal).2.2 (by decide +kernel)⟩

end Run

end Framer

end FixEngine
