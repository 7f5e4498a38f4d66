import FixEngine.Session.Operations
import FixEngine.Session.Runs
import FixEngine.Validation.Required

/-!
# Answering a ResendRequest

`ResendStream` walks the range that was asked for, and every action it yields ends before the next
one begins. Its index is a 32-bit number less one: BeginSeqNo 0 (also the reading of a signed or
oversized text) is taken for the entry before the first, and a range up to the largest 32-bit
number never ends. Otherwise every access lies in the store.
-/

namespace FixEngine

namespace ResendStream

variable {stream : ResendStream}

/-- The stream stands on an entry of its range, and the range lies in the index. -/
structure Bounded (stream : ResendStream) : Prop where
  positive : 1 ≤ stream.currentIndex
  within : stream.currentIndex ≤ stream.endSeqNo
  covered : stream.endSeqNo ≤ stream.outboundIndex.length
  few : stream.outboundIndex.length < word32

/-- The stream at another position. -/
def moveTo (stream : ResendStream) (position : ℕ) : ResendStream :=
  { stream with currentIndex := position % word32 }

theorem index_sub_one {position : ℕ} (positive : 1 ≤ position) (small : position ≤ word32) :
    (position % word32 + (word32 - 1)) % word32 = position - 1 := by
  simp only [word32] at *
  omega

theorem Bounded.small (bounded : stream.Bounded) : stream.currentIndex < word32 := by
  have := bounded.within
  have := bounded.covered
  have := bounded.few
  omega

theorem Bounded.hasNext (bounded : stream.Bounded) : stream.hasNext = true := by
  simpa [ResendStream.hasNext] using bounded.within

theorem Bounded.entry_eq (bounded : stream.Bounded) :
    stream.entry = stream.outboundIndex[stream.currentIndex - 1]? := by
  have position := index_sub_one bounded.positive bounded.small.le
  rw [Nat.mod_eq_of_lt bounded.small] at position
  rw [entry, position]

theorem Bounded.entry_isSome (bounded : stream.Bounded) : stream.entry.isSome = true := by
  have := bounded.positive
  have := bounded.within
  have := bounded.covered
  rw [bounded.entry_eq, List.getElem?_eq_getElem (by omega)]
  rfl

theorem Bounded.moveTo (bounded : stream.Bounded) {position : ℕ} (positive : 1 ≤ position)
    (within : position ≤ stream.endSeqNo) : (stream.moveTo position).Bounded := by
  have small : position % word32 = position := by
    have := bounded.covered
    have := bounded.few
    exact Nat.mod_eq_of_lt (by omega)
  refine ⟨?_, ?_, bounded.covered, bounded.few⟩
  · rw [ResendStream.moveTo, small]
    exact positive
  · rw [ResendStream.moveTo, small]
    exact within

@[simp]
theorem moveTo_moveTo (position other : ℕ) : (stream.moveTo position).moveTo other = stream.moveTo other := rfl

/-- After the range there is no administrative message to skip, also where the position wraps. -/
theorem Bounded.atAdmin_end (bounded : stream.Bounded) :
    (stream.moveTo (stream.endSeqNo + 1)).atAdmin = false := by
  have covered := bounded.covered
  have few := bounded.few
  by_cases wraps : stream.endSeqNo + 1 = word32
  · have outside : (stream.moveTo (stream.endSeqNo + 1)).entry = none := by
      simp only [ResendStream.moveTo, entry, wraps, Nat.mod_self]
      apply List.getElem?_eq_none
      simp only [word32] at *
      omega
    simp [atAdmin, outside]
  · have ends : (stream.moveTo (stream.endSeqNo + 1)).hasNext = false := by
      have position : (stream.moveTo (stream.endSeqNo + 1)).currentIndex = stream.endSeqNo + 1 :=
        Nat.mod_eq_of_lt (by omega)
      have sameEnd : (stream.moveTo (stream.endSeqNo + 1)).endSeqNo = stream.endSeqNo := rfl
      rw [ResendStream.hasNext, decide_eq_false_iff_not]
      omega
    simp [atAdmin, ends]

theorem skipAdmin_of_not_admin (rounds : ℕ) (other : stream.atAdmin = false) :
    skipAdmin rounds stream = stream := by
  cases rounds with
  | zero => rfl
  | succ rounds => rw [skipAdmin, other]; rfl

theorem Bounded.here (bounded : stream.Bounded) : stream.moveTo stream.currentIndex = stream := by
  rw [ResendStream.moveTo, Nat.mod_eq_of_lt bounded.small]

/-- The scan ends at the first position that is not administrative, inside the range or right
after it. -/
theorem Bounded.skipAdmin_eq {rounds : ℕ} (bounded : stream.Bounded)
    (enough : stream.endSeqNo + 1 - stream.currentIndex ≤ rounds) :
    ∃ stop, stream.currentIndex ≤ stop ∧ stop ≤ stream.endSeqNo + 1 ∧
      skipAdmin rounds stream = stream.moveTo stop ∧
      (∀ position, stream.currentIndex ≤ position → position < stop →
        (stream.moveTo position).atAdmin = true) ∧
      (stream.moveTo stop).atAdmin = false := by
  have here := bounded.here
  induction rounds generalizing stream with
  | zero =>
      have := bounded.within
      omega
  | succ rounds ih =>
      have within := bounded.within
      by_cases admin : stream.atAdmin = true
      · rw [skipAdmin, if_pos admin]
        have advanced : stream.advance = stream.moveTo (stream.currentIndex + 1) := rfl
        rw [advanced]
        by_cases last : stream.currentIndex = stream.endSeqNo
        · refine ⟨stream.endSeqNo + 1, by omega, le_refl _, ?_, ?_, bounded.atAdmin_end⟩
          · rw [last, skipAdmin_of_not_admin rounds bounded.atAdmin_end]
          · intro position low high
            rw [show position = stream.currentIndex by omega, here]
            exact admin
        · have next := bounded.moveTo (Nat.le_add_left 1 stream.currentIndex) (by omega)
          have nextIndex : (stream.moveTo (stream.currentIndex + 1)).currentIndex =
              stream.currentIndex + 1 := Nat.mod_eq_of_lt (by
            have := bounded.covered
            have := bounded.few
            omega)
          have nextEnd : (stream.moveTo (stream.currentIndex + 1)).endSeqNo = stream.endSeqNo := rfl
          rcases ih next (by omega) next.here with ⟨stop, low, high, stopEq, skipped, stands⟩
          refine ⟨stop, by omega, high, stopEq, ?_, stands⟩
          intro position fromHere before
          by_cases first : position = stream.currentIndex
          · rw [first, here]
            exact admin
          · have later := skipped position (by omega) before
            rwa [moveTo_moveTo] at later
      · refine ⟨stream.currentIndex, le_refl _, by omega, ?_, fun _ _ _ => by omega, ?_⟩
        · rw [skipAdmin_of_not_admin _ (by simpa using admin)]
          exact here.symm
        · rw [here]
          simpa using admin

/-- An action starts where the stream stands, and the stream goes on right after its end: after
one message, or at the first position that is not administrative. -/
theorem Bounded.next_eq (bounded : stream.Bounded) :
    ∃ stop, stream.currentIndex < stop ∧ stop ≤ stream.endSeqNo + 1 ∧
      stream.next = (⟨stream.currentIndex, stop - 1, stream.atAdmin⟩, stream.moveTo stop) ∧
      (stream.atAdmin = false → stop = stream.currentIndex + 1) ∧
      (stream.atAdmin = true →
        (∀ position, stream.currentIndex ≤ position → position < stop →
          (stream.moveTo position).atAdmin = true) ∧
        (stream.moveTo stop).atAdmin = false) := by
  have within := bounded.within
  have positive := bounded.positive
  rw [next]
  cases admin : stream.atAdmin with
  | true =>
      rcases @Bounded.skipAdmin_eq stream (stream.endSeqNo + 2 - stream.currentIndex) bounded
        (by omega) with ⟨stop, low, high, stopEq, skipped, stands⟩
      have small : stop ≤ word32 := by
        have := bounded.covered
        have := bounded.few
        omega
      have moves : stop ≠ stream.currentIndex := by
        intro same
        rw [same, bounded.here, admin] at stands
        cases stands
      refine ⟨stop, by omega, high, ?_, by simp, fun _ => ⟨skipped, stands⟩⟩
      simp only [stopEq, ResendStream.moveTo, index_sub_one (positive.trans low) small, if_true]
  | false =>
      refine ⟨stream.currentIndex + 1, by omega, by omega, ?_, fun _ => rfl, by simp⟩
      simp only [Bool.false_eq_true, if_false, Nat.add_sub_cancel]
      rfl

end ResendStream

/-- The faults of the answering loop in a trace: an access outside the store, or no end. -/
def resendFaults (trace : List Event) : List Fault :=
  trace.filterMap fun event =>
    match event with
    | .fault .storeIndex => some .storeIndex
    | .fault .endless => some .endless
    | _ => none

@[simp]
theorem resendFaults_append (front rest : List Event) :
    resendFaults (front ++ rest) = resendFaults front ++ resendFaults rest := by
  simp [resendFaults]

namespace Session

section Faultless

variable {session : Session} {type data : Bytes} {built : Bytes × MessageFactory}

/-- Sending again neither faults nor changes the store. -/
theorem resendFaults_resend (session : Session) (type : Bytes) (built : Bytes × MessageFactory) :
    resendFaults (session.sendBuilt type built true).trace = resendFaults session.trace ∧
      (session.sendBuilt type built true).store = session.store := by
  refine ⟨?_, session.store_sendBuilt_resend type built⟩
  rw [sendBuilt]
  cases running : (session.withFactory built.2).stopped with
  | true =>
      rw [sendMessage, if_pos running]
      rfl
  | false =>
      rcases trace_sendMessage _ running type built.1 true with ⟨written, traceEq, faults⟩
      have none : resendFaults written = [] := by
        rw [resendFaults, List.filterMap_eq_nil_iff]
        intro e mem
        rw [faults e mem]
      rw [traceEq, resendFaults_append, resendFaults_append, none]
      simp [storeEvents, resendFaults, withFactory]

/-- What the loop does to the session in one round. -/
def answerOne (session : Session) (seqNum stop : ℕ) (isAdmin : Bool) : Session :=
  if isAdmin then session.sendSequenceResetGapFill seqNum (stop % word32)
  else session.resendStored seqNum

theorem answerResend_bounded {stream : ResendStream} (bounded : stream.Bounded) (rounds : ℕ)
    (session : Session) :
    ∃ stop, stream.currentIndex < stop ∧ stop ≤ stream.endSeqNo + 1 ∧
      answerResend (rounds + 1) stream session = answerResend rounds (stream.moveTo stop)
        (session.answerOne stream.currentIndex stop stream.atAdmin) := by
  rcases bounded.next_eq with ⟨stop, low, high, nextEq, -⟩
  have present : stream.entry.isNone = false := by
    have := bounded.entry_isSome
    cases found : stream.entry with
    | none => simp [found] at this
    | some index => rfl
  have stopEq : stop - 1 + 1 = stop := by omega
  refine ⟨stop, low, high, ?_⟩
  simp only [answerResend, bounded.hasNext, if_true, present, Bool.false_eq_true, if_false, nextEq,
    stopEq]
  rfl

theorem resendFaults_answerOne {stream : ResendStream} (bounded : stream.Bounded)
    (same : stream.outboundIndex = session.store.outboundIndex) (stop : ℕ) (isAdmin : Bool) :
    resendFaults (session.answerOne stream.currentIndex stop isAdmin).trace =
        resendFaults session.trace ∧
      (session.answerOne stream.currentIndex stop isAdmin).store = session.store := by
  rw [answerOne]
  split
  · exact session.resendFaults_resend _ _
  · have found : ∃ index, session.store.getMessageIndex stream.currentIndex = some index := by
      rcases Option.isSome_iff_exists.mp bounded.entry_isSome with ⟨index, entryEq⟩
      refine ⟨index, ?_⟩
      have := bounded.positive
      rw [MessageStore.getMessageIndex, if_neg (by omega), ← same, ← bounded.entry_eq, entryEq]
    rcases found with ⟨index, indexEq⟩
    simp only [resendStored, indexEq]
    exact session.resendFaults_resend _ _

/-- A range that ends before the largest number is answered without fault. -/
theorem resendFaults_answerResend {stream : ResendStream} {rounds : ℕ}
    (positive : 1 ≤ stream.currentIndex) (high : stream.currentIndex ≤ stream.endSeqNo + 1)
    (covered : stream.endSeqNo ≤ stream.outboundIndex.length)
    (few : stream.outboundIndex.length < word32) (ends : stream.endSeqNo + 1 < word32)
    (same : stream.outboundIndex = session.store.outboundIndex)
    (enough : stream.endSeqNo + 1 - stream.currentIndex ≤ rounds) :
    resendFaults (answerResend rounds stream session).trace = resendFaults session.trace := by
  induction rounds generalizing stream session with
  | zero =>
      have done : stream.hasNext = false := by
        rw [ResendStream.hasNext, decide_eq_false_iff_not]
        omega
      rw [answerResend, done]
      rfl
  | succ rounds ih =>
      by_cases within : stream.currentIndex ≤ stream.endSeqNo
      · have bounded : stream.Bounded := ⟨positive, within, covered, few⟩
        rcases answerResend_bounded bounded rounds session with ⟨stop, low, stopLe, answerEq⟩
        have answered := resendFaults_answerOne bounded same stop stream.atAdmin
        have position : (stream.moveTo stop).currentIndex = stop := Nat.mod_eq_of_lt (by omega)
        have sameEnd : (stream.moveTo stop).endSeqNo = stream.endSeqNo := rfl
        have later := @ih (session.answerOne stream.currentIndex stop stream.atAdmin)
          (stream.moveTo stop) (by omega) (by omega) covered few ends
          (by rw [answered.2]; exact same) (by omega)
        rw [answerEq, later]
        exact answered.1
      · have done : stream.hasNext = false := by
          rw [ResendStream.hasNext, decide_eq_false_iff_not]
          exact within
        simp only [answerResend, done, Bool.false_eq_true, if_false]

theorem resendFaults_keeps {before after : Session} (keeps : Keeps before after) :
    ∃ more, resendFaults after.trace = resendFaults before.trace ++ more := by
  rcases keeps.trace_eq with ⟨outputs, traceEq, -⟩
  exact ⟨resendFaults outputs, by rw [traceEq, resendFaults_append]⟩

/-- An access outside the store is a fault that stays in the trace. -/
theorem resendFaults_outside {stream : ResendStream} (rounds : ℕ) (session : Session)
    (more : stream.hasNext = true) (outside : stream.entry = none) :
    (resendFaults session.trace).length <
      (resendFaults (answerResend (rounds + 1) stream session).trace).length := by
  have grown : ∃ rest, resendFaults (answerResend (rounds + 1) stream session).trace =
      resendFaults (session.recordFault .storeIndex).trace ++ rest := by
    apply resendFaults_keeps
    simp only [answerResend, more, if_true, outside, Option.isNone_none]
    refine Keeps.trans ?_ (keeps_answerResend _ _ _)
    split
    · exact keeps_sendSequenceResetGapFill _ _ _
    · exact keeps_resendStored _ _
  rcases grown with ⟨rest, grownEq⟩
  rw [grownEq]
  simp [recordFault, record, resendFaults]

/-- A range up to the largest number is not answered without fault: the position wraps. -/
theorem resendFaults_wraps {stream : ResendStream} {rounds : ℕ} (bounded : stream.Bounded)
    (wraps : stream.endSeqNo + 1 = word32)
    (same : stream.outboundIndex = session.store.outboundIndex)
    (enough : stream.endSeqNo + 2 - stream.currentIndex ≤ rounds) :
    (resendFaults session.trace).length <
      (resendFaults (answerResend rounds stream session).trace).length := by
  induction rounds generalizing stream session with
  | zero =>
      have := bounded.within
      omega
  | succ rounds ih =>
      have within := bounded.within
      rcases answerResend_bounded bounded rounds session with ⟨stop, low, high, answerEq⟩
      have answered := resendFaults_answerOne bounded same stop stream.atAdmin
      rw [answerEq, ← answered.1]
      have sameEnd : (stream.moveTo stop).endSeqNo = stream.endSeqNo := rfl
      by_cases inside : stop ≤ stream.endSeqNo
      · have position : (stream.moveTo stop).currentIndex = stop := Nat.mod_eq_of_lt (by omega)
        exact ih (bounded.moveTo (by omega) inside) wraps (by rw [answered.2]; exact same)
          (by omega)
      · have stopEq : stop = word32 := by omega
        have few := bounded.few
        have covered := bounded.covered
        rcases rounds with _ | rounds
        · omega
        · apply resendFaults_outside
          · simp [ResendStream.hasNext, ResendStream.moveTo, stopEq]
          · simp only [ResendStream.entry, ResendStream.moveTo, stopEq, Nat.mod_self]
            apply List.getElem?_eq_none
            simp only [word32] at *
            omega

end Faultless

section Requests

variable {session : Session} {message : Message}

/-- A number as the handler reads it: an unreadable one is zero. -/
def requestedNumber (message : Message) (tag : ℕ) : ℕ :=
  ((message.firstValue? tag).bind fun text => (fromChars 32 text).value).getD 0

/-- BeginSeqNo. -/
def requestedFrom (message : Message) : ℕ := requestedNumber message 7

/-- EndSeqNo. -/
def requestedTo (message : Message) : ℕ := requestedNumber message 16

/-- Entry n of the store holds message n, and its number is a 32-bit one. -/
structure StoreNumbered (session : Session) : Prop where
  nextOut_eq : session.seqProvider.nextOut = session.store.outboundIndex.length + 1
  seq_eq : ∀ n index, session.store.getMessageIndex n = some index →
    index.seq = n ∧ index.seq < word32

theorem StoreNumbered.few (numbered : session.StoreNumbered) :
    session.store.outboundIndex.length < word32 := by
  by_contra many
  have word : word32 ≤ session.store.outboundIndex.length := by omega
  have lt : word32 - 1 < session.store.outboundIndex.length := by
    simp only [word32] at *
    omega
  have found : session.store.getMessageIndex word32 = some session.store.outboundIndex[word32 - 1] := by
    rw [MessageStore.getMessageIndex, if_neg (by decide)]
    exact List.getElem?_eq_getElem lt
  have := numbered.seq_eq _ _ found
  omega

theorem requestedNumber_lt (message : Message) (tag : ℕ) :
    requestedNumber message tag < word32 := by
  rw [requestedNumber]
  cases read : ((message.firstValue? tag).bind fun text => (fromChars 32 text).value) with
  | none => decide
  | some value =>
      rcases Option.bind_eq_some_iff.mp read with ⟨text, -, valueEq⟩
      exact fromChars_lt valueEq

/-- The end of the range is a stored number. -/
theorem resendEnd_le (numbered : session.StoreNumbered) (endSeqNo : ℕ) :
    session.resendEnd endSeqNo ≤ session.store.outboundIndex.length := by
  have few := numbered.few
  rw [resendEnd, numbered.nextOut_eq]
  split
  · simp only [word32] at *
    omega
  · next inside =>
      simp only [Bool.or_eq_true, decide_eq_true_eq, not_or] at inside
      omega

theorem resendEnd_wraps_iff (numbered : session.StoreNumbered) {endSeqNo : ℕ}
    (small : endSeqNo < word32) :
    session.resendEnd endSeqNo + 1 = word32 ↔
      session.seqProvider.nextOut = word32 ∧ (endSeqNo = 0 ∨ endSeqNo + 1 = word32) := by
  have few := numbered.few
  rw [resendEnd, numbered.nextOut_eq]
  split
  · next last =>
      simp only [Bool.or_eq_true, decide_eq_true_eq] at last
      simp only [word32] at *
      omega
  · next inside =>
      simp only [Bool.or_eq_true, decide_eq_true_eq, not_or] at inside
      omega

/-- A valid ResendRequest has both numbers. -/
theorem Accepts.requested (accepts : session.Accepts message (ascii "2")) :
    ∃ beginText endText, message.firstValue? 7 = some beginText ∧
      message.firstValue? 16 = some endText := by
  have registered : ∃ schema, Registry.get (ascii "2") = some schema ∧
      schema.body = Schema.resendRequest := ⟨⟨ascii "2", Schema.resendRequest⟩, rfl, rfl⟩
  rcases registered with ⟨schema, found, bodyEq⟩
  have required := Validator.found_of_validateMessage accepts.noErrors accepts.type_eq found
    (by rw [bodyEq]; decide)
  rw [bodyEq] at required
  rcases required (.plain 7 .int .required) (by simp [Schema.resendRequest]) rfl with
    ⟨beginText, foundBegin⟩
  rcases required (.plain 16 .int .required) (by simp [Schema.resendRequest]) rfl with
    ⟨endText, foundEnd⟩
  exact ⟨beginText, endText, foundBegin, foundEnd⟩

theorem handleResendRequest_eq (accepts : session.Accepts message (ascii "2")) :
    session.handleResendRequest (makeValidMessageView message) =
      answerResend (session.resendEnd (requestedTo message) + 2 - requestedFrom message)
        (session.store.getResendStream (requestedFrom message)
          (session.resendEnd (requestedTo message))) session := by
  rcases accepts.requested with ⟨beginText, endText, foundBegin, foundEnd⟩
  simp only [handleResendRequest, makeValidMessageView, foundBegin, foundEnd, requestedFrom,
    requestedTo, requestedNumber, Option.bind_some]

/-- A valid ResendRequest is answered without an access outside the store, and the answer ends,
exactly when its BeginSeqNo is read as a positive number and the range does not end with the
largest 32-bit number. -/
theorem resend_in_bounds_iff (session : Session) (message : Message)
    (numbered : session.StoreNumbered) (accepts : session.Accepts message (ascii "2")) :
    resendFaults (session.handleResendRequest (makeValidMessageView message)).trace =
        resendFaults session.trace ↔
      1 ≤ requestedFrom message ∧
        ¬(session.seqProvider.nextOut = word32 ∧
          (requestedTo message = 0 ∨ requestedTo message + 1 = word32)) := by
  have few := numbered.few
  have covered := session.resendEnd_le numbered (requestedTo message)
  have wrapsIff : session.resendEnd (requestedTo message) + 1 = word32 ↔
      session.seqProvider.nextOut = word32 ∧
        (requestedTo message = 0 ∨ requestedTo message + 1 = word32) :=
    session.resendEnd_wraps_iff numbered (requestedNumber_lt message 16)
  rw [handleResendRequest_eq accepts, ← wrapsIff]
  constructor
  · intro faultless
    by_contra condition
    have grows : (resendFaults session.trace).length < (resendFaults (answerResend
        (session.resendEnd (requestedTo message) + 2 - requestedFrom message)
        (session.store.getResendStream (requestedFrom message)
          (session.resendEnd (requestedTo message))) session).trace).length := by
      by_cases zero : requestedFrom message = 0
      · rw [zero]
        apply resendFaults_outside (session.resendEnd (requestedTo message) + 1)
        · simp [ResendStream.hasNext, MessageStore.getResendStream]
        · simp only [ResendStream.entry, MessageStore.getResendStream]
          apply List.getElem?_eq_none
          simp only [word32] at *
          omega
      · have positive : 1 ≤ requestedFrom message := by omega
        have wraps : session.resendEnd (requestedTo message) + 1 = word32 := by
          by_contra ends
          exact condition ⟨positive, ends⟩
        have small : requestedFrom message < word32 := requestedNumber_lt message 7
        have bounded : (session.store.getResendStream (requestedFrom message)
            (session.resendEnd (requestedTo message))).Bounded := by
          refine ⟨positive, ?_, covered, few⟩
          exact show requestedFrom message ≤ session.resendEnd (requestedTo message) by omega
        exact resendFaults_wraps bounded wraps rfl (Nat.le_refl _)
    rw [faultless] at grows
    omega
  · rintro ⟨positive, ends⟩
    by_cases within : requestedFrom message ≤ session.resendEnd (requestedTo message) + 1
    · exact resendFaults_answerResend positive within covered few
        (by simp only [MessageStore.getResendStream]; omega) rfl
        (by simp only [MessageStore.getResendStream]; omega)
    · have done : (session.store.getResendStream (requestedFrom message)
          (session.resendEnd (requestedTo message))).hasNext = false := by
        have after : ¬requestedFrom message ≤ session.resendEnd (requestedTo message) := by omega
        exact decide_eq_false after
      cases session.resendEnd (requestedTo message) + 2 - requestedFrom message with
      | zero => rw [answerResend, done]; rfl
      | succ rounds => simp only [answerResend, done, Bool.false_eq_true, if_false]

end Requests

section Example

/-- A ResendRequest of the peer. -/
def peerResendRequest (beginSeqNo endSeqNo : Bytes) : Message :=
  (Parser.parse (peerWire (ascii "2") 2 [⟨7, beginSeqNo⟩, ⟨16, endSeqNo⟩])).1

theorem storeNumbered_of_range {session : Session}
    (nextOut_eq : session.seqProvider.nextOut = session.store.outboundIndex.length + 1)
    (few : session.store.outboundIndex.length + 1 < word32)
    (numbers : session.store.outboundIndex.map MsgIndex.seq =
      List.range' 1 session.store.outboundIndex.length) : session.StoreNumbered := by
  refine ⟨nextOut_eq, ?_⟩
  intro n index found
  rw [MessageStore.getMessageIndex] at found
  split at found
  · cases found
  · next positive =>
      rcases List.getElem?_eq_some_iff.mp found with ⟨lt, -⟩
      have seqEq := congrArg (fun list : List ℕ => list[n - 1]?) numbers
      simp only [List.getElem?_map, found, Option.map_some, List.getElem?_range' lt,
        Option.some.injEq] at seqEq
      constructor <;> omega

theorem storeNumbered_answeredLogon : (initiator.run answeredLogon).StoreNumbered :=
  storeNumbered_of_range (by decide +kernel) (by decide +kernel) (by decide +kernel)

/-- After the Logon come a Heartbeat, a message of the application and another Heartbeat. -/
def busyInitiator : Session :=
  initiator.run (answeredLogon ++
    [.heartbeatTimer, .sendFromApp [⟨58, ascii "x"⟩] (ascii "D"), .heartbeatTimer])

theorem storeNumbered_busyInitiator : busyInitiator.StoreNumbered :=
  storeNumbered_of_range (by decide +kernel) (by decide +kernel) (by decide +kernel)

/-- Everything after the Logon is asked for: the Heartbeats are filled, the message is sent again. -/
theorem resend_in_bounds_busy :
    resendFaults (busyInitiator.handleResendRequest
        (makeValidMessageView (peerResendRequest (ascii "2") (ascii "0")))).trace =
      resendFaults busyInitiator.trace :=
  (resend_in_bounds_iff busyInitiator (peerResendRequest (ascii "2") (ascii "0"))
    storeNumbered_busyInitiator
    ⟨by decide +kernel, by decide +kernel, by decide +kernel, by decide +kernel⟩).mpr
    ⟨by decide +kernel, fun full => absurd full.1 (by decide +kernel)⟩

/-- Zero, a signed number and one of more than 32 bits pass the validator as BeginSeqNo, and the
answer starts before the first entry. -/
theorem resend_out_of_bounds :
    (initiator.run answeredLogon).StoreNumbered ∧
      ∀ beginSeqNo ∈ [ascii "0", ascii "-5", ascii "4294967296"],
        let request := peerResendRequest beginSeqNo (ascii "0")
        ((initiator.run answeredLogon).results request).severity ≠ .fatal ∧
          ((initiator.run answeredLogon).results request).errors = [] ∧
          (makeValidMessageView request).headerCache.msgType = some (ascii "2") ∧
          .fault .storeIndex ∉ (initiator.run answeredLogon).trace ∧
          .fault .storeIndex ∈ ((initiator.run answeredLogon).handleResendRequest
            (makeValidMessageView request)).trace :=
  ⟨storeNumbered_answeredLogon, by decide +kernel⟩

end Example

end Session

end FixEngine
