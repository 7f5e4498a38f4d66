import FixEngine.Core.Store
import FixEngine.Lib.Bytes

/-!
# Reading stored messages back

The blob of the store is the stored wires one after the other, and an entry of the index says where
its wire begins and how long it is. Both are 32-bit numbers, so this holds while the stored wires
are together shorter than 2^32 bytes, however often the buffer has grown.
-/

namespace FixEngine

namespace MsgIndex

theorem off_record (index : MsgIndex) (tag value : Bytes) (pos : ℕ) :
    (index.record tag value pos).off = index.off ∧ (index.record tag value pos).len = index.len := by
  rw [record]
  split_ifs <;> exact ⟨rfl, rfl⟩

end MsgIndex

/-- The scan does not touch the place of the wire. -/
theorem place_indexFields (rounds pos : ℕ) (rest : Bytes) (index : MsgIndex) :
    (indexFields rounds pos rest index).off = index.off ∧
      (indexFields rounds pos rest index).len = index.len := by
  induction rounds generalizing pos rest index with
  | zero => exact ⟨rfl, rfl⟩
  | succ rounds ih =>
      rw [indexFields]
      split
      · exact ⟨rfl, rfl⟩
      split
      · exact ⟨rfl, rfl⟩
      split
      · exact ⟨rfl, rfl⟩
      split
      · exact ⟨rfl, rfl⟩
      · exact ⟨(ih _ _ _).1.trans (index.off_record _ _ _).1,
          (ih _ _ _).2.trans (index.off_record _ _ _).2⟩

theorem place_createMessageIndex (wire : Bytes) (off : ℕ) :
    (createMessageIndex wire off).off = off % word32 ∧
      (createMessageIndex wire off).len = wire.length % word32 :=
  place_indexFields _ _ _ _

namespace MessageStore

variable {store : MessageStore} {wires : List Bytes} {wire : Bytes}

/-- The store holds these wires: each entry is made from its wire, at its place in the blob. -/
structure Holding (store : MessageStore) (wires : List Bytes) : Prop where
  blob_eq : store.blob.take store.blobBufferUsed = wires.flatten
  used_eq : store.blobBufferUsed = wires.flatten.length
  entry : ∀ index ∈ store.outboundIndex, ∃ front wire rest, wires = front ++ wire :: rest ∧
    index = createMessageIndex wire front.flatten.length

theorem holding_new : Holding MessageStore.new [] :=
  ⟨rfl, rfl, by simp [MessageStore.new]⟩

theorem Holding.length_le (holding : store.Holding wires) :
    store.blobBufferUsed ≤ store.blob.length := by
  have length := congrArg List.length holding.blob_eq
  rw [List.length_take, ← holding.used_eq] at length
  omega

/-- Growing the buffer keeps what is used of it. -/
theorem Holding.reserve (holding : store.Holding wires) (wire : Bytes) :
    (store.reserve wire).Holding wires := by
  rw [MessageStore.reserve]
  split
  · refine ⟨?_, holding.used_eq, holding.entry⟩
    simp only [growBlobBuffer, List.take_take, Nat.min_self]
    exact holding.blob_eq
  · exact holding

theorem Holding.storeOutboundMessage (holding : store.Holding wires) (wire : Bytes)
    (fits : wires.flatten.length + wire.length < word32) :
    (store.storeOutboundMessage wire).Holding (wires ++ [wire]) := by
  have roomy := holding.reserve wire
  have joined : (wires ++ [wire]).flatten = wires.flatten ++ wire := by simp
  have used : ((store.reserve wire).blobBufferUsed + wire.length) % word32 =
      (store.reserve wire).blobBufferUsed + wire.length := by
    rw [roomy.used_eq]
    exact Nat.mod_eq_of_lt fits
  refine ⟨?_, ?_, ?_⟩
  · simp only [MessageStore.storeOutboundMessage, used, joined]
    rw [take_memcpy wire roomy.length_le, roomy.blob_eq]
  · rw [joined, List.length_append, ← roomy.used_eq]
    exact used
  · intro index mem
    simp only [MessageStore.storeOutboundMessage, List.mem_append, List.mem_singleton] at mem
    rcases mem with earlier | new
    · rcases roomy.entry index earlier with ⟨front, stored, rest, wiresEq, indexEq⟩
      exact ⟨front, stored, rest ++ [wire], by rw [wiresEq]; simp, indexEq⟩
    · exact ⟨wires, wire, [], by simp, by rw [new, roomy.used_eq]⟩

/-- An entry of the index leads back to its wire. -/
theorem Holding.getMessageWire (holding : store.Holding wires)
    (fits : wires.flatten.length < word32) {index : MsgIndex} (mem : index ∈ store.outboundIndex) :
    ∃ wire ∈ wires, ∃ off, index = createMessageIndex wire off ∧
      store.getMessageWire index = wire := by
  rcases holding.entry index mem with ⟨front, wire, rest, wiresEq, indexEq⟩
  have place := place_createMessageIndex wire front.flatten.length
  have lengths : wires.flatten.length =
      front.flatten.length + (wire.length + rest.flatten.length) := by
    rw [wiresEq]
    simp
  have off : index.off = front.flatten.length := by
    rw [indexEq, place.1]
    exact Nat.mod_eq_of_lt (by omega)
  have len : index.len = wire.length := by
    rw [indexEq, place.2]
    exact Nat.mod_eq_of_lt (by omega)
  refine ⟨wire, by rw [wiresEq]; simp, _, indexEq, ?_⟩
  have inside : (store.blob.drop index.off).take index.len =
      ((store.blob.take store.blobBufferUsed).drop index.off).take index.len := by
    rw [List.drop_take, List.take_take, Nat.min_eq_left]
    rw [holding.used_eq, off, len]
    omega
  rw [MessageStore.getMessageWire, inside, holding.blob_eq, wiresEq, off, len]
  simp

end MessageStore

end FixEngine
