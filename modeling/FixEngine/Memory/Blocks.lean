import FixEngine.Core.Arena
import FixEngine.Lib.FreeList
import FixEngine.Lib.Ownership
import FixEngine.Lib.Runs

/-!
# Blocks are never shared or lost

Whatever a program does with its handles, each block is owned by one handle or is on the list of
free blocks. The links of that list lie in the blocks themselves, but only in those that nobody
owns, so writing through a handle does not reach them. Moving hands a block over, and destroying
or overwriting a handle puts its block in front of the list.
-/

namespace FixEngine

namespace Arena

section Links

variable {arena : Arena} {idx other next : ℕ}

theorem blockPointer_injective (same : blockPointer idx = blockPointer other) : idx = other := by
  simp only [blockPointer, blockSize] at same
  omega

/-- Two blocks do not overlap. -/
theorem blockPointer_apart (lt : idx < other) : blockPointer idx + blockSize ≤ blockPointer other := by
  simp only [blockPointer, blockSize]
  omega

/-- A link is not changed by a store outside its four bytes. -/
theorem readNext_store {offset : ℕ} {bytes : Bytes}
    (apart : offset + bytes.length ≤ blockPointer idx ∨ blockPointer idx + 4 ≤ offset) :
    (arena.store offset bytes).readNext idx = arena.readNext idx := by
  have outside : ∀ place < 4, (arena.store offset bytes).memory (blockPointer idx + place) =
      arena.memory (blockPointer idx + place) := by
    intro place below
    apply if_neg
    omega
  have first := outside 0 (by omega)
  rw [Nat.add_zero] at first
  simp only [readNext, first, outside 1 (by omega), outside 2 (by omega), outside 3 (by omega)]

theorem toNat_byteOf (number place : ℕ) :
    (byteOf number place).toNat = number / 256 ^ place % 256 := by
  rw [byteOf, UInt8.toNat_ofNat']

theorem readNext_writeNext_self (small : next < word32) :
    (arena.writeNext idx next).readNext idx = next := by
  have stored : ∀ place < 4, (arena.writeNext idx next).memory (blockPointer idx + place) =
      byteOf next place := by
    intro place below
    simp [writeNext, store, below]
  have first := stored 0 (by omega)
  rw [Nat.add_zero] at first
  simp only [readNext, first, stored 1 (by omega), stored 2 (by omega), stored 3 (by omega),
    toNat_byteOf]
  simp only [word32] at small
  omega

theorem readNext_writeNext_of_ne (differs : other ≠ idx) :
    (arena.writeNext idx next).readNext other = arena.readNext other := by
  apply readNext_store
  simp only [List.length_map, List.length_range]
  rcases Nat.lt_or_gt_of_ne differs with below | above
  · right
    have := blockPointer_apart below
    simp only [blockSize] at this
    omega
  · left
    have := blockPointer_apart above
    simp only [blockSize] at this
    omega

end Links

section Constructor

variable {arena : Arena}

theorem readNext_linkBlocks {count idx : ℕ} (few : count ≤ blockCount) (inside : idx < count) :
    (arena.linkBlocks count).readNext idx = idx + 1 := by
  induction count with
  | zero => omega
  | succ count ih =>
      rw [linkBlocks, List.range_succ, List.foldl_append]
      by_cases last : idx = count
      · rw [last]
        apply readNext_writeNext_self
        simp only [blockCount, word32] at *
        omega
      · exact (readNext_writeNext_of_ne last).trans (ih (by omega) (by omega))

/-- The blocks from one on, up to the last one, which is linked to the sentinel. -/
theorem chain_range' {count idx : ℕ} (ends : idx + count = blockCount)
    (inside : ∀ block < blockCount - 1, arena.readNext block = block + 1)
    (last : arena.readNext (blockCount - 1) = sentinel) (nonempty : 0 < count) :
    FreeList.Chain arena.readNext sentinel idx (List.range' idx count) := by
  induction count generalizing idx with
  | zero => omega
  | succ count ih =>
      have notSentinel : idx ≠ sentinel := by
        simp only [blockCount, sentinel, word32] at *
        omega
      refine ⟨rfl, notSentinel, ?_⟩
      rcases Nat.eq_zero_or_pos count with none | some
      · have isLast : idx = blockCount - 1 := by omega
        rw [isLast, last, none]
        rfl
      · rw [inside idx (by omega)]
        exact ih (by omega) some

theorem chain_new (garbage : ℕ → UInt8) :
    FreeList.Chain (new garbage).readNext sentinel (new garbage).freeIndex
      (List.range' 0 blockCount) := by
  have start : (new garbage).freeIndex = 0 := rfl
  rw [start]
  apply chain_range'
  · rfl
  · intro block below
    rw [new, readNext_writeNext_of_ne (Nat.ne_of_lt below)]
    exact readNext_linkBlocks (Nat.le_refl _) (by omega)
  · rw [new]
    exact readNext_writeNext_self (by decide)
  · decide

end Constructor

end Arena

/-- What the fields of a handle say about each other. -/
def ArenaHandle.Sound (handle : ArenaHandle) : Prop :=
  match handle.sourceType with
  | .arena =>
      handle.arena = true ∧ handle.index < Arena.blockCount ∧
        handle.dataPtr = some (.arena (Arena.blockPointer handle.index)) ∧
        handle.cap = Arena.blockSize
  | .heap => handle.arena = false ∧ ∃ block, handle.dataPtr = some (.heap block)
  | .none => handle.arena = false ∧ handle.dataPtr = none ∧ handle.cap = 0

theorem ArenaHandle.sound_movedFrom : ArenaHandle.movedFrom.Sound := ⟨rfl, rfl, rfl⟩

namespace ArenaProgram

open Ownership (Exclusive InUse)

/-- What the variable of a name owns. -/
def owned (program : ArenaProgram) (name : ℕ) : Option Pointer :=
  (program.handles name).bind ArenaHandle.dataPtr

/-- A variable holds a live handle of the block. -/
def HasLive (program : ArenaProgram) (block : ℕ) : Prop :=
  ∃ name, ∃ handle ∈ program.handles name, handle.sourceType = .arena ∧ handle.index = block

/-- Every resource has one owner, and what nobody owns is free. -/
structure Sound (program : ArenaProgram) : Prop where
  handle : ∀ name, ∀ handle ∈ program.handles name, handle.Sound
  exclusive : Exclusive program.owned
  free : ∃ free, FreeList.Chain program.arena.readNext Arena.sentinel program.arena.freeIndex free ∧
    ∀ block, block ∈ free ↔
      block < Arena.blockCount ∧ ¬InUse program.owned (.arena (Arena.blockPointer block))
  heap : ∀ block, block ∈ program.arena.heap.live ↔ InUse program.owned (.heap block)
  heap_nodup : program.arena.heap.live.Nodup
  heap_lt : ∀ block ∈ program.arena.heap.live, block < program.arena.heap.next

theorem sound_new (garbage : ℕ → UInt8) : (new garbage).Sound where
  handle := by
    intro name handle mem
    cases mem
  exclusive := Ownership.exclusive_none
  free := by
    refine ⟨List.range' 0 Arena.blockCount, Arena.chain_new garbage, ?_⟩
    intro block
    constructor
    · intro mem
      refine ⟨by simpa using mem, Ownership.not_inUse_none⟩
    · rintro ⟨inside, _⟩
      simpa using inside
  heap := by
    intro block
    constructor
    · intro mem
      cases mem
    · intro used
      exact absurd used Ownership.not_inUse_none
  heap_nodup := List.nodup_nil
  heap_lt := by
    intro block mem
    cases mem

section Step

variable {program : ArenaProgram} {name source : ℕ} {handle : ArenaHandle}

@[simp]
theorem owned_bind : (program.bind name handle).owned =
    Function.update program.owned name handle.dataPtr := by
  funext other
  by_cases same : other = name
  · subst same
    simp [owned, bind]
  · simp [owned, bind, same]

/-- A variable that goes out of scope owns nothing. -/
theorem owned_unbind (program : ArenaProgram) (name : ℕ) (arena : Arena) :
    (⟨arena, Function.update program.handles name none⟩ : ArenaProgram).owned =
      Function.update program.owned name none := by
  funext other
  by_cases same : other = name
  · subst same
    simp [owned]
  · simp [owned, same]

theorem owned_eq (mem : handle ∈ program.handles name) : program.owned name = handle.dataPtr := by
  rw [owned, Option.mem_def.mp mem, Option.bind_some]

theorem sound_update {handles : ℕ → Option ArenaHandle} {replaced : Option ArenaHandle}
    (sound : ∀ name, ∀ handle ∈ handles name, handle.Sound)
    (fits : ∀ handle ∈ replaced, handle.Sound) (name : ℕ) :
    ∀ place, ∀ handle ∈ Function.update handles name replaced place, handle.Sound := by
  intro place handle mem
  by_cases same : place = name
  · rw [same, Function.update_self] at mem
    exact fits handle mem
  · rw [Function.update_of_ne same] at mem
    exact sound place handle mem

/-- A sound handle that points into the arena points to the beginning of its block. -/
theorem sourceType_of_dataPtr {block : ℕ} (sound : handle.Sound)
    (points : handle.dataPtr = some (.arena (Arena.blockPointer block))) :
    handle.sourceType = .arena ∧ handle.index = block := by
  cases kind : handle.sourceType with
  | arena =>
      simp only [ArenaHandle.Sound, kind] at sound
      rcases sound with ⟨_, _, pointer, _⟩
      rw [pointer, Option.some.injEq, Pointer.arena.injEq] at points
      exact ⟨rfl, Arena.blockPointer_injective points⟩
  | heap =>
      simp only [ArenaHandle.Sound, kind] at sound
      rcases sound with ⟨_, block', pointer⟩
      rw [pointer] at points
      cases points
  | none =>
      simp only [ArenaHandle.Sound, kind] at sound
      rw [sound.2.1] at points
      cases points

theorem dataPtr_of_sourceType (sound : handle.Sound) (kind : handle.sourceType = .arena) :
    handle.dataPtr = some (.arena (Arena.blockPointer handle.index)) := by
  simp only [ArenaHandle.Sound, kind] at sound
  exact sound.2.2.1

/-- Moving a handle into a new variable hands its resource over. -/
theorem Sound.moveConstruct {other : ArenaHandle} (sound : program.Sound)
    (unbound : program.handles name = none) (mem : other ∈ program.handles source) :
    ((program.bind name other).bind source .movedFrom).Sound := by
  have differs : name ≠ source := by
    rintro rfl
    rw [unbound] at mem
    cases mem
  have owner := owned_eq mem
  have nothing : program.owned name = none := by rw [owned, unbound, Option.bind_none]
  have moved : ((program.bind name other).bind source .movedFrom).owned =
      Ownership.transfer program.owned name source := by
    rw [owned_bind, owned_bind, Ownership.transfer, owner]
    rfl
  have otherSound := sound.handle source other mem
  have inUse : ∀ resource, InUse ((program.bind name other).bind source .movedFrom).owned resource ↔
      InUse program.owned resource := by
    intro resource
    rw [moved]
    exact Ownership.inUse_transfer sound.exclusive differs nothing
  refine ⟨?_, ?_, ?_, ?_, sound.heap_nodup, sound.heap_lt⟩
  · apply sound_update
    · apply sound_update sound.handle
      intro bound isBound
      rw [Option.mem_some_iff] at isBound
      exact isBound ▸ otherSound
    · intro bound isBound
      rw [Option.mem_some_iff] at isBound
      exact isBound ▸ ArenaHandle.sound_movedFrom
  · rw [moved]
    exact sound.exclusive.transfer differs
  · rcases sound.free with ⟨free, chain, memFree⟩
    refine ⟨free, chain, ?_⟩
    intro block
    rw [inUse]
    exact memFree block
  · intro block
    rw [inUse]
    exact sound.heap block

theorem Sound.allocateHeap (sound : program.Sound) (unbound : program.handles name = none)
    (size : ℕ) :
    (({ program with arena := (program.arena.allocateHeap size).2 } : ArenaProgram).bind name
      (program.arena.allocateHeap size).1).Sound := by
  have nothing : program.owned name = none := by rw [owned, unbound, Option.bind_none]
  have fresh : ¬InUse program.owned (.heap program.arena.heap.next) := by
    intro used
    have below := sound.heap_lt _ ((sound.heap _).mpr used)
    omega
  have acquired : (({ program with arena := (program.arena.allocateHeap size).2 } :
      ArenaProgram).bind name (program.arena.allocateHeap size).1).owned =
      Function.update program.owned name (some (.heap program.arena.heap.next)) := owned_bind
  refine ⟨?_, ?_, ?_, ?_, ?_, ?_⟩
  · apply sound_update sound.handle
    intro bound isBound
    rw [Option.mem_some_iff] at isBound
    exact isBound ▸ ⟨rfl, _, rfl⟩
  · rw [acquired]
    exact sound.exclusive.acquire fresh
  · rcases sound.free with ⟨free, chain, memFree⟩
    refine ⟨free, chain, ?_⟩
    intro block
    rw [acquired, Ownership.inUse_acquire nothing, memFree]
    simp
  · intro block
    rw [acquired, Ownership.inUse_acquire nothing, ← sound.heap, Pointer.heap.injEq]
    exact List.mem_cons
  · refine List.nodup_cons.mpr ⟨?_, sound.heap_nodup⟩
    intro mem
    exact fresh ((sound.heap _).mp mem)
  · intro block mem
    show block < program.arena.heap.next + 1
    rcases List.mem_cons.mp mem with rfl | mem
    · omega
    · have below := sound.heap_lt block mem
      omega

/-- The first free block is handed out. -/
theorem Sound.allocateArena (sound : program.Sound) (unbound : program.handles name = none)
    (some_ : program.arena.freeIndex ≠ Arena.sentinel) :
    (({ program with arena := program.arena.allocateArena.2 } : ArenaProgram).bind name
      program.arena.allocateArena.1).Sound := by
  rcases sound.free with ⟨free, chain, memFree⟩
  rcases chain.cases with ⟨last, _⟩ | ⟨_, rest, split, further⟩
  · exact absurd last some_
  · have nodup := chain.nodup
    rw [split, List.nodup_cons] at nodup
    have head := (memFree program.arena.freeIndex).mp (by rw [split]; exact List.mem_cons_self)
    have nothing : program.owned name = none := by rw [owned, unbound, Option.bind_none]
    have acquired : (({ program with arena := program.arena.allocateArena.2 } :
        ArenaProgram).bind name program.arena.allocateArena.1).owned =
        Function.update program.owned name
          (some (.arena (Arena.blockPointer program.arena.freeIndex))) := owned_bind
    refine ⟨?_, ?_, ⟨rest, further, ?_⟩, ?_, sound.heap_nodup, sound.heap_lt⟩
    · apply sound_update sound.handle
      intro bound isBound
      rw [Option.mem_some_iff] at isBound
      exact isBound ▸ ⟨rfl, head.1, rfl, rfl⟩
    · rw [acquired]
      exact sound.exclusive.acquire head.2
    · intro block
      rw [acquired, Ownership.inUse_acquire nothing, Pointer.arena.injEq]
      have before := memFree block
      rw [split, List.mem_cons] at before
      constructor
      · intro mem
        have inside := before.mp (.inr mem)
        refine ⟨inside.1, ?_⟩
        rintro (same | used)
        · rw [Arena.blockPointer_injective same] at mem
          exact nodup.1 mem
        · exact inside.2 used
      · rintro ⟨inside, unused⟩
        rcases before.mpr ⟨inside, fun used => unused (.inr used)⟩ with same | mem
        · exact absurd (.inl (by rw [same])) unused
        · exact mem
    · intro block
      rw [acquired, Ownership.inUse_acquire nothing, ← sound.heap]
      simp
      rfl

theorem Sound.allocate (sound : program.Sound) (unbound : program.handles name = none)
    (size : ℕ) : (program.step (.allocate name size)).Sound := by
  simp only [step, Arena.allocate]
  split
  · exact sound.allocateHeap unbound size
  · next fits =>
      apply sound.allocateArena unbound
      intro last
      exact fits (.inr last)

/-- The first free block, or the sentinel, is a 32-bit number. -/
theorem Sound.freeIndex_lt (sound : program.Sound) : program.arena.freeIndex < word32 := by
  rcases sound.free with ⟨free, chain, memFree⟩
  rcases chain.cases with ⟨last, _⟩ | ⟨_, rest, split, _⟩
  · rw [last]
    decide
  · have inside := ((memFree program.arena.freeIndex).mp
      (by rw [split]; exact List.mem_cons_self)).1
    simp only [Arena.blockCount, word32] at *
    omega

/-- The block of a handle that goes out of scope is put in front of the free list. -/
theorem Sound.release (sound : program.Sound) (mem : handle ∈ program.handles name)
    (kind : handle.sourceType = .arena) :
    (⟨program.arena.release handle.index, Function.update program.handles name none⟩ :
      ArenaProgram).Sound := by
  have handleSound := sound.handle name handle mem
  have pointer := dataPtr_of_sourceType handleSound kind
  have owner : program.owned name = some (.arena (Arena.blockPointer handle.index)) :=
    (owned_eq mem).trans pointer
  have released := owned_unbind program name (program.arena.release handle.index)
  have inside : handle.index < Arena.blockCount := by
    simp only [ArenaHandle.Sound, kind] at handleSound
    exact handleSound.2.1
  have notSentinel : handle.index ≠ Arena.sentinel := by
    simp only [Arena.blockCount, Arena.sentinel, word32] at *
    omega
  rcases sound.free with ⟨free, chain, memFree⟩
  have fresh : handle.index ∉ free := by
    intro isFree
    exact ((memFree _).mp isFree).2 ⟨name, owner⟩
  refine ⟨?_, ?_, ⟨handle.index :: free, ?_, ?_⟩, ?_, sound.heap_nodup, sound.heap_lt⟩
  · apply sound_update sound.handle
    intro bound isBound
    cases isBound
  · rw [released]
    exact sound.exclusive.release name
  · apply chain.push notSentinel
    · exact Arena.readNext_writeNext_self sound.freeIndex_lt
    · exact fresh
    · intro block differs
      exact Arena.readNext_writeNext_of_ne differs
  · intro block
    rw [released, Ownership.inUse_release sound.exclusive, owner, List.mem_cons, memFree]
    constructor
    · rintro (rfl | ⟨low, unused⟩)
      · exact ⟨inside, fun used => used.2 rfl⟩
      · exact ⟨low, fun used => unused used.1⟩
    · rintro ⟨low, unused⟩
      by_cases same : block = handle.index
      · exact .inl same
      · refine .inr ⟨low, fun used => unused ⟨used, ?_⟩⟩
        intro equal
        rw [Option.some.injEq, Pointer.arena.injEq] at equal
        exact same (Arena.blockPointer_injective equal).symm
  · intro block
    rw [released, Ownership.inUse_release sound.exclusive, owner, ← sound.heap]
    simp
    rfl

theorem Sound.deleteHeap {block : ℕ} (sound : program.Sound)
    (mem : handle ∈ program.handles name) (pointer : handle.dataPtr = some (.heap block)) :
    (⟨program.arena.deleteHeap block, Function.update program.handles name none⟩ :
      ArenaProgram).Sound := by
  have owner : program.owned name = some (.heap block) := (owned_eq mem).trans pointer
  have released := owned_unbind program name (program.arena.deleteHeap block)
  rcases sound.free with ⟨free, chain, memFree⟩
  refine ⟨?_, ?_, ⟨free, chain, ?_⟩, ?_, ?_, ?_⟩
  · apply sound_update sound.handle
    intro bound isBound
    cases isBound
  · rw [released]
    exact sound.exclusive.release name
  · intro place
    rw [released, Ownership.inUse_release sound.exclusive, owner, memFree]
    simp
  · intro place
    rw [released, Ownership.inUse_release sound.exclusive, owner, ← sound.heap, ne_eq,
      Option.some.injEq, Pointer.heap.injEq]
    show place ∈ program.arena.heap.live.erase block ↔ _
    rw [sound.heap_nodup.mem_erase_iff]
    constructor
    · rintro ⟨differs, live⟩
      exact ⟨live, fun same => differs same.symm⟩
    · rintro ⟨live, differs⟩
      exact ⟨fun same => differs same.symm, live⟩
  · exact sound.heap_nodup.erase block
  · intro place live
    exact sound.heap_lt place (List.mem_of_mem_erase live)

/-- A moved-from handle has nothing to give back. -/
theorem Sound.forget (sound : program.Sound) (mem : handle ∈ program.handles name)
    (empty : handle.dataPtr = none) :
    (⟨program.arena, Function.update program.handles name none⟩ : ArenaProgram).Sound := by
  have nothing : Function.update program.owned name none = program.owned := by
    apply Function.update_eq_self_iff.mpr
    rw [owned_eq mem, empty]
  have same := (owned_unbind program name program.arena).trans nothing
  refine ⟨?_, ?_, ?_, ?_, sound.heap_nodup, sound.heap_lt⟩
  · apply sound_update sound.handle
    intro bound isBound
    cases isBound
  · rw [same]
    exact sound.exclusive
  · rw [same]
    exact sound.free
  · rw [same]
    exact sound.heap

theorem Sound.destruct (sound : program.Sound) (mem : handle ∈ program.handles name) :
    (⟨handle.destruct program.arena, Function.update program.handles name none⟩ :
      ArenaProgram).Sound := by
  have handleSound := sound.handle name handle mem
  cases kind : handle.sourceType with
  | arena =>
      have released := sound.release mem kind
      simp only [ArenaHandle.Sound, kind] at handleSound
      simpa [ArenaHandle.destruct, kind, handleSound.1] using released
  | heap =>
      simp only [ArenaHandle.Sound, kind] at handleSound
      rcases handleSound with ⟨_, block, pointer⟩
      have deleted := sound.deleteHeap mem pointer
      simpa [ArenaHandle.destruct, ArenaHandle.deleteData, kind, pointer] using deleted
  | none =>
      simp only [ArenaHandle.Sound, kind] at handleSound
      have forgotten := sound.forget mem handleSound.2.1
      simpa [ArenaHandle.destruct, kind] using forgotten

/-- The move assignment gives back what the destructor gives back. -/
theorem releaseOwn_eq (handle : ArenaHandle) (arena : Arena) :
    handle.releaseOwn arena = handle.destruct arena := by
  cases kind : handle.sourceType <;>
    simp [ArenaHandle.releaseOwn, ArenaHandle.destruct, kind]

/-- Assigning is destroying the target and constructing it anew. -/
theorem Sound.moveAssign {other : ArenaHandle} (sound : program.Sound)
    (mem : handle ∈ program.handles name) (otherMem : other ∈ program.handles source)
    (differs : name ≠ source) :
    ((({ program with arena := handle.releaseOwn program.arena } : ArenaProgram).bind name
      other).bind source .movedFrom).Sound := by
  have destroyed := sound.destruct mem
  have unbound : (⟨handle.destruct program.arena, Function.update program.handles name none⟩ :
      ArenaProgram).handles name = none := Function.update_self ..
  have stillBound : other ∈ (⟨handle.destruct program.arena,
      Function.update program.handles name none⟩ : ArenaProgram).handles source := by
    show other ∈ Function.update program.handles name none source
    rw [Function.update_of_ne differs.symm]
    exact otherMem
  have moved := destroyed.moveConstruct unbound stillBound
  simpa [bind, releaseOwn_eq] using moved

/-- Writing through a handle leaves the links of the free blocks alone. -/
theorem Sound.store {start offset : ℕ} {bytes : Bytes} (sound : program.Sound)
    (mem : handle ∈ program.handles name) (pointer : handle.dataPtr = some (.arena start))
    (within : offset + bytes.length ≤ handle.cap) :
    ({ program with arena := program.arena.store (start + offset) bytes } : ArenaProgram).Sound := by
  have handleSound := sound.handle name handle mem
  rcases sound.free with ⟨free, chain, memFree⟩
  refine ⟨sound.handle, sound.exclusive, ⟨free, ?_, memFree⟩, sound.heap, sound.heap_nodup,
    sound.heap_lt⟩
  apply chain.congr
  intro block isFree
  apply Arena.readNext_store
  cases kind : handle.sourceType with
  | arena =>
      simp only [ArenaHandle.Sound, kind] at handleSound
      rcases handleSound with ⟨_, _, own, capEq⟩
      rw [own, Option.some.injEq, Pointer.arena.injEq] at pointer
      have differs : block ≠ handle.index := by
        rintro rfl
        exact ((memFree _).mp isFree).2 ⟨name, (owned_eq mem).trans own⟩
      rcases Nat.lt_or_gt_of_ne differs with below | above
      · right
        have := Arena.blockPointer_apart below
        simp only [Arena.blockSize] at this
        omega
      · left
        have := Arena.blockPointer_apart above
        omega
  | heap =>
      simp only [ArenaHandle.Sound, kind] at handleSound
      rcases handleSound with ⟨_, place, own⟩
      rw [own] at pointer
      cases pointer
  | none =>
      simp only [ArenaHandle.Sound, kind] at handleSound
      rw [handleSound.2.1] at pointer
      cases pointer

/-- Every legal operation keeps the program sound. -/
theorem Sound.step {op : Op} (sound : program.Sound) (legal : program.Legal op) :
    (program.step op).Sound := by
  cases op with
  | allocate name size => exact sound.allocate legal size
  | moveConstruct name source =>
      rcases legal with ⟨unbound, bound⟩
      cases found : program.handles source with
      | none => exact absurd found bound
      | some other =>
          simp only [ArenaProgram.step, found]
          exact sound.moveConstruct unbound found
  | moveAssign target source =>
      rcases legal with ⟨boundTarget, boundSource⟩
      cases foundTarget : program.handles target with
      | none => exact absurd foundTarget boundTarget
      | some handle =>
          cases found : program.handles source with
          | none => exact absurd found boundSource
          | some other =>
              simp only [ArenaProgram.step, foundTarget, found]
              split
              · exact sound
              · next differs => exact sound.moveAssign foundTarget found differs
  | destroy name =>
      cases found : program.handles name with
      | none => exact absurd found legal
      | some handle =>
          simp only [ArenaProgram.step, found]
          exact sound.destruct found
  | write name offset bytes =>
      rcases legal with ⟨handle, mem, within⟩
      have found : (program.handles name).bind ArenaHandle.dataPtr = handle.dataPtr := owned_eq mem
      simp only [ArenaProgram.step, found]
      split
      · next start pointer => exact sound.store mem pointer within
      · exact sound

end Step

/-- The program after operations. -/
def run (program : ArenaProgram) (ops : List Op) : ArenaProgram := ops.foldl step program

theorem Sound.run {program : ArenaProgram} {ops : List Op} (sound : program.Sound)
    (legal : Runs.Meets ArenaProgram.step Legal program ops) : (program.run ops).Sound := by
  apply legal.invariant sound
  intro current op currentSound allowed
  exact currentSound.step allowed

/-- The blocks of the arena are each with one live handle or on the free list, and the heap is
used for what is too large or does not find a block. -/
structure Partitioned (program : ArenaProgram) : Prop where
  distinct : ∀ first second, ∀ handle ∈ program.handles first,
    ∀ other ∈ program.handles second, handle.sourceType = .arena → other.sourceType = .arena →
      handle.index = other.index → first = second
  free : ∃ free, FreeList.Chain program.arena.readNext Arena.sentinel program.arena.freeIndex free ∧
    free.Nodup ∧ ∀ block, block ∈ free ↔ block < Arena.blockCount ∧ ¬program.HasLive block
  allocate : ∀ size, (program.arena.allocate size).1.sourceType = .heap ↔
    Arena.blockSize < size ∨ ∀ block < Arena.blockCount, program.HasLive block

theorem Sound.inUse_iff {program : ArenaProgram} (sound : program.Sound) (block : ℕ) :
    InUse program.owned (.arena (Arena.blockPointer block)) ↔ program.HasLive block := by
  constructor
  · rintro ⟨name, owner⟩
    rcases Option.bind_eq_some_iff.mp owner with ⟨handle, mem, pointer⟩
    have kind := sourceType_of_dataPtr (sound.handle name handle mem) pointer
    exact ⟨name, handle, mem, kind⟩
  · rintro ⟨name, handle, mem, kind, rfl⟩
    exact ⟨name, (owned_eq mem).trans (dataPtr_of_sourceType (sound.handle name handle mem) kind)⟩

theorem Sound.partitioned {program : ArenaProgram} (sound : program.Sound) :
    program.Partitioned := by
  rcases sound.free with ⟨free, chain, memFree⟩
  simp only [sound.inUse_iff] at memFree
  refine ⟨?_, ⟨free, chain, chain.nodup, memFree⟩, ?_⟩
  · intro first second handle mem other otherMem kind otherKind same
    have pointer := dataPtr_of_sourceType (sound.handle first handle mem) kind
    have otherPointer := dataPtr_of_sourceType (sound.handle second other otherMem) otherKind
    rw [← same] at otherPointer
    exact sound.exclusive ((owned_eq mem).trans pointer) ((owned_eq otherMem).trans otherPointer)
  · intro size
    have full : program.arena.freeIndex = Arena.sentinel ↔
        ∀ block < Arena.blockCount, program.HasLive block := by
      constructor
      · intro last block inside
        rcases chain.cases with ⟨_, empty⟩ | ⟨more, _⟩
        · by_contra unused
          have isFree := (memFree block).mpr ⟨inside, unused⟩
          rw [empty] at isFree
          cases isFree
        · exact absurd last more
      · intro every
        rcases chain.cases with ⟨last, _⟩ | ⟨_, rest, split, _⟩
        · exact last
        · have isFree := (memFree program.arena.freeIndex).mp
            (by rw [split]; exact List.mem_cons_self)
          exact absurd (every _ isFree.1) isFree.2
    rw [← full, Arena.allocate]
    split
    · next toHeap =>
        constructor
        · intro _
          exact toHeap
        · intro _
          rfl
    · next toArena =>
        constructor
        · intro isHeap
          cases isHeap
        · intro toHeap
          exact absurd toHeap toArena

/-- In every state a program can reach, over whatever the memory held before the arena was made,
no block is shared and none is lost. -/
theorem run_partitioned (garbage : ℕ → UInt8) (ops : List Op)
    (legal : Runs.Meets step Legal (new garbage) ops) :
    ((new garbage).run ops).Partitioned :=
  ((sound_new garbage).run legal).partitioned

/-- A block is overwritten, handed over to a handle of the heap and given back. -/
def handedOver : List Op :=
  [.allocate 0 100, .allocate 1 9000, .write 0 0 [1, 2, 3, 4, 5], .moveAssign 0 0,
    .moveAssign 1 0, .moveConstruct 2 1, .allocate 3 8192, .destroy 2, .destroy 1]

theorem run_partitioned_handedOver : ((new fun _ => 0).run handedOver).Partitioned :=
  run_partitioned (fun _ => 0) handedOver
    ⟨by decide, by decide, by decide, by decide, by decide, by decide, by decide, by decide,
      by decide, trivial⟩

/-- The writer of a message is given room for all of it. -/
theorem legal_fromArena {program : ArenaProgram} {scratch name : ℕ} (differs : name ≠ scratch)
    (scratchUnbound : program.handles scratch = none) (unbound : program.handles name = none)
    (wire : Bytes) :
    Runs.Meets step Legal program (WireWriter.fromArena scratch name wire).2 := by
  rcases allocated : program.arena.allocate wire.length with ⟨handle, arena⟩
  have room : wire.length ≤ handle.cap := by
    rw [Arena.allocate] at allocated
    split at allocated
    · cases allocated
      exact Nat.le_refl _
    · next fits =>
        cases allocated
        show wire.length ≤ Arena.blockSize
        omega
  have afterAllocate : program.step (.allocate scratch wire.length) =
      ({ program with arena := arena } : ArenaProgram).bind scratch handle := by
    simp only [step, allocated]
  have bound : (({ program with arena := arena } : ArenaProgram).bind scratch handle).handles
      scratch = some handle := Function.update_self ..
  have afterMove : (({ program with arena := arena } : ArenaProgram).bind scratch handle).step
      (.moveConstruct name scratch) = ((({ program with arena := arena } : ArenaProgram).bind
        scratch handle).bind name handle).bind scratch .movedFrom := by
    simp only [step, bound]
  refine ⟨scratchUnbound, ?_, ?_, ?_, trivial⟩
  · rw [afterAllocate]
    refine ⟨?_, by rw [bound]; exact Option.some_ne_none _⟩
    simpa [bind, Function.update_of_ne differs] using unbound
  · rw [afterAllocate, afterMove]
    refine ⟨handle, ?_, by rw [Nat.zero_add]; exact room⟩
    simp [bind, Function.update_of_ne differs]
  · rw [afterAllocate, afterMove]
    simp only [Legal, step]
    split <;> simp [bind]

end ArenaProgram

end FixEngine
