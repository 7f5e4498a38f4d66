import FixEngine.Core.Store

/-!
# The arena

`Arena` (`core/Arena.hpp`, `Arena.cpp`) hands out sixteen blocks of 8 KB through move-only handles
and the heap when it has none. The blocks that are not handed out are linked into a list, and the
link of a block is stored in its first four bytes, which its user is free to overwrite while the
block is handed out.

`ArenaProgram` is what a program does with an arena: its variables of type `ArenaHandle` are
initialised, moved, written through and destroyed in any order.
-/

namespace FixEngine

/-- Where the memory of a handle comes from. -/
inductive MemSourceType
  | arena
  | heap
  | none
  deriving DecidableEq, Repr

/-- What `data_ptr_` points to: a byte of the arena's memory, or a block of the heap. -/
inductive Pointer
  | arena (offset : ℕ)
  | heap (block : ℕ)
  deriving DecidableEq, Repr

/-- `ArenaHandle`, the owner of a block of the arena or of the heap. -/
structure ArenaHandle where
  /-- `arena_` is not null. -/
  arena : Bool
  dataPtr : Option Pointer
  cap : ℕ
  index : ℕ
  sourceType : MemSourceType
  deriving DecidableEq, Repr

/-- The heap blocks in use, as `operator new` and `operator delete` keep them. -/
structure Heap where
  next : ℕ
  live : List ℕ
  deriving DecidableEq, Repr

namespace Heap

/-- The heap before anything is allocated. -/
def new : Heap := ⟨0, []⟩

/-- `new std::byte[size]`: a block that is not live. -/
def allocate (heap : Heap) : ℕ × Heap := (heap.next, ⟨heap.next + 1, heap.next :: heap.live⟩)

/-- `delete[]`, which gives up one live block. -/
def delete (heap : Heap) (block : ℕ) : Heap := { heap with live := heap.live.erase block }

end Heap

/-- `Arena`: the memory of all blocks, the head of the free list that runs through it, and the heap.
-/
structure Arena where
  /-- The bytes from `start` on. -/
  memory : ℕ → UInt8
  freeIndex : ℕ
  heap : Heap

namespace Arena

/-- `block_size`. -/
def blockSize : ℕ := 8 * 1024

/-- `block_count`. -/
def blockCount : ℕ := 16

/-- `Arena::end`, the sentinel of the list of free blocks. -/
def sentinel : ℕ := word32 - 1

/-- `block_pointer`, as an offset from `start`. -/
def blockPointer (index : ℕ) : ℕ := index * blockSize

/-- Byte `place` of a 32-bit number in memory. -/
def byteOf (number place : ℕ) : UInt8 := UInt8.ofNat (number / 256 ^ place)

/-- A copy into the memory of the arena. -/
def store (arena : Arena) (offset : ℕ) (bytes : Bytes) : Arena :=
  { arena with
    memory := fun address =>
      if offset ≤ address ∧ address < offset + bytes.length then
        bytes[address - offset]?.getD 0
      else arena.memory address }

/-- `write_next`: the link of a free block is stored in its first four bytes. -/
def writeNext (arena : Arena) (idx next : ℕ) : Arena :=
  arena.store (blockPointer idx) ((List.range 4).map (byteOf next))

/-- `read_next`, which reads these bytes as a 32-bit number. -/
def readNext (arena : Arena) (idx : ℕ) : ℕ :=
  (arena.memory (blockPointer idx)).toNat + 256 * (arena.memory (blockPointer idx + 1)).toNat +
    256 ^ 2 * (arena.memory (blockPointer idx + 2)).toNat +
    256 ^ 3 * (arena.memory (blockPointer idx + 3)).toNat

/-- The loop of the constructor, up to block `count`. -/
def linkBlocks (arena : Arena) (count : ℕ) : Arena :=
  (List.range count).foldl (fun linked i => linked.writeNext i (i + 1)) arena

/-- The constructor, over whatever the allocated memory holds. -/
def new (garbage : ℕ → UInt8) : Arena :=
  (linkBlocks ⟨garbage, 0, Heap.new⟩ blockCount).writeNext (blockCount - 1) sentinel

/-- `release`: the block becomes the head of the free list. -/
def release (arena : Arena) (index : ℕ) : Arena :=
  { arena.writeNext index arena.freeIndex with freeIndex := index }

/-- The end of a handle whose memory is on the heap. -/
def deleteHeap (arena : Arena) (block : ℕ) : Arena :=
  { arena with heap := arena.heap.delete block }

/-- `allocate_heap`. -/
def allocateHeap (arena : Arena) (size : ℕ) : ArenaHandle × Arena :=
  let (block, heap) := arena.heap.allocate
  (⟨false, some (.heap block), size, sentinel, .heap⟩, { arena with heap := heap })

/-- `allocate_arena`: the head of the free list is taken. -/
def allocateArena (arena : Arena) : ArenaHandle × Arena :=
  let allocatedIndex := arena.freeIndex
  (⟨true, some (.arena (blockPointer allocatedIndex)), blockSize, allocatedIndex, .arena⟩,
    { arena with freeIndex := arena.readNext allocatedIndex })

/-- `allocate`: what is larger than a block, or finds no free one, goes to the heap. -/
def allocate (arena : Arena) (size : ℕ) : ArenaHandle × Arena :=
  if blockSize < size ∨ arena.freeIndex = sentinel then arena.allocateHeap size
  else arena.allocateArena

end Arena

namespace ArenaHandle

/-- What a move leaves behind. -/
def movedFrom : ArenaHandle := ⟨false, none, 0, word32 - 1, .none⟩

/-- `::operator delete(data_ptr_)`. -/
def deleteData (handle : ArenaHandle) (arena : Arena) : Arena :=
  match handle.dataPtr with
  | some (.heap block) => arena.deleteHeap block
  | _ => arena

/-- `~ArenaHandle`. -/
def destruct (handle : ArenaHandle) (arena : Arena) : Arena :=
  if handle.sourceType = .heap ∧ handle.dataPtr.isSome then handle.deleteData arena
  else if handle.sourceType = .arena ∧ handle.arena then arena.release handle.index
  else arena

/-- The two conditional releases at the beginning of the move assignment. -/
def releaseOwn (handle : ArenaHandle) (arena : Arena) : Arena :=
  let released :=
    if handle.sourceType = .arena ∧ handle.arena then arena.release handle.index else arena
  if handle.sourceType = .heap ∧ handle.dataPtr.isSome then handle.deleteData released
  else released

end ArenaHandle

/-- An arena and the variables of type `ArenaHandle` that are in scope. -/
structure ArenaProgram where
  arena : Arena
  handles : ℕ → Option ArenaHandle

namespace ArenaProgram

/-- What a program does with handles and with the memory they own. -/
inductive Op
  /-- `ArenaHandle name = arena.allocate(size);` -/
  | allocate (name size : ℕ)
  /-- `ArenaHandle name = std::move(source);` -/
  | moveConstruct (name source : ℕ)
  /-- `target = std::move(source);` -/
  | moveAssign (target source : ℕ)
  | destroy (name : ℕ)
  /-- `memcpy(name.data() + offset, bytes, ...)` -/
  | write (name offset : ℕ) (bytes : Bytes)
  deriving DecidableEq, Repr

/-- A program with a fresh arena and no handles. -/
def new (garbage : ℕ → UInt8) : ArenaProgram := ⟨Arena.new garbage, fun _ => none⟩

/-- The handle that a name stands for from now on. -/
def bind (program : ArenaProgram) (name : ℕ) (handle : ArenaHandle) : ArenaProgram :=
  { program with handles := Function.update program.handles name (some handle) }

/-- The program after an operation. -/
def step (program : ArenaProgram) : Op → ArenaProgram
  | .allocate name size =>
      let (handle, arena) := program.arena.allocate size
      { program with arena := arena }.bind name handle
  | .moveConstruct name source =>
      match program.handles source with
      | some other => (program.bind name other).bind source .movedFrom
      | none => program
  | .moveAssign target source =>
      match program.handles target, program.handles source with
      | some handle, some other =>
          if target = source then program
          else
            ({ program with arena := handle.releaseOwn program.arena }.bind target other).bind
              source .movedFrom
      | _, _ => program
  | .destroy name =>
      match program.handles name with
      | some handle =>
          ⟨handle.destruct program.arena, Function.update program.handles name none⟩
      | none => program
  | .write name offset bytes =>
      match (program.handles name).bind ArenaHandle.dataPtr with
      | some (.arena start) => { program with arena := program.arena.store (start + offset) bytes }
      | _ => program

/-- A variable is initialised once, used while it is in scope, and written within its capacity. -/
def Legal (program : ArenaProgram) : Op → Prop
  | .allocate name _ => program.handles name = none
  | .moveConstruct name source => program.handles name = none ∧ program.handles source ≠ none
  | .moveAssign target source => program.handles target ≠ none ∧ program.handles source ≠ none
  | .destroy name => program.handles name ≠ none
  | .write name offset bytes =>
      ∃ handle ∈ program.handles name, offset + bytes.length ≤ handle.cap

instance (program : ArenaProgram) : (op : Op) → Decidable (program.Legal op)
  | .allocate name _ => inferInstanceAs (Decidable (program.handles name = none))
  | .moveConstruct name source =>
      inferInstanceAs (Decidable (program.handles name = none ∧ program.handles source ≠ none))
  | .moveAssign target source =>
      inferInstanceAs (Decidable (program.handles target ≠ none ∧ program.handles source ≠ none))
  | .destroy name => inferInstanceAs (Decidable (program.handles name ≠ none))
  | .write name offset bytes =>
      inferInstanceAs (Decidable (∃ handle ∈ program.handles name,
        offset + bytes.length ≤ handle.cap))

end ArenaProgram

/-- A writer over the handle of a variable: `size` bytes of it are written. -/
structure WireWriter where
  handle : ℕ
  size : ℕ
  deriving DecidableEq, Repr

namespace WireWriter

/-- `append`: the data is copied behind what was written. -/
def append (writer : WireWriter) (data : Bytes) : WireWriter × ArenaProgram.Op :=
  ({ writer with size := writer.size + data.length }, .write writer.handle writer.size data)

/-- `from_arena`: a local handle is allocated and moved into the writer, which is written to. -/
def fromArena (scratch name : ℕ) (wire : Bytes) : WireWriter × List ArenaProgram.Op :=
  let (writer, written) := append ⟨name, 0⟩ wire
  (writer, [.allocate scratch wire.length, .moveConstruct name scratch, written, .destroy scratch])

end WireWriter

end FixEngine
