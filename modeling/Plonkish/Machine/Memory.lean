import Std.Data.TreeMap
import Plonkish.Circuit.Transcript
import Plonkish.Gadget.Sizes
import Plonkish.Machine.Failure

namespace Plonkish

/-!
# Program memory

Memory is a row of cells that grows at its end. The cell at address zero stands
for the null pointer and cannot be accessed. A cell has a width from when it is
allocated, and can be read from when it is first written.
-/

/-- Consecutive cells that were allocated together. -/
structure Segment where
  first : Nat
  count : Nat
  bytes : Nat
  deriving DecidableEq

/-- Whether an address lies in a segment. -/
def Segment.contains (segment : Segment) (pointer : Nat) : Bool :=
  segment.first ≤ pointer && pointer < segment.first + segment.count

/-- The cells that a program can access by address. -/
structure Memory (field : PrimeField) where
  /-- The number of cells, the null cell included. -/
  size : Nat
  /-- What was allocated, latest first. -/
  segments : List Segment
  /-- What was written. -/
  stored : Std.TreeMap Nat (Cell field)

/-- The largest number of cells, the null cell included. -/
def memoryLimit : Nat := 1 <<< 24

namespace Memory

variable {field : PrimeField}

/-- The memory with the null cell only. -/
def empty : Memory field := ⟨1, [], ∅⟩

/-- Allocate consecutive cells of some width; the address of the first, and the new memory. -/
def allocate
    (memory : Memory field)
    (count bytes : Nat) :
    Except Failure (Nat × Memory field) :=
  if memory.size + count ≤ memoryLimit then
    .ok (memory.size, {
      memory with
      size := memory.size + count
      segments := ⟨memory.size, count, bytes⟩ :: memory.segments
    })
  else
    .error (.memory memory.size .exhausted)

/-- Check that an address can be accessed. -/
def checkAddress (memory : Memory field) (pointer : Nat) : Except Failure Unit :=
  if pointer = 0 then .error (.memory pointer .null)
  else if memory.size ≤ pointer then .error (.memory pointer .outOfBounds)
  else .ok ()

/-- Write a cell. -/
def store
    (memory : Memory field)
    (pointer : Nat)
    (cell : Cell field) :
    Except Failure (Memory field) := do
  memory.checkAddress pointer
  return { memory with stored := memory.stored.insert pointer cell }

/-- Write cells at consecutive addresses. -/
def storeAll
    (memory : Memory field)
    (pointer : Nat) :
    List (Cell field) → Except Failure (Memory field)
  | [] => .ok memory
  | cell :: rest => do (← memory.store pointer cell).storeAll (pointer + 1) rest

/-- Read a cell. -/
def load (memory : Memory field) (pointer : Nat) : Except Failure (Cell field) := do
  memory.checkAddress pointer
  match memory.stored[pointer]? with
  | some cell => .ok cell
  | none => .error (.memory pointer .uninitialized)

/-- The address some way behind another; it has to be an address of 64 bits. -/
def offsetAddress (base offset : Nat) : Except Failure Nat :=
  match Sizes.sum? base offset with
  | some pointer => .ok pointer
  | none => .error (.memory base .outOfBounds)

/-- Read cells behind an address, beginning at an offset. -/
def loadFrom (memory : Memory field) (base offset : Nat) :
    Nat → Except Failure (List (Cell field))
  | 0 => .ok []
  | count + 1 => do
      let cell ← memory.load (← offsetAddress base offset)
      return cell :: (← memory.loadFrom base (offset + 1) count)

/-- The width of a cell in bytes. -/
def cellBytes (memory : Memory field) (pointer : Nat) : Except Failure Nat := do
  memory.checkAddress pointer
  match memory.segments.find? (·.contains pointer) with
  | some segment => .ok segment.bytes
  | none => .ok 0

end Memory

end Plonkish
