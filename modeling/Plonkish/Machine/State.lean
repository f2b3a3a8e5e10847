import Plonkish.Circuit.Export
import Plonkish.Circuit.Operation
import Plonkish.Circuit.Placement
import Plonkish.Circuit.Satisfaction
import Plonkish.Machine.Frame
import Plonkish.Machine.Memory

namespace Plonkish

/-!
# Machines

The state in which a program is translated: the bindings of its values, its
memory, and the circuit so far. A step of translation that fails keeps what it
did before; reading operands changes nothing.
-/

/-- The state of a translation. -/
structure Machine (field : PrimeField) where
  policy : Policy
  frame : Frame field
  memory : Memory field
  transcript : Transcript field
  /-- The exposed cells of each column of public inputs. -/
  instances : Array (Array (Cell field))
  /-- The break points of the earlier placements, if there was one. -/
  breakPoints : Option (List Nat)

/-- A computation that reads the state of a translation. -/
abbrev Reading (field : PrimeField) := ReaderT (Machine field) (Except Failure)

/-- A computation that changes the state of a translation. -/
abbrev Translation (field : PrimeField) := ExceptT (Stop Failure) (StateM (Machine field))

namespace Machine

variable {field : PrimeField}

/-- The state before the first instruction. -/
def create (field : PrimeField) (policy : Policy) : Except CircuitFailure (Machine field) := do
  policy.validate
  return {
    policy
    frame := .empty
    memory := .empty
    transcript := .empty
    instances := Array.replicate policy.instanceColumns #[]
    breakPoints := none
  }

/-- The exposed cells of the first column of public inputs. -/
def exposed (machine : Machine field) : List (Cell field) :=
  (machine.instances.getD 0 #[]).toList

/-- Every constraint and every public input holds for the values of the cells. -/
def Satisfied (machine : Machine field) : Prop :=
  machine.transcript.SatisfiedBy machine.transcript.assignment
    ∧ ∀ column ∈ machine.instances.toList,
      Cell.AllHold machine.transcript.assignment column.toList

instance (machine : Machine field) : Decidable machine.Satisfied :=
  inferInstanceAs (Decidable (_ ∧ _))

end Machine

namespace Translation

variable {field : PrimeField}

/-- End with a report. -/
def report (failure : Failure) : Translation field α :=
  throw (.report failure)

/-- Give up. -/
def crash : Translation field α :=
  throw .crash

/-- The result of a computation that does not depend on the state. -/
def ofExcept : Except Failure α → Translation field α
  | .ok result => pure result
  | .error failure => report failure

/-- Read from the state. -/
def read (reading : Reading field α) : Translation field α := do
  ofExcept (reading (← get))

/-- Lay out cells. -/
def lay (synthesis : Synthesis field α) : Translation field α :=
  modifyGet fun ⟨policy, frame, memory, transcript, instances, breakPoints⟩ =>
    let (result, transcript) := synthesis transcript
    (result, ⟨policy, frame, memory, transcript, instances, breakPoints⟩)

/-- Lay out cells by a gadget. -/
def assemble (assembly : Assembly field α) : Translation field α := do
  match ← lay assembly.run with
  | .ok result => pure result
  | .error stop => throw (stop.map .circuit)

/-- Bind a name. -/
def bind (id : ValueId) (slot : Slot field) : Translation field Unit :=
  modify fun machine => { machine with frame := machine.frame.bind id slot }

/-- Replace the memory. -/
def setMemory (memory : Memory field) : Translation field Unit :=
  modify fun machine => { machine with memory }

/-- Allocate cells of memory; the address of the first. -/
def allocate (count bytes : Nat) : Translation field Nat := do
  let (pointer, memory) ← ofExcept ((← get).memory.allocate count bytes)
  setMemory memory
  return pointer

/-- Write cells of memory at consecutive addresses. -/
def storeAll (pointer : Nat) (cells : List (Cell field)) : Translation field Unit := do
  setMemory (← ofExcept ((← get).memory.storeAll pointer cells))

/-- Expose cells in the first column of public inputs. -/
def expose (cells : List (Cell field)) : Translation field Unit :=
  modify fun machine =>
    { machine with instances := machine.instances.modify 0 (· ++ cells) }

/-- The column counts of the circuit so far. -/
def layout : Translation field Layout := do
  let machine ← get
  match machine.policy.layout machine.transcript with
  | .ok layout => return layout
  | .error failure => report (.circuit failure)

/--
Place the circuit so far and check that it is satisfied.

A circuit keeps the break points of its first placement; one that would have
others cannot be placed again.
-/
def check : Translation field Layout := do
  let layout ← layout
  let machine ← get
  let lengths := machine.instances.toList.map Array.size
  match Placement.ofTranscript? layout lengths machine.transcript with
  | none => crash
  | some breakPoints =>
      if machine.breakPoints.all (fun earlier => decide (earlier = breakPoints)) then
        set { machine with breakPoints := some breakPoints }
        if machine.Satisfied then return layout else report (.circuit .unsatisfied)
      else
        crash

/-- Lay out the columns, check the circuit if asked to, and export it. -/
def finish (checked : Bool) : Translation field (Export field) := do
  let layout ← if checked then check else layout
  let machine ← get
  return .ofTranscript layout machine.exposed machine.transcript

end Translation

end Plonkish
