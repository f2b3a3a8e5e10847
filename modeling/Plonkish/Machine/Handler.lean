import Plonkish.Gadget.Cosets
import Plonkish.Gadget.LookupArgument
import Plonkish.Gadget.PointAddition
import Plonkish.Gadget.Select
import Plonkish.Machine.Operand

namespace Plonkish

/-!
# Instructions

What each opcode does. An instruction first reads its operands, then lays out
cells, and binds its name last; so one that fails while it reads leaves nothing
behind. Only `param` changes the state before its last possible failure: it
exposes the elements of an array before it allocates memory for them.
-/

namespace Instruction

variable {field : PrimeField}

/-- An input of a program and its elements. -/
def inputElements
    (field : PrimeField)
    (inputs : List InputValue)
    (instruction : Instruction) :
    Except Failure (InputValue × List (Element field)) := do
  let index ← instruction.constantSize 0
  match inputs[index]? with
  | none => .error (.unknownInput index)
  | some input =>
      let elements ← input.elements.mapM fun text =>
        match Element.ofDecimal? field text with
        | some element => .ok element
        | none => instruction.malformed 0 (.inputNotDecimal index text)
      return (input, elements)

/-- Bind the name of an instruction to an address, as a fixed cell. -/
def bindAddress (instruction : Instruction) (pointer : Nat) : Translation field Unit := do
  let cell ← Translation.lay (Synthesis.constant (Element.ofNat field pointer))
  Translation.bind instruction.id (.scalar cell)

/-- Expose elements as public inputs. -/
def exposeElements (elements : List (Element field)) : Translation field (List (Cell field)) := do
  let cells ← Translation.lay (Synthesis.witnesses elements)
  Translation.expose cells
  return cells

/-- Bind an input of the program; an array is written to memory and bound by its address. -/
def handleParam
    (inputs : List InputValue)
    (instruction : Instruction) :
    Translation field Unit := do
  let (input, elements) ← Translation.ofExcept (instruction.inputElements field inputs)
  let cells ← exposeElements elements
  match input with
  | .field _ =>
      match cells with
      | cell :: _ => Translation.bind instruction.id (.scalar cell)
      | [] => Translation.crash
  | .vector _ | .curve _ _ => Translation.bind instruction.id (.vector cells)
  | .array _ =>
      let pointer ← Translation.allocate cells.length field.elementBytes
      Translation.storeAll pointer cells
      instruction.bindAddress pointer

/-- Allocate memory and bind the address of its first cell. -/
def handleAlloca (instruction : Instruction) : Translation field Unit := do
  let count ← Translation.ofExcept (instruction.constantSize 0)
  let pointer ← Translation.allocate count field.elementBytes
  instruction.bindAddress pointer

/-- The cell in memory at an address and an offset. -/
def loadOperands (instruction : Instruction) : Reading field (Cell field) := do
  let base ← instruction.pointer 0
  let offset ← instruction.constantSize 1
  let pointer ← Memory.offsetAddress base offset
  (← read).memory.load pointer

/-- Bind a cell of memory. -/
def handleLoad (instruction : Instruction) : Translation field Unit := do
  let cell ← Translation.read instruction.loadOperands
  Translation.bind instruction.id (.scalar cell)

/-- Bind the first of two values if a condition is not zero, and the second if it is. -/
def handleSelect (instruction : Instruction) : Translation field Unit := do
  let condition ← Translation.read (instruction.scalar 0)
  let whenTrue ← Translation.read (instruction.scalar 1)
  let whenFalse ← Translation.read (instruction.scalar 2)
  let cell ← Translation.lay (Gadget.select condition whenTrue whenFalse)
  Translation.bind instruction.id (.scalar cell)

/-- Two points of one curve over the field of the circuit. -/
def pointOperands (instruction : Instruction) :
    Reading field (PointCells field × PointCells field) := do
  let kind ← instruction.curveKind 0
  let other ← instruction.curveKind 1
  if other ≠ kind then
    instruction.malformed 1 (.otherCurve other kind)
  let native := field.isNative kind.baseField.modulusText
  if kind = .curve25519 ∨ !native then
    throw (.unimplemented (.addition native kind))
  let (leftX, leftY) ← instruction.pair 0
  let (rightX, rightY) ← instruction.pair 1
  return ({ x := leftX, y := leftY }, { x := rightX, y := rightY })

/-- Bind the sum of two points. -/
def handleCurveAdd (instruction : Instruction) : Translation field Unit := do
  let (left, right) ← Translation.read instruction.pointOperands
  let sum ← Translation.assemble (Gadget.addPoints left right)
  Translation.bind instruction.id (.vector [sum.x, sum.y])

/-- The operands of a coset computation: where to, of which shape, and for which index. -/
def cosetOperands (instruction : Instruction) :
    Reading field (Nat × Nat × Element field × Nat × Cell field) := do
  let result ← instruction.pointer 0
  let resultLength ← instruction.constantSize 1
  let root ← instruction.constantElement field 2
  let totalBits ← instruction.constantSize 3
  let index ← instruction.scalar 4
  return (result, resultLength, root, totalBits, index)

/-- Check that consecutive cells can hold elements. -/
def checkResultCells (memory : Memory field) (pointer : Nat) : Nat → Except Failure Unit
  | 0 => .ok ()
  | count + 1 => do
      let bytes ← memory.cellBytes pointer
      if bytes = field.elementBytes then
        checkResultCells memory (pointer + 1) count
      else
        .error (.size (.resultCell pointer bytes field.elementBytes))

/-- Check that the cosets of all rounds can be written behind an address. -/
def checkResultRange (memory : Memory field) (pointer rounds : Nat) : Except Failure Unit := do
  let _ ← Memory.offsetAddress pointer (3 * rounds)
  checkResultCells memory pointer (3 * rounds)

/-- Compute the cosets of an index and write them to memory; nothing is bound. -/
def handleFriCosets (instruction : Instruction) : Translation field Unit := do
  let (result, resultLength, root, totalBits, index) ←
    Translation.read instruction.cosetOperands
  let shape ←
    match CosetShape.make resultLength totalBits root with
    | .ok shape => pure shape
    | .error failure => Translation.report (.circuit failure)
  let machine ← get
  Translation.ofExcept (checkResultRange machine.memory result resultLength)
  let rounds ← Translation.assemble (Gadget.cosets shape index)
  Translation.storeAll result (rounds.flatMap CosetCells.toList)

/-- The operands of a gate argument. -/
def gateOperands (instruction : Instruction) : Reading field (GateShape × GateCells field) := do
  let sizes ← instruction.constantVector 1
  let gates ← instruction.constantSize 2
  let constraints ← instruction.constantSize 4
  let total := Sizes.total? sizes
  if sizes.length ≠ gates ∨ total ≠ some constraints then
    throw (.size (.gateSizes gates sizes.length constraints total))
  let shape ←
    match GateShape.make sizes with
    | .ok shape => pure shape
    | .error failure => throw (.circuit failure)
  let selectorCells ← instruction.inputVector 0 gates
  let constraintCells ← instruction.inputVector 3 constraints
  let challenge ← instruction.scalar 5
  return (shape, { challenge, constraints := constraintCells, selectors := selectorCells })

/-- Bind the value of a gate argument. -/
def handleGateArgument (instruction : Instruction) : Translation field Unit := do
  let (shape, input) ← Translation.read instruction.gateOperands
  let cell ← Translation.assemble (Gadget.gateArgument shape input)
  Translation.bind instruction.id (.scalar cell)

/-- The shape of a lookup argument. -/
def lookupShape (instruction : Instruction) : Except Failure LookupShape := do
  let tables ← instruction.constantSize 1
  let repeated ← instruction.constantSize 3
  if repeated ≠ tables then
    throw (.size (.tableSizes tables repeated))
  let gates ← instruction.constantSize 5
  let tableOptions ← instruction.constantVector 0
  let tableColumns ← instruction.constantVector 2
  let gateConstraints ← instruction.constantVector 4
  let constraintInputs ← instruction.constantVector 6
  let sizes := { gateConstraints, constraintInputs, tableOptions, tableColumns }
  let shape ←
    match LookupShape.make gates tables sizes with
    | .ok shape => pure shape
    | .error failure => throw (.circuit failure)
  let constraints ← instruction.constantSize 7
  if constraints ≠ shape.constraints then
    throw (.size (.lookupConstraints constraints shape.constraints))
  return shape

/-- The input vector of a lookup argument at a position, whose length is the next operand. -/
def sizedVector (instruction : Instruction) (index : Nat) :
    Reading field (List (Cell field)) := do
  let size ← instruction.constantSize (index + 1)
  instruction.inputVector index size

/-- The cells of a lookup argument. -/
def lookupCells (instruction : Instruction) : Reading field (LookupCells field) := do
  let alphas ← instruction.sizedVector 8
  let gateSelectors ← instruction.sizedVector 10
  let tableIds ← instruction.sizedVector 12
  let lookupInputs ← instruction.sizedVector 14
  let tableSelectors ← instruction.sizedVector 16
  let options ← instruction.sizedVector 18
  let shiftedTableSelectors ← instruction.sizedVector 20
  let shiftedOptions ← instruction.sizedVector 22
  let sorted ← instruction.sizedVector 24
  let theta ← instruction.scalar 26
  let beta ← instruction.scalar 27
  let gamma ← instruction.scalar 28
  let firstRow ← instruction.scalar 29
  let accumulator ← instruction.pair 30
  let lastRow ← instruction.pair 31
  let blindRows ← instruction.pair 32
  return {
    theta, beta, gamma, alphas, firstRow, gateSelectors, tableIds, lookupInputs, tableSelectors,
    options, shiftedTableSelectors, shiftedOptions, sorted
    accumulator := { current := accumulator.1, next := accumulator.2 }
    lastRow := { current := lastRow.1, next := lastRow.2 }
    blindRows := { current := blindRows.1, next := blindRows.2 }
  }

/-- Bind the four values of a lookup argument. -/
def handleLookupArgument (instruction : Instruction) : Translation field Unit := do
  let shape ← Translation.ofExcept instruction.lookupShape
  let input ← Translation.read instruction.lookupCells
  let result ← Translation.assemble (Gadget.lookupArgument shape input)
  Translation.bind instruction.id (.vector result.toList)

/-- Translate one instruction of a program with the given inputs. -/
def handle
    (inputs : List InputValue)
    (instruction : Instruction) :
    Translation field Unit :=
  match instruction.opcode with
  | .param => instruction.handleParam inputs
  | .alloca => instruction.handleAlloca
  | .load => instruction.handleLoad
  | .select => instruction.handleSelect
  | .curveAdd => instruction.handleCurveAdd
  | .friCosets => instruction.handleFriCosets
  | .gateArgument => instruction.handleGateArgument
  | .lookupArgument => instruction.handleLookupArgument

end Instruction

end Plonkish
