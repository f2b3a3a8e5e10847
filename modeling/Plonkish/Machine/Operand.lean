import Plonkish.Field.Text
import Plonkish.Machine.State

namespace Plonkish

/-!
# Operands

How the operands of an instruction are read. Each reader names the position of
the operand, and fails with what is wrong at that position. The declared type of
a value is not consulted: what a value is bound to decides.
-/

namespace Instruction

variable {field : PrimeField}

def malformed (instruction : Instruction) (index : Nat) (fault : OperandFault) :
    Except Failure α :=
  .error (.operand instruction.opcode index fault)

def operand (instruction : Instruction) (index : Nat) : Except Failure Operand :=
  match instruction.operands[index]? with
  | some operand => .ok operand
  | none => instruction.malformed index (.missing instruction.operands.length)

def valueId (instruction : Instruction) (index : Nat) : Except Failure ValueId := do
  match ← instruction.operand index with
  | .value id _ => .ok id
  | .constant _ => instruction.malformed index .constantForValue

def constant (instruction : Instruction) (index : Nat) : Except Failure Constant := do
  match ← instruction.operand index with
  | .constant constant => .ok constant
  | .value id _ => instruction.malformed index (.valueForConstant id)

/-- A size: an integer, or the digits of a field constant of any field. -/
def constantSize (instruction : Instruction) (index : Nat) : Except Failure Nat := do
  match ← instruction.constant index with
  | .integer value => .ok value.toNat
  | .field _ digits =>
      match Numeral.word? digits with
      | some value => .ok value.toNat
      | none => instruction.malformed index (.notSize digits)
  | .array _ => instruction.malformed index .arrayForSize

/-- A list of sizes. -/
def constantVector (instruction : Instruction) (index : Nat) : Except Failure (List UInt64) := do
  match ← instruction.constant index with
  | .array values => .ok values
  | .integer _ | .field _ _ => instruction.malformed index .notArray

/-- A constant of the field of the circuit. -/
def constantElement
    (field : PrimeField)
    (instruction : Instruction)
    (index : Nat) :
    Except Failure (Element field) := do
  match ← instruction.constant index with
  | .integer value => .ok (Element.ofNat field value.toNat)
  | .field kind digits =>
      if field.isNative kind.modulusText then
        match Element.ofDecimal? field digits with
        | some element => .ok element
        | none => instruction.malformed index (.notDecimal digits)
      else
        .error (.unimplemented (.foreignConstant kind))
  | .array _ => instruction.malformed index .arrayForElement

def curveKind (instruction : Instruction) (index : Nat) : Except Failure CurveKind := do
  match (← instruction.operand index).type? with
  | some (.curve kind) => .ok kind
  | other => instruction.malformed index (.notPoint other)

/-- The cell of a scalar operand. -/
def scalar (instruction : Instruction) (index : Nat) : Reading field (Cell field) :=
  fun machine => do machine.frame.scalar (← instruction.valueId index)

/-- The cells of a vector operand. -/
def vector (instruction : Instruction) (index : Nat) : Reading field (List (Cell field)) :=
  fun machine => do machine.frame.vector (← instruction.valueId index)

/-- The cells of a vector operand that has two of them. -/
def pair (instruction : Instruction) (index : Nat) :
    Reading field (Cell field × Cell field) :=
  fun machine => do
    match ← instruction.vector index machine with
    | [first, second] => .ok (first, second)
    | cells =>
        .error (.size (.vectorLength instruction.opcode index cells.length 2))

/-- The address that a cell holds. -/
def addressOf (instruction : Instruction) (index : Nat) (cell : Cell field) :
    Except Failure Nat :=
  match cell.value.word? with
  | some pointer => .ok pointer.toNat
  | none => instruction.malformed index (.notPointer cell.value.toHex)

/-- The address that a scalar operand holds. -/
def pointer (instruction : Instruction) (index : Nat) : Reading field Nat :=
  fun machine => do instruction.addressOf index (← instruction.scalar index machine)

/-- Cells of some number: those of a vector operand, or those in memory behind an address. -/
def inputVector (instruction : Instruction) (index size : Nat) :
    Reading field (List (Cell field)) :=
  fun machine => do
    match ← machine.frame.lookup (← instruction.valueId index) with
    | .vector cells =>
        if cells.length = size then .ok cells
        else .error (.size (.vectorLength instruction.opcode index cells.length size))
    | .scalar cell =>
        machine.memory.loadFrom (← instruction.addressOf index cell) 0 size

end Instruction

end Plonkish
