import Plonkish.Program.Basic
import Plonkish.Json.Reader
import Plonkish.Json.Printer

namespace Plonkish

/-!
# Documents of programs

Each part of a program has one document that describes it, and several that are
read as it: fields may come in any order, and records may be arrays.
-/

namespace ValueId

def toJson (id : ValueId) : Json :=
  .natural id.number.toNat

def ofJson? (document : Json) : Option ValueId :=
  document.word32?.map ValueId.mk

end ValueId

namespace Constant

def toJson : Constant → Json
  | .integer value => .object [("int", Json.ofWord64 value)]
  | .field kind digits =>
      .object [("field", .object [("kind", kind.toJson), ("value", .text digits)])]
  | .array values => .object [("array", Json.ofList Json.ofWord64 values)]

def ofJson? (document : Json) : Option Constant := do
  let (name, payload) ← document.variant?
  if name = "int" then
    return .integer (← payload.word64?)
  else if name = "field" then
    let [kind, digits] ← payload.fields? ["kind", "value"] | none
    return .field (← FieldKind.ofJson? kind) (← digits.text?)
  else if name = "array" then
    return .array (← payload.list? Json.word64?)
  else
    none

end Constant

namespace Operand

def toJson : Operand → Json
  | .value id type => .object [("value", .object [("id", id.toJson), ("ty", type.toJson)])]
  | .constant content => .object [("constant", content.toJson)]

def ofJson? (document : Json) : Option Operand := do
  let (name, payload) ← document.variant?
  if name = "value" then
    let [id, type] ← payload.fields? ["id", "ty"] | none
    return .value (← ValueId.ofJson? id) (← ValueType.ofJson? type)
  else if name = "constant" then
    return .constant (← Constant.ofJson? payload)
  else
    none

end Operand

namespace Opcode

def toJson (opcode : Opcode) : Json :=
  .text opcode.label

def ofJson? (document : Json) : Option Opcode := do
  let (name, payload) ← document.variant?
  let opcode ← all.find? (·.label = name)
  payload.unit?
  return opcode

end Opcode

namespace Instruction

def toJson (instruction : Instruction) : Json :=
  .object [
    ("id", instruction.id.toJson),
    ("opcode", instruction.opcode.toJson),
    ("operands", Json.ofList Operand.toJson instruction.operands)]

def ofJson? (document : Json) : Option Instruction := do
  let [id, opcode, operands] ← document.fields? ["id", "opcode", "operands"] | none
  return {
    id := ← ValueId.ofJson? id
    opcode := ← Opcode.ofJson? opcode
    operands := ← operands.list? Operand.ofJson?
  }

end Instruction

namespace InputValue

def toJson : InputValue → Json
  | .field element => .object [("field", .text element)]
  | .vector elements => .object [("vector", Json.ofList .text elements)]
  | .curve x y => .object [("curve", .object [("x", .text x), ("y", .text y)])]
  | .array elements => .object [("array", Json.ofList .text elements)]

def ofJson? (document : Json) : Option InputValue := do
  let (name, payload) ← document.variant?
  if name = "field" then
    return .field (← payload.text?)
  else if name = "vector" then
    return .vector (← payload.list? Json.text?)
  else if name = "curve" then
    let [x, y] ← payload.fields? ["x", "y"] | none
    return .curve (← x.text?) (← y.text?)
  else if name = "array" then
    return .array (← payload.list? Json.text?)
  else
    none

end InputValue

namespace Program

def toJson (program : Program) : Json :=
  .object [
    ("inputs", Json.ofList InputValue.toJson program.inputs),
    ("instructions", Json.ofList Instruction.toJson program.instructions)]

def ofJson? (document : Json) : Option Program := do
  let [inputs, instructions] ← document.fields? ["inputs", "instructions"] | none
  return {
    inputs := ← inputs.list? InputValue.ofJson?
    instructions := ← instructions.list? Instruction.ofJson?
  }

/-- The text of a program, with one part on each line. -/
def toText (program : Program) : String :=
  program.toJson.indented

/-- The program that a text describes. -/
def ofText? (text : String) : Option Program := do
  ofJson? (← Json.ofText? text)

end Program

end Plonkish
