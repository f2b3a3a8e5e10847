import Plonkish.Program.Document
import Plonkish.Proofs.Json.Encoding

namespace Plonkish

/-!
# Programs are read back from their text

Each part of a program has a readable document, which is read as that part:
the names of its kinds and of its opcodes are different, its numbers have their
width, and its records hold all of their fields.
-/

namespace FieldKind

@[simp] theorem readable_toJson (kind : FieldKind) : kind.toJson.Readable := by
  simp [toJson]

@[simp] theorem ofJson?_toJson (kind : FieldKind) : ofJson? kind.toJson = some kind := by
  cases kind <;> rfl

end FieldKind

namespace CurveKind

@[simp] theorem readable_toJson (kind : CurveKind) : kind.toJson.Readable := by
  simp [toJson]

@[simp] theorem ofJson?_toJson (kind : CurveKind) : ofJson? kind.toJson = some kind := by
  cases kind <;> rfl

end CurveKind

namespace ValueType

@[simp] theorem readable_toJson (type : ValueType) : type.toJson.Readable := by
  cases type <;> simp [toJson]

@[simp] theorem ofJson?_toJson (type : ValueType) : ofJson? type.toJson = some type := by
  cases type <;> simp [toJson, ofJson?, Json.fields?, Json.onlyMember?]

end ValueType

namespace ValueId

@[simp] theorem readable_toJson (id : ValueId) : id.toJson.Readable := by
  simp [toJson]

@[simp] theorem ofJson?_toJson (id : ValueId) : ofJson? id.toJson = some id := by
  simp [toJson, ofJson?]

end ValueId

namespace Constant

@[simp] theorem readable_toJson (content : Constant) : content.toJson.Readable := by
  cases content <;> simp [toJson]

@[simp] theorem ofJson?_toJson (content : Constant) : ofJson? content.toJson = some content := by
  cases content with
  | integer value => simp [toJson, ofJson?]
  | field kind digits => simp [toJson, ofJson?, Json.fields?, Json.onlyMember?]
  | array values =>
      have readsBack := Json.list?_ofList Json.word64?_ofWord64 values
      simp [toJson, ofJson?, readsBack]

end Constant

namespace Operand

@[simp] theorem readable_toJson (operand : Operand) : operand.toJson.Readable := by
  cases operand <;> simp [toJson]

@[simp] theorem ofJson?_toJson (operand : Operand) : ofJson? operand.toJson = some operand := by
  cases operand <;> simp [toJson, ofJson?, Json.fields?, Json.onlyMember?]

end Operand

namespace Opcode

@[simp] theorem readable_toJson (opcode : Opcode) : opcode.toJson.Readable := by
  simp [toJson]

@[simp] theorem ofJson?_toJson (opcode : Opcode) : ofJson? opcode.toJson = some opcode := by
  cases opcode <;> rfl

end Opcode

namespace Instruction

@[simp] theorem readable_toJson (instruction : Instruction) : instruction.toJson.Readable := by
  simp [toJson]

@[simp] theorem ofJson?_toJson (instruction : Instruction) :
    ofJson? instruction.toJson = some instruction := by
  have operands := Json.list?_ofList Operand.ofJson?_toJson instruction.operands
  simp [toJson, ofJson?, Json.fields?, Json.onlyMember?, operands]

end Instruction

namespace InputValue

@[simp] theorem readable_toJson (input : InputValue) : input.toJson.Readable := by
  cases input <;> simp [toJson]

@[simp] theorem ofJson?_toJson (input : InputValue) : ofJson? input.toJson = some input := by
  have elements := Json.list?_ofList Json.text?_text
  cases input <;> simp [toJson, ofJson?, Json.fields?, Json.onlyMember?, elements]

end InputValue

namespace Program

/-- A program can be read from its document. -/
theorem readable_toJson (program : Program) : program.toJson.Readable := by
  simp [toJson]

/-- A program is read back from its document. -/
theorem ofJson?_toJson (program : Program) : ofJson? program.toJson = some program := by
  have inputs := Json.list?_ofList InputValue.ofJson?_toJson program.inputs
  have instructions := Json.list?_ofList Instruction.ofJson?_toJson program.instructions
  simp [toJson, ofJson?, Json.fields?, Json.onlyMember?, inputs, instructions]

/-- Every program is read back from its text. -/
theorem ofText?_toText (program : Program) : ofText? program.toText = some program := by
  unfold ofText? toText
  rw [Json.ofText?_indented program.readable_toJson]
  exact program.ofJson?_toJson

end Program

end Plonkish
