import Plonkish.Program.Basic

namespace Plonkish

/-!
# Valid programs

A program is valid if every instruction has as many operands as its opcode
takes, refers only to values that were defined before it, and defines a new
value. Validation reports the first defect of the first offending instruction,
in this order.
-/

/-- What makes a program invalid. -/
inductive Defect where
  | arity (id : ValueId) (opcode : Opcode) (found : Nat)
  | useBeforeDefinition (id : ValueId) (operand : ValueId)
  | redefinition (id : ValueId)
  deriving DecidableEq

namespace Defect

def message : Defect → String
  | .arity id opcode found =>
      "instruction " ++ id.label ++ " (" ++ opcode.label ++ ") expects "
        ++ toString opcode.arity ++ " operands, got " ++ toString found
  | .useBeforeDefinition id operand =>
      "instruction " ++ id.label ++ " uses " ++ operand.label ++ " before it is defined"
  | .redefinition id => "value " ++ id.label ++ " is defined more than once"

end Defect

namespace Instruction

/-- The values that an instruction refers to. -/
def uses (instruction : Instruction) : List ValueId :=
  instruction.operands.filterMap Operand.valueId?

/-- The first defect of an instruction after the given values were defined. -/
def defect? (defined : List ValueId) (instruction : Instruction) : Option Defect :=
  if instruction.operands.length ≠ instruction.opcode.arity then
    some (.arity instruction.id instruction.opcode instruction.operands.length)
  else
    match instruction.uses.find? (fun operand => decide (operand ∉ defined)) with
    | some operand => some (.useBeforeDefinition instruction.id operand)
    | none =>
        if instruction.id ∈ defined then some (.redefinition instruction.id) else none

end Instruction

namespace Program

/-- The first defect of instructions that follow the definition of the given values. -/
def firstDefect? (defined : List ValueId) : List Instruction → Option Defect
  | [] => none
  | instruction :: rest =>
      match instruction.defect? defined with
      | some defect => some defect
      | none => firstDefect? (instruction.id :: defined) rest

/-- Check a program. -/
def validate (program : Program) : Except Defect Unit :=
  match firstDefect? [] program.instructions with
  | some defect => .error defect
  | none => .ok ()

end Program

end Plonkish
