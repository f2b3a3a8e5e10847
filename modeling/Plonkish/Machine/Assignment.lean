import Plonkish.Config
import Plonkish.Machine.Handler

namespace Plonkish

/-!
# Whole programs

A program is assigned by translating its instructions in order on a new machine
and exporting the circuit. The first failure ends the translation.
-/

namespace Program

variable {field : PrimeField}

/-- Translate instructions in order. -/
def handleAll (inputs : List InputValue) : List Instruction → Translation field Unit
  | [] => pure ()
  | instruction :: rest => do
      instruction.handle inputs
      handleAll inputs rest

/-- Translate all instructions and export the circuit. -/
def translate (program : Program) (checked : Bool) : Translation field (Export field) := do
  handleAll program.inputs program.instructions
  Translation.finish checked

/-- Check a policy and a program, and assign the program. -/
def assign
    (field : PrimeField)
    (config : Config)
    (program : Program) :
    Except (Stop Failure) (Export field) := do
  match Machine.create field config.policy with
  | .error failure => .error (.report (.circuit failure))
  | .ok machine =>
      match program.validate with
      | .error defect => .error (.report (.defect defect))
      | .ok () => ((program.translate config.checked).run machine).1

end Program

end Plonkish
