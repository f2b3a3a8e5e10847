import Plonkish.Proofs.Machine.Binding
import Plonkish.Proofs.Program.Agreement

namespace Plonkish

/-!
# Refusals of instructions

An instruction that is refused leaves the machine as it was. That is so for every
opcode but `param`, which has exposed the elements of an array when it finds that
there is no memory for them.
-/

namespace Instruction

variable {field : PrimeField}

/--
A refused instruction changes nothing, unless it binds an input.

The frame, the memory, everything that was laid out and everything that was
exposed are what they were before it, whichever of its checks refused it.
-/
theorem unchanged_of_refused
    {instruction : Instruction}
    {inputs : List InputValue}
    {machine after : Machine field}
    {failure : Failure}
    (notParam : instruction.opcode ≠ .param)
    (refused : (instruction.handle inputs).run machine = (.error (.report failure), after)) :
    after = machine :=
  (instruction.handle_refusesAs machine inputs notParam failure after refused).1

end Instruction

namespace Program

/-- An array of three elements, and an index that needs three bits. -/
def arrayAndIndex : List InputValue :=
  [.array ["1", "2", "3"], .field "7"]

/-- Write the coset of an index of two bits where an array is. -/
def writeCosets : Instruction :=
  ⟨⟨2⟩, .friCosets, [.value ⟨0⟩ .pointer, .constant (.integer 1), .constant (.integer 5),
    .constant (.integer 2), .value ⟨1⟩ (.field .bn254Scalar)]⟩

/-- The machine after an array and an index were bound. -/
def indexedMachine : Machine .bn254Scalar :=
  after arrayAndIndex (bindInput ⟨1⟩ 1) (after arrayAndIndex (bindInput ⟨0⟩ 0) freshMachine)

/-- An index that is too wide is refused last of all, and still nothing has changed. -/
theorem writeCosets_unchanged :
    (writeCosets.handle arrayAndIndex).run indexedMachine =
      (.error (.report (.circuit (.valueRange (7 : Element .bn254Scalar).toHex 2))),
        indexedMachine) := by
  have refused : ((writeCosets.handle arrayAndIndex).run indexedMachine).1 =
      .error (.report (.circuit (.valueRange (7 : Element .bn254Scalar).toHex 2))) := by
    decide +kernel
  have notParam : writeCosets.opcode ≠ .param := by decide
  rcases ended : (writeCosets.handle arrayAndIndex).run indexedMachine with ⟨outcome, after⟩
  rw [ended] at refused
  obtain rfl : outcome = _ := refused
  obtain rfl := Instruction.unchanged_of_refused notParam ended
  rfl

end Program

end Plonkish
