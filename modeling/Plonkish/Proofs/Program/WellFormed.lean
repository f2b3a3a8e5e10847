import Plonkish.Proofs.Circuit.WellFormed
import Plonkish.Proofs.Program.Placement
import Plonkish.Proofs.Program.PublicInputs

namespace Plonkish

/-!
# Well-formed circuits of programs

Whichever instructions were handled, and in whichever order, the circuit that is
exported for them is well-formed. What a reader of the description relies on when
it splits the cells into columns therefore needs no check.
-/

namespace Program

variable {field : PrimeField} {policy : Policy} {inputs : List InputValue}
variable {instructions : List Instruction} {start handled : Machine field}

/--
The circuit of instructions that were handled is well-formed.

Gates, copies and constants increase strictly, every cell that is mentioned is
there, gates overlap in one cell at most, no cell is tied to itself or fixed to
two constants, the texts of constants are read back, and public inputs are
different cells.
-/
theorem wellFormed_of_handleAll
    (created : Machine.create field policy = .ok start)
    (ended : (handleAll inputs instructions).run start = (.ok (), handled))
    {checked : Bool}
    {result : Export field}
    {final : Machine field}
    (finished : (Translation.finish checked).run handled = (.ok result, final)) :
    result.circuit.WellFormed field := by
  have sound := (reachable_of_handleAll (.create created) ended).sound
  obtain ⟨columns, -, rfl, -⟩ := Translation.export_of_finish sound finished
  obtain ⟨numbers, runs⟩ := exists_runExposes_of_create created ended
  exact Description.wellFormed_ofTranscript sound.consistent
    (unplaced_of_handleAll created ended).1.transcript sound.records_exposed runs.increasing

/-- The circuit of a selection is well-formed. -/
theorem selection_wellFormed :
    ∃ (result : Export .bn254Scalar) (final : Machine .bn254Scalar),
      (selection.translate true).run freshMachine = (.ok result, final)
        ∧ result.circuit.WellFormed .bn254Scalar := by
  obtain ⟨result, final, translated, -⟩ := selection_translated
  have created : Machine.create .bn254Scalar .standard = .ok freshMachine := rfl
  obtain ⟨handled, ended, finished⟩ := run_translate translated
  exact ⟨result, final, translated, wellFormed_of_handleAll created ended finished⟩

end Program

end Plonkish
