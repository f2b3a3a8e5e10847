import Plonkish.Proofs.Circuit.Placement
import Plonkish.Proofs.Machine.Spacing
import Plonkish.Proofs.Program.Agreement

namespace Plonkish

/-!
# Room for a program

The layout of a program counts the rows that are not reserved, and placement
leaves more rows free than the nine of which no column gets any: the last row of
the last column always, and up to two more where a gate would be cut. A program
is checked and exported exactly if there is room for it. With three further
reserved rows there always is room for its cells.
-/

namespace Program

variable {field : PrimeField}

section Handled

variable {policy : Policy} {inputs : List InputValue} {instructions : List Instruction}
variable {start handled : Machine field} {columns : Layout}

/-- A run leaves a machine that was not placed and is satisfied. -/
theorem unplaced_of_handleAll
    (created : Machine.create field policy = .ok start)
    (ended : (handleAll inputs instructions).run start = (.ok (), handled)) :
    handled.Unplaced ∧ handled.Satisfied := by
  have final : ((handleAll inputs instructions).run start).2 = handled :=
    congrArg Prod.snd ended
  have unplaced := handleAll_unplaced inputs instructions start (Machine.unplaced_of_create created)
  have sound := sound_of_handleAll created inputs instructions
  rw [final] at sound
  exact ⟨by rwa [← final], sound.satisfied⟩

/-- The check of a handled program has a result if there is room, and crashes if there is none. -/
theorem run_finish_of_handleAll
    (created : Machine.create field policy = .ok start)
    (ended : (handleAll inputs instructions).run start = (.ok (), handled))
    (laidOut : policy.layout handled.transcript = .ok columns) :
    (Placement.Fits columns (handled.instances.toList.map Array.size) handled.transcript →
        ((Translation.finish true).run handled).1 =
          .ok (Export.ofTranscript columns handled.exposed handled.transcript))
      ∧ (¬Placement.Fits columns (handled.instances.toList.map Array.size) handled.transcript →
        ((Translation.finish true : Translation field (Export field)).run handled).1 =
          .error .crash) := by
  have accepted := (Machine.eq_of_create created).1
  obtain ⟨unplaced, satisfied⟩ := unplaced_of_handleAll created ended
  obtain ⟨-, -, -, someFixed⟩ := Policy.columns_of_layout accepted laidOut
  rw [← policy_of_handleAll created ended] at laidOut
  rw [Translation.run_finish_of_unplaced unplaced.breakPoints satisfied laidOut]
  rw [← Placement.exists_ofTranscript?_iff someFixed]
  constructor
  · rintro ⟨ends, placed⟩
    rw [placed]
  · intro noRoom
    cases placed : Placement.ofTranscript? columns (handled.instances.toList.map Array.size)
        handled.transcript with
    | some ends => exact (noRoom ⟨ends, placed⟩).elim
    | none => rfl

/-- Where there is room for the cells of a handled program, columns hold them. -/
theorem columns_of_handleAll
    (created : Machine.create field policy = .ok start)
    (ended : (handleAll inputs instructions).run start = (.ok (), handled))
    (laidOut : policy.layout handled.transcript = .ok columns)
    (fits : Placement.Fits columns (handled.instances.toList.map Array.size) handled.transcript) :
    (∃ placement : List Placement.Column, placement.length ≤ columns.adviceColumns
        ∧ Placement.Holds placement ((1 <<< policy.k) - unplacedRows) handled.transcript)
      ∧ handled.transcript.size ≤
        columns.adviceColumns * ((1 <<< policy.k) - (unplacedRows + 1)) := by
  obtain ⟨sameSize, someColumn, -, -⟩ :=
    Policy.columns_of_layout (Machine.eq_of_create created).1 laidOut
  obtain ⟨bigEnough, ⟨ends, placed⟩, -, -⟩ := fits
  rw [sameSize] at placed bigEnough
  have rows : 2 ^ 4 ≤ 1 <<< policy.k := by
    rw [Nat.one_shiftLeft]
    exact Nat.pow_le_pow_right (by decide) bigEnough
  constructor
  · have isSpaced := (unplaced_of_handleAll created ended).1.transcript
    exact Placement.exists_columns placed isSpaced (by unfold unplacedRows; omega) someColumn
  · have bounded := Placement.length_le_of_breakPoints? placed
      (by unfold unplacedRows; omega) someColumn (Nat.zero_le _)
    simpa [Transcript.size, Nat.sub_sub] using bounded

/-- With twelve reserved rows, or if that many are left over, there is room for the cells. -/
theorem exists_breakPoints?_of_layout
    {transcript : Transcript field}
    (accepted : policy.validate = .ok ())
    (laidOut : policy.layout transcript = .ok columns)
    (room : transcript.size ≤ columns.adviceColumns * ((1 <<< policy.k) - (unplacedRows + 3))
      ∨ unplacedRows + 3 ≤ policy.minimumRows) :
    ∃ ends, Placement.breakPoints? columns.adviceColumns ((1 <<< policy.k) - unplacedRows) 0 0
      transcript.rows.toList = some ends := by
  obtain ⟨-, -, counted, -⟩ := Policy.columns_of_layout accepted laidOut
  have enough : transcript.size ≤
      columns.adviceColumns * ((1 <<< policy.k) - (unplacedRows + 3)) := by
    rcases room with few | moreReserved
    · exact few
    · exact counted.trans (Nat.mul_le_mul_left _ (Nat.sub_le_sub_left moreReserved _))
  apply Placement.exists_breakPoints?
  simpa [Transcript.size, Nat.sub_sub] using enough

/-- A program that fills the rows of its columns crashes when it is checked. -/
theorem crash_of_full
    (created : Machine.create field policy = .ok start)
    (ended : (handleAll inputs instructions).run start = (.ok (), handled))
    (laidOut : policy.layout handled.transcript = .ok columns)
    (full : columns.adviceColumns * ((1 <<< policy.k) - (unplacedRows + 1)) <
      handled.transcript.size) :
    ((Translation.finish true : Translation field (Export field)).run handled).1 =
      .error .crash := by
  apply (run_finish_of_handleAll created ended laidOut).2
  intro fits
  have bounded := (columns_of_handleAll created ended laidOut fits).2
  exact absurd full (Nat.not_lt.mpr bounded)

/--
A program that was handled is checked and exported exactly if there is room for it.

If there is room, columns of all but nine rows hold the cells in order without a
cut gate, and hold fewer cells than they have rows. If there is none, the check
crashes. There is room for the cells if each column could do with three rows
less, as it can where these are reserved.
-/
theorem finish_of_handleAll
    (created : Machine.create field policy = .ok start)
    (ended : (handleAll inputs instructions).run start = (.ok (), handled))
    (laidOut : policy.layout handled.transcript = .ok columns) :
    (Placement.Fits columns (handled.instances.toList.map Array.size) handled.transcript →
        ((Translation.finish true).run handled).1 =
            .ok (Export.ofTranscript columns handled.exposed handled.transcript)
          ∧ (∃ placement : List Placement.Column, placement.length ≤ columns.adviceColumns
            ∧ Placement.Holds placement ((1 <<< policy.k) - unplacedRows) handled.transcript)
          ∧ handled.transcript.size ≤
            columns.adviceColumns * ((1 <<< policy.k) - (unplacedRows + 1)))
      ∧ (¬Placement.Fits columns (handled.instances.toList.map Array.size) handled.transcript →
        ((Translation.finish true : Translation field (Export field)).run handled).1 =
          .error .crash)
      ∧ (handled.transcript.size ≤
            columns.adviceColumns * ((1 <<< policy.k) - (unplacedRows + 3))
          ∨ unplacedRows + 3 ≤ policy.minimumRows →
        ∃ ends, Placement.breakPoints? columns.adviceColumns
          ((1 <<< policy.k) - unplacedRows) 0 0 handled.transcript.rows.toList = some ends) := by
  obtain ⟨exported, crashes⟩ := run_finish_of_handleAll created ended laidOut
  have room := exists_breakPoints?_of_layout (Machine.eq_of_create created).1 laidOut
  refine ⟨fun fits => ?_, crashes, room⟩
  exact ⟨exported fits, columns_of_handleAll created ended laidOut fits⟩

end Handled

/-- The machine after a selection. -/
def selectedMachine : Machine .bn254Scalar :=
  ((handleAll selection.inputs selection.instructions).run freshMachine).2

/-- A selection takes few cells of one column, so it is checked and exported. -/
theorem selection_finished :
    ∃ columns : Layout,
      Policy.standard.layout selectedMachine.transcript = .ok columns
        ∧ ((Translation.finish true).run selectedMachine).1 =
          .ok (.ofTranscript columns selectedMachine.exposed selectedMachine.transcript) := by
  have created : Machine.create .bn254Scalar .standard = .ok freshMachine := rfl
  have ended : (handleAll selection.inputs selection.instructions).run freshMachine =
      (.ok (), selectedMachine) :=
    Prod.ext (by decide +kernel) rfl
  have laidOut : Policy.standard.layout selectedMachine.transcript = .ok ⟨12, 1, 1, 1⟩ := by
    decide +kernel
  have main := finish_of_handleAll created ended laidOut
  have few : selectedMachine.transcript.size ≤ 1 * ((1 <<< 12) - (unplacedRows + 3)) := by
    decide +kernel
  have fits : Placement.Fits ⟨12, 1, 1, 1⟩ (selectedMachine.instances.toList.map Array.size)
      selectedMachine.transcript := by
    refine ⟨by decide, main.2.2 (.inl few), ?_, ?_⟩
    · decide +kernel
    · decide +kernel
  exact ⟨_, laidOut, (main.1 fits).1⟩

/-- A policy of sixteen rows, nine of which are reserved. -/
def smallPolicy : Policy where
  k := 4
  minimumRows := 9
  maxAdviceColumns := 16
  instanceColumns := 1

/-- A program that binds a vector of seven elements. -/
def sevenElements : Program where
  inputs := [.vector ["1", "2", "3", "4", "5", "6", "7"]]
  instructions := [bindInput ⟨0⟩ 0]

/-- The machine before the first instruction, with the policy of sixteen rows. -/
def smallMachine : Machine .bn254Scalar :=
  ⟨smallPolicy, .empty, .empty, .empty, #[#[]], none⟩

/-- A layout can have too few columns: seven cells fill the seven rows that one has. -/
theorem sevenElements_crash :
    ¬∀ (policy : Policy) (program : Program) (start handled : Machine .bn254Scalar)
      (columns : Layout),
        Machine.create .bn254Scalar policy = .ok start →
        unplacedRows ≤ policy.minimumRows →
        (handleAll program.inputs program.instructions).run start = (.ok (), handled) →
        policy.layout handled.transcript = .ok columns →
          ∃ result, ((Translation.finish true).run handled).1 = .ok result := by
  intro layoutSuffices
  have created : Machine.create .bn254Scalar smallPolicy = .ok smallMachine := rfl
  have ended : (handleAll sevenElements.inputs sevenElements.instructions).run smallMachine =
      (.ok (), ((handleAll sevenElements.inputs sevenElements.instructions).run smallMachine).2) :=
    Prod.ext (by decide +kernel) rfl
  have laidOut : smallPolicy.layout
      ((handleAll sevenElements.inputs sevenElements.instructions).run smallMachine).2.transcript =
        .ok ⟨4, 1, 0, 1⟩ := by
    decide +kernel
  have crashes := crash_of_full created ended laidOut (by decide +kernel)
  obtain ⟨result, finished⟩ :=
    layoutSuffices smallPolicy sevenElements _ _ _ created (by decide) ended laidOut
  rw [finished] at crashes
  cases crashes

end Program

end Plonkish
