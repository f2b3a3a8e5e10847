import Plonkish.Proofs.Machine.Run

namespace Plonkish

/-!
# Sound and complete programs

What the circuit of a whole program says about its values. The circuit leaves
every cell that the program can reach the one value that the run computed, so no
table with another value there satisfies it. The table of the run itself always
satisfies it, so a run is never refused because its circuit is not satisfied.
-/

namespace Machine

variable {field : PrimeField} {machine : Machine field}

/-- A table that satisfies what a sound machine exports has the values of the settled cells. -/
theorem Sound.forced
    (sound : machine.Sound)
    {cell : Cell field}
    (reached : machine.Reaches cell)
    {layout : Layout}
    {advice : List (Element field)}
    (satisfied : (Description.ofTranscript layout machine.exposed machine.transcript).SatisfiedBy
      ⟨advice, machine.exposed.map Cell.value⟩) :
    advice[cell.offset]? = some cell.value := by
  obtain ⟨length, holds, held⟩ := Description.satisfiedBy_ofTranscript.mp satisfied
  have settled := sound.reached cell reached
  have inside : cell.offset < advice.length := by
    rw [length]
    exact settled.recorded.offset_lt
  have forced := settled.forced _ holds held
  rw [Table.assignment, Table.value?, List.getElem?_eq_getElem inside, Option.getD_some] at forced
  rw [List.getElem?_eq_getElem inside, forced]

end Machine

namespace Program

variable {field : PrimeField}

/--
The circuit of a program leaves the cells it can reach no choice.

Whatever satisfies the circuit and the public inputs has the values of the run
in all cells that are bound or stored at the end. In particular, a table in
which one of them is overwritten does not.
-/
theorem reached_forced_of_translate
    {policy : Policy}
    {program : Program}
    {checked : Bool}
    {start final : Machine field}
    {result : Export field}
    (created : Machine.create field policy = .ok start)
    (translated : (program.translate checked).run start = (.ok result, final)) :
    (∀ advice, result.circuit.SatisfiedBy { result.table with advice } →
        ∀ cell, final.Reaches cell → advice[cell.offset]? = some cell.value)
      ∧ ∀ cell, final.Reaches cell →
        result.table.advice[cell.offset]? = some cell.value
          ∧ ∀ value, value ≠ cell.value →
            ¬result.circuit.SatisfiedBy
              { result.table with advice := result.table.advice.set cell.offset value } := by
  obtain ⟨handled, ended, finished⟩ := run_translate translated
  have sound : handled.Sound := by
    have reachedSound := sound_of_handleAll created program.inputs program.instructions
    rwa [ended] at reachedSound
  obtain ⟨columns, -, rfl, sameReach⟩ := Translation.export_of_finish sound finished
  have forced : ∀ advice, (Description.ofTranscript columns handled.exposed
      handled.transcript).SatisfiedBy ⟨advice, handled.exposed.map Cell.value⟩ →
        ∀ cell, final.Reaches cell → advice[cell.offset]? = some cell.value :=
    fun advice satisfied cell reached => sound.forced (sameReach cell reached) satisfied
  have honest : (Description.ofTranscript columns handled.exposed handled.transcript).SatisfiedBy
      (Table.ofTranscript handled.exposed handled.transcript) :=
    sound.consistent.satisfiedBy_ofTranscript sound.records_exposed
  refine ⟨forced, fun cell reached => ⟨forced _ honest cell reached, ?_⟩⟩
  intro value different satisfied
  have overwritten := forced _ satisfied cell reached
  rw [List.getElem?_set_self'] at overwritten
  obtain ⟨_, -, same⟩ := Option.map_eq_some_iff.mp overwritten
  exact different same

/-- A program that selects one of two inputs by a third. -/
def selection : Program where
  inputs := [.field "7", .field "5", .field "0"]
  instructions := [
    ⟨⟨0⟩, .param, [.constant (.integer 0)]⟩,
    ⟨⟨1⟩, .param, [.constant (.integer 1)]⟩,
    ⟨⟨2⟩, .param, [.constant (.integer 2)]⟩,
    ⟨⟨3⟩, .select, [.value ⟨2⟩ (.field .bn254Scalar), .value ⟨0⟩ (.field .bn254Scalar),
      .value ⟨1⟩ (.field .bn254Scalar)]⟩]

/-- The machine before the first instruction, with the policy that holds where none is given. -/
def freshMachine : Machine .bn254Scalar :=
  ⟨.standard, .empty, .empty, .empty, #[#[]], none⟩

theorem selection_translated :
    ∃ result final, (selection.translate true).run freshMachine = (.ok result, final)
      ∧ final.frame.get? ⟨3⟩ = some (.scalar ⟨18, 5⟩) := by
  have succeeds : ((selection.translate true).run freshMachine).1.isOk = true := by
    decide +kernel
  have bound : ((selection.translate true).run freshMachine).2.frame.get? ⟨3⟩ =
      some (.scalar ⟨18, 5⟩) := by
    decide +kernel
  rcases ended : (selection.translate true).run freshMachine with ⟨stop | result, final⟩
  · rw [ended] at succeeds
    cases succeeds
  · rw [ended] at bound
    exact ⟨result, final, rfl, bound⟩

/-- A selection by zero leaves no choice but the second input. -/
theorem selection_forced :
    ∃ (start final : Machine .bn254Scalar) (result : Export .bn254Scalar),
      Machine.create .bn254Scalar .standard = .ok start
        ∧ (selection.translate true).run start = (.ok result, final)
        ∧ ∀ advice, result.circuit.SatisfiedBy { result.table with advice } →
          advice[18]? = some 5 := by
  obtain ⟨result, final, translated, bound⟩ := selection_translated
  have created : Machine.create .bn254Scalar .standard = .ok freshMachine := rfl
  refine ⟨freshMachine, final, result, created, translated, fun advice satisfied => ?_⟩
  have reached : final.Reaches ⟨18, 5⟩ := .inl ⟨⟨3⟩, _, bound, List.mem_singleton_self _⟩
  exact (reached_forced_of_translate created translated).1 advice satisfied _ reached

/--
A run is never refused because its circuit is not satisfied.

Whatever the instructions and their inputs are, the table that is exported with
a circuit satisfies it, and the circuit mentions no cell that there is not.
-/
theorem satisfied_of_create
    {policy : Policy}
    {start : Machine field}
    (created : Machine.create field policy = .ok start)
    (program : Program) :
    (∀ handled, (handleAll program.inputs program.instructions).run start = (.ok (), handled) →
        ∀ checked result final,
          (Translation.finish checked).run handled = (.ok result, final) →
            result.circuit.InRange ∧ result.circuit.SatisfiedBy result.table)
      ∧ ∀ checked,
        ((program.translate checked).run start).1 ≠ .error Translation.unsatisfied := by
  have soundEnd := sound_of_handleAll created program.inputs program.instructions
  refine ⟨fun handled ended checked result final finished => ?_, fun checked => ?_⟩
  · rw [ended] at soundEnd
    obtain ⟨columns, -, rfl, -⟩ := Translation.export_of_finish soundEnd finished
    exact ⟨Description.inRange_ofTranscript soundEnd.consistent soundEnd.records_exposed,
      soundEnd.consistent.satisfiedBy_ofTranscript soundEnd.records_exposed⟩
  · have noReport := handleAll_reports created program.inputs program.instructions
    unfold translate
    rw [run_bind]
    rcases ended : (handleAll program.inputs program.instructions).run start with
      ⟨stop | ⟨⟩, handled⟩
    · rw [ended] at noReport
      intro report
      exact noReport (congrArg Except.error (Except.error.inj report))
    · rw [ended] at soundEnd
      rcases Translation.run_finish soundEnd checked with
        ⟨stop, otherStop, refused⟩ | ⟨columns, breakPoints, -, exported⟩
      · intro report
        change ((Translation.finish checked).run handled).1 = _ at report
        rw [refused] at report
        exact otherStop (Except.error.inj report)
      · intro report
        change ((Translation.finish checked).run handled).1 = _ at report
        rw [exported] at report
        cases report

/-- The table of a selection satisfies its circuit. -/
theorem selection_satisfied :
    ∃ (start : Machine .bn254Scalar) (result : Export .bn254Scalar) (final : Machine .bn254Scalar),
      Machine.create .bn254Scalar .standard = .ok start
        ∧ (selection.translate true).run start = (.ok result, final)
        ∧ result.circuit.InRange ∧ result.circuit.SatisfiedBy result.table := by
  obtain ⟨result, final, translated, -⟩ := selection_translated
  have created : Machine.create .bn254Scalar .standard = .ok freshMachine := rfl
  obtain ⟨handled, ended, finished⟩ := run_translate translated
  exact ⟨freshMachine, result, final, created, translated,
    (satisfied_of_create created selection).1 handled ended true result final finished⟩

end Program

end Plonkish
