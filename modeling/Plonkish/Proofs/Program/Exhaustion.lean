import Plonkish.Proofs.Machine.Exposure
import Plonkish.Proofs.Program.Effect

namespace Plonkish

/-!
# Inputs for which there is no memory

An input that cannot be bound leaves the machine as it was, with one exception:
the elements of an array are exposed before memory is allocated for them. If
there is too little memory left, the frame and the memory are as before, but the
cells of the elements stay, and so do the public inputs.
-/

/-- Elements have become public inputs in new cells, and nothing else has changed. -/
structure Machine.ExposesOnly
    {field : PrimeField}
    (machine : Machine field)
    (elements : List (Element field))
    (after : Machine field) :
    Prop where
  frame : after.frame = machine.frame
  memory : after.memory = machine.memory
  policy : after.policy = machine.policy
  breakPoints : after.breakPoints = machine.breakPoints
  /-- There is a new cell for each element, and no gate starts at one. -/
  rows : after.transcript.rows.toList =
    machine.transcript.rows.toList ++ elements.map (Row.mk · false)
  copies : after.transcript.copies = machine.transcript.copies
  constants : after.transcript.constants = machine.transcript.constants
  /-- The new cells are exposed in order, behind what was exposed before. -/
  exposed : after.exposed =
    machine.exposed ++ elements.mapIdx fun index element =>
      ⟨machine.transcript.size + index, element⟩
  columns : after.instances.toList.tail = machine.instances.toList.tail

namespace Instruction

variable {field : PrimeField} {inputs : List InputValue} {instruction : Instruction}
variable {machine : Machine field} {elements : List (Element field)}

/-- The input that is named is an array of elements, for which there is too little memory left. -/
def Overflows
    (inputs : List InputValue)
    (instruction : Instruction)
    (machine : Machine field)
    (elements : List (Element field)) :
    Prop :=
  ∃ texts, instruction.inputElements field inputs = .ok (.array texts, elements)
    ∧ memoryLimit < machine.memory.size + elements.length

/-- Only the elements are exposed by what comes first when an input is bound. -/
theorem exposesOnly_exposedMachine (columns : 0 < machine.instances.size) :
    machine.ExposesOnly elements (exposedMachine elements machine) := by
  obtain ⟨first, rest, isColumns⟩ := exists_first_column columns
  have newColumns := columns_exposedMachine elements isColumns
  have transcript : (exposedMachine elements machine).transcript =
      (Synthesis.witnesses elements machine.transcript).2 := rfl
  rw [Synthesis.run_witnesses] at newColumns transcript
  exact {
    frame := rfl
    memory := rfl
    policy := rfl
    breakPoints := rfl
    rows := by rw [transcript, Array.toList_appendList]
    copies := by rw [transcript]
    constants := by rw [transcript]
    exposed := by
      rw [exposed_eq_of_toList newColumns, exposed_eq_of_toList isColumns, Array.toList_appendList]
    columns := by rw [newColumns, isColumns]; rfl
  }

/-- An array for which there is too little memory is exposed, and then refused. -/
theorem run_handle_of_overflows
    (opcode : instruction.opcode = .param)
    (overflows : instruction.Overflows inputs machine elements) :
    (instruction.handle inputs).run machine =
      (.error (.report (.memory machine.memory.size .exhausted)),
        exposedMachine elements machine) := by
  obtain ⟨texts, read, full⟩ := overflows
  have exhausted : machine.memory.allocate elements.length field.elementBytes =
      .error (.memory machine.memory.size .exhausted) :=
    Memory.allocate_eq_error_iff.mpr ⟨full, rfl⟩
  rw [handle, opcode]
  dsimp only
  rw [run_handleParam_of_array read, exhausted]

/-- What cannot be bound was refused before anything was done, or there is no memory for it. -/
theorem eq_or_overflows_of_ends
    {failure : Failure}
    {after : Machine field}
    (ends : Ends inputs instruction machine (.error (.report failure), after)) :
    after = machine ∨ ∃ elements, instruction.Overflows inputs machine elements := by
  cases ends with
  | refused => exact .inl rfl
  | @exhausted texts elements opcode read full => exact .inr ⟨elements, texts, read, full⟩

/--
An input that is refused leaves frame and memory as they were, and everything
else as well unless it is an array for which there is too little memory left.
Such an array is always refused, and leaves its elements in new cells that are
public inputs.
-/
theorem unchanged_iff_of_refusedInput
    {policy : Policy}
    (reachable : machine.Reachable policy)
    (opcode : instruction.opcode = .param) :
    (∀ failure after,
      (instruction.handle inputs).run machine = (.error (.report failure), after) →
        after.frame = machine.frame ∧ after.memory = machine.memory
          ∧ (after = machine ↔ ¬∃ elements, instruction.Overflows inputs machine elements))
      ∧ ∀ elements, instruction.Overflows inputs machine elements →
        ∃ after,
          (instruction.handle inputs).run machine =
              (.error (.report (.memory machine.memory.size .exhausted)), after)
            ∧ machine.ExposesOnly elements after := by
  have exposes : ∀ elements, instruction.Overflows inputs machine elements →
      machine.ExposesOnly elements (exposedMachine elements machine) :=
    fun _ _ => exposesOnly_exposedMachine reachable.sound.columns
  refine ⟨fun failure after refused => ?_, fun elements overflows =>
    ⟨_, run_handle_of_overflows opcode overflows, exposes elements overflows⟩⟩
  have ends := reachable.ends inputs instruction
  rw [refused] at ends
  obtain ⟨sameFrame, sameMemory⟩ := unbound_of_ends ends nofun
  refine ⟨sameFrame, sameMemory, ?_, fun noOverflow =>
    (eq_or_overflows_of_ends ends).resolve_right noOverflow⟩
  rintro rfl ⟨elements, overflows⟩
  -- There are elements, since memory is never larger than its limit.
  have nonempty : 0 < elements.length := by
    obtain ⟨-, -, full⟩ := overflows
    have within := reachable.memory_bounds.2
    omega
  have exposed := (exposes elements overflows).exposed
  rw [run_handle_of_overflows opcode overflows] at refused
  rw [(Prod.mk.inj refused).2] at exposed
  have longer := congrArg List.length exposed
  rw [List.length_append, List.length_mapIdx] at longer
  omega

end Instruction

namespace Machine

/-- The machine after all of memory was allocated. -/
def fullMachine : Machine .bn254Scalar :=
  ((allocateAll.handle []).run Program.freshMachine).2

theorem fullMachine_reachable : fullMachine.Reachable .standard :=
  have created : create .bn254Scalar .standard = .ok Program.freshMachine := rfl
  (Reachable.create created).handle [] allocateAll

/-- Two elements for which there is no memory stay; an input that is not there leaves nothing. -/
theorem unchanged_iff_of_refusedInput_fullMachine :
    (∃ after,
      (bindArray.handle [.array ["7", "8"]]).run fullMachine =
          (.error (.report (.memory 16777216 .exhausted)), after)
        ∧ after.exposed = [⟨1, 7⟩, ⟨2, 8⟩]
        ∧ after.frame = fullMachine.frame ∧ after.memory = fullMachine.memory)
      ∧ (bindArray.handle []).run fullMachine =
        (.error (.report (.unknownInput 0)), fullMachine) := by
  constructor
  · have overflows : bindArray.Overflows [.array ["7", "8"]] fullMachine [7, 8] :=
      ⟨["7", "8"], by rfl, by decide +kernel⟩
    obtain ⟨-, leaves⟩ := @Instruction.unchanged_iff_of_refusedInput _
      [.array ["7", "8"]] bindArray _ _ fullMachine_reachable rfl
    obtain ⟨after, refused, only⟩ := leaves [7, 8] overflows
    exact ⟨after, refused, only.exposed.trans (by decide +kernel), only.frame, only.memory⟩
  · have refused : ((bindArray.handle []).run fullMachine).1 =
        .error (.report (.unknownInput 0)) := by decide +kernel
    obtain ⟨unchanged, -⟩ := @Instruction.unchanged_iff_of_refusedInput _
      [] bindArray _ _ fullMachine_reachable rfl
    rcases ended : (bindArray.handle []).run fullMachine with ⟨outcome, after⟩
    rw [ended] at refused
    obtain rfl : outcome = _ := refused
    obtain ⟨-, -, same⟩ := unchanged _ after ended
    rw [same.mpr]
    rintro ⟨elements, texts, read, -⟩
    cases read

/-- An array that is refused for want of memory has been laid out and exposed before. -/
theorem bindArray_leaves_elements :
    ¬∀ (machine : Machine .bn254Scalar) (inputs : List InputValue) (instruction : Instruction)
      (failure : Failure) (after : Machine .bn254Scalar),
      machine.Reachable .standard → instruction.opcode = .param →
        (instruction.handle inputs).run machine = (.error (.report failure), after) →
          after.transcript.size = machine.transcript.size ∧ after.exposed = machine.exposed
            ∧ after.memory = machine.memory ∧ after.frame = machine.frame := by
  intro allOrNothing
  have refused : ((bindArray.handle [.array ["7", "8"]]).run fullMachine).1 =
      .error (.report (.memory 16777216 .exhausted)) := by decide +kernel
  have size : fullMachine.transcript.size = 1 := by decide +kernel
  have sizeAfter :
      ((bindArray.handle [.array ["7", "8"]]).run fullMachine).2.transcript.size = 3 := by
    decide +kernel
  rcases ended : (bindArray.handle [.array ["7", "8"]]).run fullMachine with ⟨outcome, after⟩
  rw [ended] at refused sizeAfter
  obtain rfl : outcome = _ := refused
  have unchanged := allOrNothing fullMachine _ bindArray _ after fullMachine_reachable rfl ended
  have same : after.transcript.size = 1 := unchanged.1.trans size
  rw [sizeAfter] at same
  cases same

end Machine

end Plonkish
