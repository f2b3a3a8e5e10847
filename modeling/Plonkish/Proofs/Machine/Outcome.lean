import Plonkish.Proofs.Gadget.GroupLaw
import Plonkish.Proofs.Gadget.LookupCompletion
import Plonkish.Proofs.Machine.Justification
import Plonkish.Proofs.Machine.Memory
import Plonkish.Proofs.Machine.Run
import Plonkish.Proofs.Machine.StepAgreement

namespace Plonkish

/-!
# Outcomes of instructions

Everything that the translation of an instruction can come to, with the machine
that it leaves. An instruction that is refused leaves the machine alone, but for
an array that was exposed and for which there is no memory. There is one way to
crash: a lookup argument that needs more powers than can be held. What is known
of frames, of memory and of refusals after a step is read off these cases.
-/

namespace Translation

variable {field : PrimeField} {machine : Machine field}

/-- After an outcome without a state the translation goes on in the same machine, or stops in it. -/
theorem run_ofExcept_bind (outcome : Except Failure α) (next : α → Translation field β) :
    (ofExcept outcome >>= next).run machine =
      match outcome with
      | .ok result => (next result).run machine
      | .error failure => (.error (.report failure), machine) := by
  cases outcome <;> rfl

/-- After operands were read the translation goes on in the same machine, or stops in it. -/
theorem run_read_bind (reading : Reading field α) (next : α → Translation field β) :
    (read reading >>= next).run machine =
      match reading machine with
      | .ok result => (next result).run machine
      | .error failure => (.error (.report failure), machine) := by
  unfold read
  rw [bind_assoc, run_bind, run_get]
  exact run_ofExcept_bind (reading machine) next

/-- After an allocation the translation goes on with the new memory, or stops as it was. -/
theorem run_allocate_bind (count bytes : Nat) (next : Nat → Translation field β) :
    (allocate count bytes >>= next).run machine =
      match machine.memory.allocate count bytes with
      | .ok (pointer, memory) => (next pointer).run { machine with memory }
      | .error failure => (.error (.report failure), machine) := by
  rw [run_bind, run_allocate]
  cases machine.memory.allocate count bytes <;> rfl

/-- After a store the translation goes on with the new memory, or stops as it was. -/
theorem run_storeAll_bind
    (pointer : Nat)
    (cells : List (Cell field))
    (next : Unit → Translation field β) :
    (storeAll pointer cells >>= next).run machine =
      match machine.memory.storeAll pointer cells with
      | .ok memory => (next ()).run { machine with memory }
      | .error failure => (.error (.report failure), machine) := by
  rw [run_bind, run_storeAll]
  cases machine.memory.storeAll pointer cells <;> rfl

/-- After a gadget the translation goes on with its cells, or stops with those it has laid out. -/
theorem run_assemble_bind (assembly : Assembly field α) (next : α → Translation field β) :
    (assemble assembly >>= next).run machine =
      match assembly.run machine.transcript with
      | (.ok result, transcript) => (next result).run { machine with transcript }
      | (.error stop, transcript) => (.error (stop.map .circuit), { machine with transcript }) := by
  rw [run_bind, run_assemble]
  rcases assembly.run machine.transcript with ⟨stop | result, transcript⟩ <;> rfl

end Translation

/-- There is a cell for each value of the prover's choice. -/
theorem Synthesis.length_witnesses
    {field : PrimeField}
    (values : List (Element field))
    (transcript : Transcript field) :
    (witnesses values transcript).1.length = values.length := by
  induction values generalizing transcript with
  | nil => rfl
  | cons value rest inductionHypothesis =>
      rw [witnesses, List.mapM_cons]
      exact congrArg Nat.succ (inductionHypothesis _)

/-- A round has three cells. -/
theorem CosetCells.length_flatMap_toList
    {field : PrimeField}
    (rounds : List (CosetCells field)) :
    (rounds.flatMap toList).length = 3 * rounds.length := by
  induction rounds with
  | nil => rfl
  | cons round rest inductionHypothesis =>
      simp only [List.flatMap_cons, List.length_append, List.length_cons, inductionHypothesis]
      simp only [toList, List.length_cons, List.length_nil]
      omega

/-- What an input is bound to; an array is bound by its address. -/
def InputValue.slotKind : InputValue → SlotKind
  | .field _ | .array _ => .scalar
  | .vector _ | .curve _ _ => .vector

namespace Instruction

variable {field : PrimeField}

/-- The machine after the name of an instruction was bound to an address. -/
def addressMachine
    (instruction : Instruction)
    (pointer : Nat)
    (machine : Machine field) :
    Machine field :=
  ((instruction.bindAddress pointer).run machine).2

/-- What the translation of an instruction ends with, and in which machine. -/
inductive Ends
    (inputs : List InputValue)
    (instruction : Instruction)
    (machine : Machine field) :
    Except (Stop Failure) Unit × Machine field → Prop
  /-- Nothing has changed, and what is said about a name or the width of a cell is so. -/
  | refused
      {failure : Failure}
      (explained : instruction.Explains machine failure) :
      Ends inputs instruction machine (.error (.report failure), machine)
  /-- There is no memory for an array, whose elements are exposed all the same. -/
  | exhausted
      {texts : List String}
      {elements : List (Element field)}
      (opcode : instruction.opcode = .param)
      (read : instruction.inputElements field inputs = .ok (.array texts, elements))
      (full : memoryLimit < machine.memory.size + elements.length) :
      Ends inputs instruction machine
        (.error (.report (.memory machine.memory.size .exhausted)),
          exposedMachine elements machine)
  /-- A lookup argument needs more powers than can be held. -/
  | unreserved
      {shape : LookupShape}
      (transcript : Transcript field)
      (opcode : instruction.opcode = .lookupArgument)
      (shaped : instruction.lookupShape = .ok shape)
      (tooMany : Gadget.largestReserve < shape.sizes.widest) :
      Ends inputs instruction machine (.error .crash, { machine with transcript })
  | boundInput
      {input : InputValue}
      {elements : List (Element field)}
      {slot : Slot field}
      (opcode : instruction.opcode = .param)
      (read : instruction.inputElements field inputs = .ok (input, elements))
      (notArray : ∀ texts, input ≠ .array texts)
      (kind : slot.kind = input.slotKind)
      (cells : slot.cells = (Synthesis.witnesses elements machine.transcript).1) :
      Ends inputs instruction machine
        (.ok (), {
          exposedMachine elements machine with
          frame := machine.frame.bind instruction.id slot
        })
  | boundArray
      {texts : List String}
      {elements : List (Element field)}
      {pointer : Nat}
      {allocated memory : Memory field}
      (opcode : instruction.opcode = .param)
      (read : instruction.inputElements field inputs = .ok (.array texts, elements))
      (allocates :
        machine.memory.allocate elements.length field.elementBytes = .ok (pointer, allocated))
      (stores : allocated.storeAll pointer
        (Synthesis.witnesses elements machine.transcript).1 = .ok memory) :
      Ends inputs instruction machine
        (.ok (), instruction.addressMachine pointer
          { exposedMachine elements machine with memory })
  | allocated
      {count pointer : Nat}
      {memory : Memory field}
      (opcode : instruction.opcode = .alloca)
      (counted : instruction.constantSize 0 = .ok count)
      (allocates : machine.memory.allocate count field.elementBytes = .ok (pointer, memory)) :
      Ends inputs instruction machine
        (.ok (), instruction.addressMachine pointer { machine with memory })
  | loaded
      {cell : Cell field}
      (opcode : instruction.opcode = .load)
      (read : instruction.loadOperands machine = .ok cell) :
      Ends inputs instruction machine
        (.ok (), { machine with frame := machine.frame.bind instruction.id (.scalar cell) })
  | selected
      {condition whenTrue whenFalse : Cell field}
      (opcode : instruction.opcode = .select)
      (readCondition : instruction.scalar 0 machine = .ok condition)
      (readTrue : instruction.scalar 1 machine = .ok whenTrue)
      (readFalse : instruction.scalar 2 machine = .ok whenFalse) :
      Ends inputs instruction machine
        (.ok (), {
          machine with
          transcript := (Gadget.select condition whenTrue whenFalse machine.transcript).2
          frame := machine.frame.bind instruction.id
            (.scalar (Gadget.select condition whenTrue whenFalse machine.transcript).1)
        })
  | added
      {left right sum : PointCells field}
      {transcript : Transcript field}
      (opcode : instruction.opcode = .curveAdd)
      (read : instruction.pointOperands machine = .ok (left, right))
      (computed : (Gadget.addPoints left right).run machine.transcript = (.ok sum, transcript)) :
      Ends inputs instruction machine
        (.ok (), {
          machine with
          transcript
          frame := machine.frame.bind instruction.id (.vector [sum.x, sum.y])
        })
  | wroteCosets
      {result resultLength totalBits : Nat}
      {root : Element field}
      {index : Cell field}
      {shape : CosetShape field}
      {rounds : List (CosetCells field)}
      {transcript : Transcript field}
      {memory : Memory field}
      (opcode : instruction.opcode = .friCosets)
      (read : instruction.cosetOperands machine =
        .ok (result, resultLength, root, totalBits, index))
      (made : CosetShape.make resultLength totalBits root = .ok shape)
      (checked : checkResultRange machine.memory result resultLength = .ok ())
      (computed : (Gadget.cosets shape index).run machine.transcript = (.ok rounds, transcript))
      (counted : rounds.length = resultLength)
      (stores : machine.memory.storeAll result (rounds.flatMap CosetCells.toList) =
        .ok memory) :
      Ends inputs instruction machine (.ok (), { machine with transcript, memory })
  | evaluatedGates
      {shape : GateShape}
      {input : GateCells field}
      {cell : Cell field}
      {transcript : Transcript field}
      (opcode : instruction.opcode = .gateArgument)
      (read : instruction.gateOperands machine = .ok (shape, input))
      (computed : (Gadget.gateArgument shape input).run machine.transcript =
        (.ok cell, transcript)) :
      Ends inputs instruction machine
        (.ok (), {
          machine with
          transcript
          frame := machine.frame.bind instruction.id (.scalar cell)
        })
  | evaluatedLookups
      {shape : LookupShape}
      {input : LookupCells field}
      {result : LookupResult field}
      {transcript : Transcript field}
      (opcode : instruction.opcode = .lookupArgument)
      (shaped : instruction.lookupShape = .ok shape)
      (read : instruction.lookupCells machine = .ok input)
      (computed : (Gadget.lookupArgument shape input).run machine.transcript =
        (.ok result, transcript)) :
      Ends inputs instruction machine
        (.ok (), {
          machine with
          transcript
          frame := machine.frame.bind instruction.id (.vector result.toList)
        })

section Handlers

open Translation

variable {inputs : List InputValue} {instruction : Instruction} {machine : Machine field}

/-- An allocation reserves the cells, or changes nothing. -/
theorem handleAlloca_ends (opcode : instruction.opcode = .alloca) :
    Ends inputs instruction machine (instruction.handleAlloca.run machine) := by
  unfold handleAlloca
  rw [run_ofExcept_bind]
  cases counted : instruction.constantSize 0 with
  | error failure =>
      exact .refused (instruction.constantSize_justly machine 0 failure counted)
  | ok count =>
      dsimp only
      rw [run_allocate_bind]
      cases allocates : machine.memory.allocate count field.elementBytes with
      | error failure =>
          have justly := instruction.allocate_justly machine machine.memory count field.elementBytes
          exact .refused (justly failure allocates)
      | ok placed => exact .allocated opcode counted allocates

/-- A load binds the cell, or changes nothing. -/
theorem handleLoad_ends (opcode : instruction.opcode = .load) :
    Ends inputs instruction machine (instruction.handleLoad.run machine) := by
  unfold handleLoad
  rw [run_read_bind]
  cases read : instruction.loadOperands machine with
  | error failure => exact .refused (instruction.loadOperands_justly machine failure read)
  | ok cell => exact .loaded opcode read

/-- A selection binds its result, or changes nothing. -/
theorem handleSelect_ends (opcode : instruction.opcode = .select) :
    Ends inputs instruction machine (instruction.handleSelect.run machine) := by
  unfold handleSelect
  rw [run_read_bind]
  cases readCondition : instruction.scalar 0 machine with
  | error failure => exact .refused (instruction.scalar_justly machine 0 failure readCondition)
  | ok condition =>
      dsimp only
      rw [run_read_bind]
      cases readTrue : instruction.scalar 1 machine with
      | error failure => exact .refused (instruction.scalar_justly machine 1 failure readTrue)
      | ok whenTrue =>
          dsimp only
          rw [run_read_bind]
          cases readFalse : instruction.scalar 2 machine with
          | error failure => exact .refused (instruction.scalar_justly machine 2 failure readFalse)
          | ok whenFalse => exact .selected opcode readCondition readTrue readFalse

/-- A sum of points binds its coordinates, or changes nothing. -/
theorem handleCurveAdd_ends (opcode : instruction.opcode = .curveAdd) :
    Ends inputs instruction machine (instruction.handleCurveAdd.run machine) := by
  unfold handleCurveAdd
  rw [run_read_bind]
  cases read : instruction.pointOperands machine with
  | error failure => exact .refused (instruction.pointOperands_justly machine failure read)
  | ok points =>
      obtain ⟨left, right⟩ := points
      have completes : Completes (fun _ => True) (Gadget.addPoints left right) machine.transcript :=
        Gadget.addPoints_completes left right
      obtain ⟨sum, transcript, computed, -⟩ := completes
      dsimp only
      rw [run_assemble_bind, computed]
      exact .added opcode read computed

/-- The shape of a gate argument that is read has its true total, which is a size. -/
theorem total_of_gateOperands
    {shape : GateShape}
    {input : GateCells field}
    (read : instruction.gateOperands machine = .ok (shape, input)) :
    shape.total = (shape.sizes.map UInt64.toNat).sum ∧ shape.total < 1 <<< 64 := by
  obtain ⟨sizes, -, read⟩ := ok_of_bind read
  obtain ⟨gates, -, read⟩ := ok_of_bind read
  obtain ⟨constraints, -, read⟩ := ok_of_bind read
  dsimp only at read
  split at read
  · cases read
  cases made : GateShape.make sizes with
  | error failure =>
      rw [made] at read
      cases read
  | ok found =>
      rw [made] at read
      simp only [pure_bind] at read
      obtain ⟨selectors, -, read⟩ := ok_of_bind read
      obtain ⟨constraintCells, -, read⟩ := ok_of_bind read
      obtain ⟨challenge, -, read⟩ := ok_of_bind read
      cases read
      exact GateShape.total_of_make made

/-- The shape of a lookup argument that is read is exact. -/
theorem exact_of_lookupShape
    {shape : LookupShape}
    (read : instruction.lookupShape = .ok shape) :
    shape.Exact := by
  obtain ⟨tables, -, read⟩ := ok_of_bind read
  obtain ⟨repeated, -, read⟩ := ok_of_bind read
  dsimp only at read
  split at read
  · cases read
  obtain ⟨gates, -, read⟩ := ok_of_bind read
  obtain ⟨tableOptions, -, read⟩ := ok_of_bind read
  obtain ⟨tableColumns, -, read⟩ := ok_of_bind read
  obtain ⟨gateConstraints, -, read⟩ := ok_of_bind read
  obtain ⟨constraintInputs, -, read⟩ := ok_of_bind read
  cases made : LookupShape.make gates tables
      { gateConstraints, constraintInputs, tableOptions, tableColumns } with
  | error failure =>
      rw [made] at read
      cases read
  | ok found =>
      rw [made] at read
      simp only [pure_bind] at read
      obtain ⟨constraints, -, read⟩ := ok_of_bind read
      split at read
      · cases read
      · cases read
        exact LookupShape.exact_of_make made

/-- A gate argument binds its value, or changes nothing. -/
theorem handleGateArgument_ends (opcode : instruction.opcode = .gateArgument) :
    Ends inputs instruction machine (instruction.handleGateArgument.run machine) := by
  unfold handleGateArgument
  rw [run_read_bind]
  cases read : instruction.gateOperands machine with
  | error failure => exact .refused (instruction.gateOperands_justly machine failure read)
  | ok operands =>
      obtain ⟨shape, input⟩ := operands
      dsimp only
      rw [run_assemble_bind]
      rcases Gadget.gateArgument_cases (total_of_gateOperands read).1 input machine.transcript with
        ⟨failure, refused⟩ | ⟨cell, transcript, computed, -⟩
      · rw [refused]
        exact .refused (instruction.explains_of_ne machine nofun nofun)
      · rw [computed]
        exact .evaluatedGates opcode read computed

/-- A lookup argument binds its values or changes nothing, unless its powers cannot be held. -/
theorem handleLookupArgument_ends (opcode : instruction.opcode = .lookupArgument) :
    Ends inputs instruction machine (instruction.handleLookupArgument.run machine) := by
  unfold handleLookupArgument
  rw [run_ofExcept_bind]
  cases shaped : instruction.lookupShape with
  | error failure => exact .refused (instruction.lookupShape_justly machine failure shaped)
  | ok shape =>
      dsimp only
      rw [run_read_bind]
      cases read : instruction.lookupCells machine with
      | error failure => exact .refused (instruction.lookupCells_justly machine failure read)
      | ok input =>
          dsimp only
          rw [run_assemble_bind]
          rcases Gadget.lookupArgument_cases (exact_of_lookupShape shaped) input
              machine.transcript with
            ⟨failure, refused⟩ | ⟨result, transcript, computed, -⟩ | ⟨tooMany, after, crashed⟩
          · rw [refused]
            exact .refused (instruction.explains_of_ne machine nofun nofun)
          · rw [computed]
            exact .evaluatedLookups opcode shaped read computed
          · rw [crashed]
            exact .unreserved after opcode shaped tooMany

/-- Cells whose widths were checked can be accessed. -/
theorem checkAddress_of_checkResultCells
    {memory : Memory field}
    {pointer count : Nat}
    (checked : checkResultCells memory pointer count = .ok ()) :
    ∀ index < count, memory.checkAddress (pointer + index) = .ok () := by
  induction count generalizing pointer with
  | zero =>
      intro index inside
      exact absurd inside index.not_lt_zero
  | succ count inductionHypothesis =>
      cases access : memory.checkAddress pointer with
      | error failure =>
          rw [checkResultCells, Memory.cellBytes, access] at checked
          cases checked
      | ok _ =>
          have later : checkResultCells memory (pointer + 1) count = .ok () := by
            rw [checkResultCells] at checked
            cases width : memory.cellBytes pointer with
            | error failure =>
                rw [width] at checked
                cases checked
            | ok bytes =>
                rw [width] at checked
                change (if bytes = field.elementBytes then _ else _) = _ at checked
                split at checked
                · exact checked
                · cases checked
          intro index inside
          cases index with
          | zero => exact access
          | succ index =>
              rw [← Nat.add_assoc, Nat.add_right_comm]
              exact inductionHypothesis later index (by omega)

/-- Cosets are written without fail where it was checked that they can be. -/
theorem exists_storeAll_of_checkResultRange
    {memory : Memory field}
    {pointer rounds : Nat}
    {cells : List (Cell field)}
    (checked : checkResultRange memory pointer rounds = .ok ())
    (counted : cells.length = 3 * rounds) :
    pointer + 3 * rounds < 1 <<< 64
      ∧ ∃ later, memory.storeAll pointer cells = .ok later := by
  obtain ⟨address, ends, widths⟩ := ok_of_bind checked
  refine ⟨?_, Memory.exists_storeAll ?_⟩
  · unfold Memory.offsetAddress at ends
    split at ends
    next summed =>
      obtain ⟨rfl, small⟩ := Sizes.sum?_eq_some_iff.mp summed
      exact small
    next => cases ends
  · rw [counted]
    exact checkAddress_of_checkResultCells widths

/-- Cosets are written to all of their cells, or nothing changes. -/
theorem handleFriCosets_ends (opcode : instruction.opcode = .friCosets) :
    Ends inputs instruction machine (instruction.handleFriCosets.run machine) := by
  unfold handleFriCosets
  rw [run_read_bind]
  cases read : instruction.cosetOperands machine with
  | error failure => exact .refused (instruction.cosetOperands_justly machine failure read)
  | ok operands =>
      obtain ⟨result, resultLength, root, totalBits, index⟩ := operands
      dsimp only
      cases made : CosetShape.make resultLength totalBits root with
      | error failure => exact .refused (instruction.explains_of_ne machine nofun nofun)
      | ok shape =>
          simp only [pure_bind]
          rw [run_bind, run_get]
          dsimp only
          rw [run_ofExcept_bind]
          cases checked : checkResultRange machine.memory result resultLength with
          | error failure =>
              have justly :=
                instruction.checkResultRange_justly machine result resultLength
              exact .refused (justly failure checked)
          | ok _ =>
              dsimp only
              rw [run_assemble_bind]
              rcases Gadget.cosets_cases made index machine.transcript with
                ⟨failure, refused⟩ | ⟨rounds, transcript, computed, counted⟩
              · rw [refused]
                exact .refused (instruction.explains_of_ne machine nofun nofun)
              · rw [computed]
                have cells : (rounds.flatMap CosetCells.toList).length = 3 * resultLength := by
                  rw [CosetCells.length_flatMap_toList, counted]
                obtain ⟨-, memory, stores⟩ := exists_storeAll_of_checkResultRange checked cells
                dsimp only
                rw [run_storeAll, stores]
                exact .wroteCosets opcode read made checked computed counted stores

/-- An input that is read is the one that is named, and each of its texts is an element. -/
theorem length_of_inputElements
    {input : InputValue}
    {elements : List (Element field)}
    (read : instruction.inputElements field inputs = .ok (input, elements)) :
    ∃ index, instruction.constantSize 0 = .ok index ∧ inputs[index]? = some input
      ∧ elements.length = input.elements.length := by
  obtain ⟨index, counted, read⟩ := ok_of_bind read
  cases named : inputs[index]? with
  | none =>
      rw [named] at read
      cases read
  | some found =>
      rw [named] at read
      obtain ⟨decoded, decodes, read⟩ := ok_of_bind read
      cases read
      exact ⟨index, counted, named, length_eq_of_mapM decodes⟩

/-- Allocated memory can be written if there was the null cell before it. -/
theorem exists_storeAll_of_allocate
    {memory allocated : Memory field}
    {pointer bytes : Nat}
    {cells : List (Cell field)}
    (nonempty : 0 < memory.size)
    (allocates : memory.allocate cells.length bytes = .ok (pointer, allocated)) :
    ∃ later, allocated.storeAll pointer cells = .ok later := by
  obtain ⟨-, rfl, rfl⟩ := Memory.allocate_eq_ok_iff.mp allocates
  apply Memory.exists_storeAll
  intro index inside
  apply Memory.checkAddress_eq_ok_iff.mpr
  dsimp only
  omega

/-- The elements of an array are exposed before memory is allocated for them. -/
theorem run_handleParam_of_array
    {texts : List String}
    {elements : List (Element field)}
    (read : instruction.inputElements field inputs = .ok (.array texts, elements)) :
    (instruction.handleParam inputs).run machine =
      match machine.memory.allocate elements.length field.elementBytes with
      | .ok (pointer, allocated) =>
          (storeAll pointer (Synthesis.witnesses elements machine.transcript).1 >>=
            fun _ => instruction.bindAddress pointer).run
              { exposedMachine elements machine with memory := allocated }
      | .error failure => (.error (.report failure), exposedMachine elements machine) := by
  have exposed : (exposeElements elements).run machine =
      (.ok (Synthesis.witnesses elements machine.transcript).1, exposedMachine elements machine) :=
    rfl
  rw [handleParam, run_ofExcept_bind, read]
  dsimp only
  rw [run_bind, exposed]
  dsimp only
  rw [run_allocate_bind, Synthesis.length_witnesses]
  rfl

/-- An input is bound, or nothing changes unless there is no memory for an array. -/
theorem handleParam_ends
    (nonempty : 0 < machine.memory.size)
    (opcode : instruction.opcode = .param) :
    Ends inputs instruction machine ((instruction.handleParam inputs).run machine) := by
  cases read : instruction.inputElements field inputs with
  | error failure =>
      rw [handleParam, run_ofExcept_bind, read]
      exact .refused (instruction.inputElements_justly machine inputs failure read)
  | ok found =>
      obtain ⟨input, elements⟩ := found
      obtain ⟨index, -, -, sameLength⟩ := length_of_inputElements read
      let cells := (Synthesis.witnesses elements machine.transcript).1
      have counted : cells.length = elements.length :=
        Synthesis.length_witnesses elements machine.transcript
      have exposed : (exposeElements elements).run machine =
          (.ok cells, exposedMachine elements machine) := rfl
      by_cases isArray : ∃ texts, input = .array texts
      case pos =>
        obtain ⟨texts, rfl⟩ := isArray
        rw [run_handleParam_of_array read]
        cases allocates : machine.memory.allocate elements.length field.elementBytes with
        | error failure =>
            obtain ⟨full, rfl⟩ := Memory.allocate_eq_error_iff.mp allocates
            exact .exhausted opcode read full
        | ok placed =>
            obtain ⟨pointer, allocated⟩ := placed
            have written := allocates
            rw [← counted] at written
            obtain ⟨memory, stores⟩ := exists_storeAll_of_allocate nonempty written
            dsimp only
            rw [run_storeAll_bind, stores]
            exact .boundArray opcode read allocates stores
      rw [handleParam, run_ofExcept_bind, read]
      dsimp only
      rw [run_bind, exposed]
      dsimp only
      cases input with
      | field text =>
          obtain ⟨cell, single⟩ : ∃ cell, cells = [cell] :=
            List.length_eq_one_iff.mp (counted.trans sameLength)
          rw [single]
          exact .boundInput opcode read nofun rfl single.symm
      | vector texts => exact .boundInput opcode read nofun rfl rfl
      | curve x y => exact .boundInput opcode read nofun rfl rfl
      | array texts => exact (isArray ⟨texts, rfl⟩).elim

end Handlers

/-- Every instruction ends in one of these ways; `param` needs memory for the null cell. -/
theorem handle_ends
    (inputs : List InputValue)
    (instruction : Instruction)
    {machine : Machine field}
    (nonempty : instruction.opcode = .param → 0 < machine.memory.size) :
    Ends inputs instruction machine ((instruction.handle inputs).run machine) := by
  unfold handle
  cases opcode : instruction.opcode with
  | param => exact handleParam_ends (nonempty opcode) opcode
  | alloca => exact handleAlloca_ends opcode
  | load => exact handleLoad_ends opcode
  | select => exact handleSelect_ends opcode
  | curveAdd => exact handleCurveAdd_ends opcode
  | friCosets => exact handleFriCosets_ends opcode
  | gateArgument => exact handleGateArgument_ends opcode
  | lookupArgument => exact handleLookupArgument_ends opcode

end Instruction

end Plonkish
