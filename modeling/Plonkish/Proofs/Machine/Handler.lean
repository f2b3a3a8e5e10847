import Plonkish.Proofs.Gadget.ArgumentSoundness
import Plonkish.Proofs.Machine.Step

namespace Plonkish

/-!
# Sound instructions

Every opcode is translated by sound steps. What an instruction binds or writes
to memory was settled by the gadget that computed it, or could be reached
before, so instructions keep machines sound.
-/

namespace CosetShape

variable {field : PrimeField}

/-- A coset computation is refused for its shape, or it has no more bits than a word. -/
theorem make_cases (resultLength totalBits : Nat) (root : Element field) :
    (∃ fault, make resultLength totalBits root = .error (.shape fault))
      ∨ ∃ shape, make resultLength totalBits root = .ok shape ∧ shape.totalBits ≤ 64 := by
  unfold make
  split
  next => exact .inl ⟨_, rfl⟩
  next accepted =>
    exact .inr ⟨_, rfl, Nat.not_lt.mp fun tooMany => accepted (.inr (.inr tooMany))⟩

end CosetShape

/-- The sizes of a gate argument are not refused for a circuit. -/
theorem GateShape.make_error
    {sizes : List UInt64}
    {failure : CircuitFailure}
    (refused : GateShape.make sizes = .error failure) :
    failure ≠ .unsatisfied := by
  unfold GateShape.make at refused
  rintro rfl
  split at refused
  · cases refused
  · split at refused <;> cases refused

/-- The sizes of a lookup argument are not refused for a circuit. -/
theorem LookupShape.make_error
    {gates tables : Nat}
    {sizes : LookupSizes}
    {failure : CircuitFailure}
    (refused : LookupShape.make gates tables sizes = .error failure) :
    failure ≠ .unsatisfied := by
  unfold LookupShape.make at refused
  rintro rfl
  split at refused
  · cases refused
  split at refused
  · cases refused
  split at refused
  · split at refused <;> cases refused
  · cases refused

namespace Instruction

variable {field : PrimeField} (instruction : Instruction) (machine : Machine field)

/-- A loaded cell is one that is stored. -/
theorem loadOperands_yields : Yields (instruction.loadOperands machine) machine.Reaches := by
  refine (instruction.pointer_yields machine 0).bind fun base _ => ?_
  refine (instruction.constantSize_yields 1).bind fun offset _ => ?_
  refine (Memory.offsetAddress_yields base offset).bind fun pointer _ => ?_
  refine (machine.memory.load_yields pointer).imp fun cell stored => ?_
  exact .inr ⟨pointer, stored⟩

/-- The coordinates of both points are cells that are bound. -/
theorem pointOperands_yields :
    Yields (instruction.pointOperands machine) (fun points =>
      (machine.Reaches points.1.x ∧ machine.Reaches points.1.y)
        ∧ machine.Reaches points.2.x ∧ machine.Reaches points.2.y) := by
  refine (instruction.curveKind_yields 0).bind fun kind _ => ?_
  refine (instruction.curveKind_yields 1).bind fun other _ => ?_
  dsimp only
  by_cases different : other ≠ kind
  · rw [if_pos different]
    exact Failure.noConfusion
  rw [if_neg different]
  by_cases unsupported : kind = .curve25519 ∨ (!field.isNative kind.baseField.modulusText) = true
  · rw [if_pos unsupported]
    exact Failure.noConfusion
  rw [if_neg unsupported]
  refine (instruction.pair_yields machine 0).bind fun left leftReached => ?_
  refine (instruction.pair_yields machine 1).bind fun right rightReached => ?_
  exact ⟨leftReached, rightReached⟩

/-- The index of a coset computation is a cell that is bound. -/
theorem cosetOperands_yields :
    Yields (instruction.cosetOperands machine)
      (fun operands => machine.Reaches operands.2.2.2.2) := by
  refine (instruction.pointer_yields machine 0).bind fun result _ => ?_
  refine (instruction.constantSize_yields 1).bind fun resultLength _ => ?_
  refine Yields.bind (instruction.constantElement_yields 2) fun root _ => ?_
  refine (instruction.constantSize_yields 3).bind fun totalBits _ => ?_
  refine (instruction.scalar_yields machine 4).bind fun index reached => ?_
  exact reached

theorem checkResultCells_yields (memory : Memory field) (pointer count : Nat) :
    Yields (checkResultCells memory pointer count) (fun _ => True) := by
  induction count generalizing pointer with
  | zero => trivial
  | succ count inductionHypothesis =>
      have width : Yields (memory.cellBytes pointer) (fun _ => True) := by
        refine (memory.checkAddress_yields pointer).bind fun _ _ => ?_
        split <;> trivial
      refine width.bind fun bytes _ => ?_
      split
      · exact inductionHypothesis (pointer + 1)
      · exact Failure.noConfusion

theorem checkResultRange_yields (memory : Memory field) (pointer rounds : Nat) :
    Yields (checkResultRange memory pointer rounds) (fun _ => True) := by
  refine (Memory.offsetAddress_yields pointer (3 * rounds)).bind fun _ _ => ?_
  exact checkResultCells_yields memory pointer (3 * rounds)

/-- The cells of a gate argument are bound or stored. -/
theorem gateOperands_yields :
    Yields (instruction.gateOperands machine)
      (fun operands => ∀ cell ∈ operands.2.all, machine.Reaches cell) := by
  refine (instruction.constantVector_yields 1).bind fun sizes _ => ?_
  refine (instruction.constantSize_yields 2).bind fun gates _ => ?_
  refine (instruction.constantSize_yields 4).bind fun constraints _ => ?_
  dsimp only
  by_cases different : sizes.length ≠ gates ∨ Sizes.total? sizes ≠ some constraints
  · rw [if_pos different]
    exact Failure.noConfusion
  rw [if_neg different]
  cases made : GateShape.make sizes with
  | error failure =>
      have otherFailure := GateShape.make_error made
      exact fun same => otherFailure (Failure.circuit.inj same)
  | ok shape =>
      refine (instruction.inputVector_yields machine 0 gates).bind fun selectors selected => ?_
      refine (instruction.inputVector_yields machine 3 constraints).bind
        fun constraintCells constrained => ?_
      refine (instruction.scalar_yields machine 5).bind fun challenge challenged => ?_
      refine List.forall_mem_cons.mpr ⟨challenged, ?_⟩
      exact List.forall_mem_append.mpr ⟨constrained, selected⟩

theorem lookupShape_yields : Yields instruction.lookupShape (fun _ => True) := by
  refine (instruction.constantSize_yields 1).bind fun tables _ => ?_
  refine (instruction.constantSize_yields 3).bind fun repeated _ => ?_
  dsimp only
  by_cases different : repeated ≠ tables
  · rw [if_pos different]
    exact Failure.noConfusion
  rw [if_neg different]
  refine (instruction.constantSize_yields 5).bind fun gates _ => ?_
  refine (instruction.constantVector_yields 0).bind fun tableOptions _ => ?_
  refine (instruction.constantVector_yields 2).bind fun tableColumns _ => ?_
  refine (instruction.constantVector_yields 4).bind fun gateConstraints _ => ?_
  refine (instruction.constantVector_yields 6).bind fun constraintInputs _ => ?_
  cases made : LookupShape.make gates tables
      { gateConstraints, constraintInputs, tableOptions, tableColumns } with
  | error failure =>
      have otherFailure := LookupShape.make_error made
      exact fun same => otherFailure (Failure.circuit.inj same)
  | ok shape =>
      refine (instruction.constantSize_yields 7).bind fun constraints _ => ?_
      split
      · exact Failure.noConfusion
      · trivial

/-- The cells of a vector are bound or stored, whatever length was declared. -/
theorem sizedVector_yields (index : Nat) :
    Yields (instruction.sizedVector index machine)
      (fun cells => ∀ cell ∈ cells, machine.Reaches cell) := by
  refine (instruction.constantSize_yields (index + 1)).bind fun size _ => ?_
  exact instruction.inputVector_yields machine index size

/-- The cells of a lookup argument are bound or stored. -/
theorem lookupCells_yields :
    Yields (instruction.lookupCells machine)
      (fun input => ∀ cell ∈ input.all, machine.Reaches cell) := by
  refine (instruction.sizedVector_yields machine 8).bind fun alphas reachedAlphas => ?_
  refine (instruction.sizedVector_yields machine 10).bind fun gateSelectors reachedGates => ?_
  refine (instruction.sizedVector_yields machine 12).bind fun tableIds reachedIds => ?_
  refine (instruction.sizedVector_yields machine 14).bind fun lookupInputs reachedInputs => ?_
  refine (instruction.sizedVector_yields machine 16).bind fun tableSelectors reachedTables => ?_
  refine (instruction.sizedVector_yields machine 18).bind fun options reachedOptions => ?_
  refine (instruction.sizedVector_yields machine 20).bind fun shiftedTables reachedShifted => ?_
  refine (instruction.sizedVector_yields machine 22).bind fun shiftedOptions reachedOthers => ?_
  refine (instruction.sizedVector_yields machine 24).bind fun sorted reachedSorted => ?_
  refine (instruction.scalar_yields machine 26).bind fun theta reachedTheta => ?_
  refine (instruction.scalar_yields machine 27).bind fun beta reachedBeta => ?_
  refine (instruction.scalar_yields machine 28).bind fun gamma reachedGamma => ?_
  refine (instruction.scalar_yields machine 29).bind fun firstRow reachedFirst => ?_
  refine (instruction.pair_yields machine 30).bind fun accumulator reachedAccumulator => ?_
  refine (instruction.pair_yields machine 31).bind fun lastRow reachedLast => ?_
  refine (instruction.pair_yields machine 32).bind fun blindRows reachedBlind => ?_
  change ∀ cell ∈ LookupCells.all _, machine.Reaches cell
  simp only [LookupCells.all, List.forall_mem_append, List.forall_mem_cons]
  exact ⟨⟨reachedTheta, reachedBeta, reachedGamma, reachedFirst, reachedAccumulator.1,
      reachedAccumulator.2, reachedLast.1, reachedLast.2, reachedBlind.1, reachedBlind.2,
      List.forall_mem_nil _⟩,
    ⟨⟨⟨⟨⟨⟨⟨reachedAlphas, reachedGates⟩, reachedIds⟩, reachedInputs⟩, reachedTables⟩,
      reachedOptions⟩, reachedShifted⟩, reachedOthers⟩, reachedSorted⟩

/-- An input is found and read, or there is none. -/
theorem inputElements_yields (inputs : List InputValue) :
    Yields (instruction.inputElements field inputs) (fun _ => True) := by
  refine (instruction.constantSize_yields 0).bind fun index _ => ?_
  cases found : inputs[index]? with
  | none => exact Failure.noConfusion
  | some input =>
      refine (Yields.mapM (fun _ => True) (fun text => ?_) input.elements).bind fun _ _ => trivial
      split
      · trivial
      · exact instruction.malformed_yields

variable {known : Set (Cell field)}

/-- Binding a name to an address is sound: the address is a fixed cell. -/
theorem bindAddress_sound {pointer : Nat} :
    Translation.Sound known (instruction.bindAddress pointer : Translation field Unit)
      (fun _ => ∅) := by
  refine (Translation.lay_sound (Synthesis.constant_sound _)).bind fun cell _ => ?_
  exact Translation.bind_sound (by simp [Slot.cells])

/-- Binding an input is sound: its elements are exposed. -/
theorem handleParam_sound (inputs : List InputValue) :
    Translation.Sound known (instruction.handleParam inputs : Translation field Unit)
      (fun _ => ∅) := by
  have read : Yields (instruction.inputElements field inputs) (fun _ => ∅ ⊆ known) :=
    (instruction.inputElements_yields inputs).imp fun _ _ => Set.empty_subset known
  refine (Translation.ofExcept_sound read).bind fun result _ => ?_
  obtain ⟨input, elements⟩ := result
  refine exposeElements_sound.bind fun cells _ => ?_
  have cellsKnown : ∀ cell ∈ cells, cell ∈ known ∪ ∅ ∪ {cell | cell ∈ cells} :=
    fun cell member => .inr member
  cases input with
  | field element =>
      cases cells with
      | nil => exact Translation.Sound.crash
      | cons cell rest => exact Translation.bind_sound (by simp [Slot.cells])
  | vector elements => exact Translation.bind_sound cellsKnown
  | curve x y => exact Translation.bind_sound cellsKnown
  | array elements =>
      refine Translation.allocate_sound.bind fun pointer _ => ?_
      refine (Translation.storeAll_sound fun cell member => .inl (cellsKnown cell member)).bind
        fun _ _ => ?_
      exact instruction.bindAddress_sound

/-- An allocation binds a constant, which is settled. -/
theorem handleAlloca_sound :
    Translation.Sound known (instruction.handleAlloca : Translation field Unit)
      (fun _ => ∅) := by
  have read : Yields (instruction.constantSize 0) (fun _ => ∅ ⊆ known) :=
    (instruction.constantSize_yields 0).imp fun _ _ => Set.empty_subset known
  refine (Translation.ofExcept_sound read).bind fun count _ => ?_
  refine Translation.allocate_sound.bind fun pointer _ => ?_
  exact instruction.bindAddress_sound

/-- A load binds a cell that could be reached before. -/
theorem handleLoad_sound :
    Translation.Sound known (instruction.handleLoad : Translation field Unit) (fun _ => ∅) := by
  have read : Translation.Sound known
      (Translation.read instruction.loadOperands : Translation field _) ({·}) :=
    Translation.read_sound fun machine => (instruction.loadOperands_yields machine).imp
      fun cell reached other same => same ▸ reached
  refine read.bind fun cell _ => ?_
  exact Translation.bind_sound (by simp [Slot.cells])

/-- A scalar operand is a cell that can be reached. -/
theorem read_scalar_sound (index : Nat) :
    Translation.Sound known (Translation.read (instruction.scalar index) : Translation field _)
      ({·}) :=
  Translation.read_sound fun machine => (instruction.scalar_yields machine index).imp
    fun _ reached _ same => same ▸ reached

/-- A selection binds the cell that its gadget settles. -/
theorem handleSelect_sound :
    Translation.Sound known (instruction.handleSelect : Translation field Unit) (fun _ => ∅) := by
  refine (instruction.read_scalar_sound 0).bind fun condition _ => ?_
  refine (instruction.read_scalar_sound 1).bind fun whenTrue _ => ?_
  refine (instruction.read_scalar_sound 2).bind fun whenFalse _ => ?_
  refine (Translation.lay_sound
    (Gadget.select_sound (by simp) (by simp) (by simp))).bind fun cell _ => ?_
  exact Translation.bind_sound (by simp [Slot.cells])

/-- A sum of points binds the cells that its gadget settles. -/
theorem handleCurveAdd_sound :
    Translation.Sound known (instruction.handleCurveAdd : Translation field Unit)
      (fun _ => ∅) := by
  have read : Translation.Sound known
      (Translation.read instruction.pointOperands : Translation field _)
      (fun points => {points.1.x, points.1.y, points.2.x, points.2.y}) := by
    refine Translation.read_sound fun machine => (instruction.pointOperands_yields machine).imp ?_
    rintro points ⟨⟨leftX, leftY⟩, rightX, rightY⟩ cell (rfl | rfl | rfl | rfl)
    · exact leftX
    · exact leftY
    · exact rightX
    · exact rightY
  refine read.bind fun points _ => ?_
  obtain ⟨left, right⟩ := points
  refine (Translation.assemble_sound (Gadget.addPoints_sound (by simp) (by simp) (by simp)
    (by simp))).bind fun sum _ => ?_
  exact Translation.bind_sound (by simp [Slot.cells, Gadget.pointCells])

/-- The cosets that are stored are cells that their gadget settles. -/
theorem handleFriCosets_sound :
    Translation.Sound known (instruction.handleFriCosets : Translation field Unit)
      (fun _ => ∅) := by
  have read : Translation.Sound known
      (Translation.read instruction.cosetOperands : Translation field _)
      (fun operands => {operands.2.2.2.2}) :=
    Translation.read_sound fun machine => (instruction.cosetOperands_yields machine).imp
      fun _ reached _ same => same ▸ reached
  refine read.bind fun operands _ => ?_
  obtain ⟨result, resultLength, root, totalBits, index⟩ := operands
  dsimp only
  obtain ⟨fault, refused⟩ | ⟨shape, made, atMostWord⟩ :=
    CosetShape.make_cases resultLength totalBits root
  · rw [refused]
    refine Translation.report_sound fun same => ?_
    cases same
  · simp only [made, pure_bind]
    refine Translation.get_sound.bind fun machine _ => ?_
    have range : Yields (checkResultRange machine.memory result resultLength)
        (fun _ => ∅ ⊆ known ∪ {index} ∪ ∅) :=
      (checkResultRange_yields machine.memory result resultLength).imp
        fun _ _ => Set.empty_subset _
    refine (Translation.ofExcept_sound range).bind fun _ _ => ?_
    refine (Translation.assemble_sound (Gadget.cosets_sound atMostWord (by simp))).bind
      fun rounds _ => ?_
    exact Translation.storeAll_sound fun cell member => .inr member

/-- A gate argument binds the cell that its gadget settles. -/
theorem handleGateArgument_sound :
    Translation.Sound known (instruction.handleGateArgument : Translation field Unit)
      (fun _ => ∅) := by
  have read : Translation.Sound known
      (Translation.read instruction.gateOperands : Translation field _)
      (fun operands => {cell | cell ∈ operands.2.all}) :=
    Translation.read_sound fun machine => instruction.gateOperands_yields machine
  refine read.bind fun operands _ => ?_
  obtain ⟨shape, input⟩ := operands
  refine (Translation.assemble_sound
    (Gadget.gateArgument_sound fun cell member => .inr member)).bind fun cell _ => ?_
  exact Translation.bind_sound (by simp [Slot.cells])

/-- A lookup argument binds the cells that its gadget settles. -/
theorem handleLookupArgument_sound :
    Translation.Sound known (instruction.handleLookupArgument : Translation field Unit)
      (fun _ => ∅) := by
  have readShape : Yields instruction.lookupShape (fun _ => ∅ ⊆ known) :=
    instruction.lookupShape_yields.imp fun _ _ => Set.empty_subset known
  refine (Translation.ofExcept_sound readShape).bind fun shape _ => ?_
  have read : Translation.Sound (known ∪ ∅)
      (Translation.read instruction.lookupCells : Translation field _)
      (fun input => {cell | cell ∈ input.all}) :=
    Translation.read_sound fun machine => instruction.lookupCells_yields machine
  refine read.bind fun input _ => ?_
  refine (Translation.assemble_sound
    (Gadget.lookupArgument_sound fun cell member => .inr member)).bind fun result _ => ?_
  exact Translation.bind_sound fun cell member => .inr member

/-- Every instruction is sound. -/
theorem handle_sound (inputs : List InputValue) :
    Translation.Sound known (instruction.handle inputs : Translation field Unit)
      (fun _ => ∅) := by
  unfold handle
  cases instruction.opcode with
  | param => exact instruction.handleParam_sound inputs
  | alloca => exact instruction.handleAlloca_sound
  | load => exact instruction.handleLoad_sound
  | select => exact instruction.handleSelect_sound
  | curveAdd => exact instruction.handleCurveAdd_sound
  | friCosets => exact instruction.handleFriCosets_sound
  | gateArgument => exact instruction.handleGateArgument_sound
  | lookupArgument => exact instruction.handleLookupArgument_sound

end Instruction

end Plonkish
