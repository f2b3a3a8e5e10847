import Plonkish.Machine.Handler

namespace Plonkish

/-!
# Justified failures

Why a name is reported as missing: the instruction that is translated refers to
it, and it is not bound. And why a cell of memory is reported to be of the wrong
width: it is. Every other failure of a reading is about something else. That is
what each reader of operands and of memory fails with, and so what the operands of
an opcode fail with.
-/

namespace Instruction

variable {field : PrimeField}

/-- If a failure says that a name is missing, an instruction refers to it and it is not bound. -/
def Justifies (instruction : Instruction) (machine : Machine field) (failure : Failure) : Prop :=
  ∀ id, failure = .missingSymbol id → id ∈ instruction.uses ∧ machine.frame.get? id = none

/-- What a failure says about a name or about the width of a cell is so. -/
structure Explains
    (instruction : Instruction)
    (machine : Machine field)
    (failure : Failure) :
    Prop where
  missing : instruction.Justifies machine failure
  width : ∀ pointer found expected, failure = .size (.resultCell pointer found expected) →
    machine.memory.cellBytes pointer = .ok found ∧ found ≠ field.elementBytes

/-- Whatever a computation fails with is so. -/
def FailsJustly
    (instruction : Instruction)
    (machine : Machine field)
    (outcome : Except Failure α) :
    Prop :=
  ∀ failure, outcome = .error failure → instruction.Explains machine failure

variable (instruction : Instruction) (machine : Machine field)

/-- A failure that says nothing about a name or about the width of a cell is explained. -/
theorem explains_of_ne
    {failure : Failure}
    (otherName : ∀ id, failure ≠ .missingSymbol id)
    (otherWidth : ∀ pointer found expected,
      failure ≠ .size (.resultCell pointer found expected)) :
    instruction.Explains machine failure where
  missing id same := (otherName id same).elim
  width pointer found expected same := (otherWidth pointer found expected same).elim

namespace FailsJustly

variable {instruction machine}

/-- A computation that succeeds has no failure to explain. -/
theorem ok (result : α) : instruction.FailsJustly machine (.ok result) := by
  intro failure failed
  cases failed

/-- A computation that fails for another reason than a name or a width fails justly. -/
theorem error
    {failure : Failure}
    (otherName : ∀ id, failure ≠ .missingSymbol id)
    (otherWidth : ∀ pointer found expected,
      failure ≠ .size (.resultCell pointer found expected)) :
    instruction.FailsJustly machine (.error failure : Except Failure α) := by
  intro found failed
  cases failed
  exact instruction.explains_of_ne machine otherName otherWidth

/-- One computation after another fails justly if the first does, and the second after it. -/
theorem bind
    {outcome : Except Failure α}
    {next : α → Except Failure β}
    (first : instruction.FailsJustly machine outcome)
    (later : ∀ result, outcome = .ok result → instruction.FailsJustly machine (next result)) :
    instruction.FailsJustly machine (outcome >>= next) := by
  cases outcome with
  | error failure =>
      intro found failed
      cases failed
      exact first failure rfl
  | ok result => exact later result rfl

/-- Reading items in turn fails justly if reading each of them does. -/
theorem mapM
    {read : α → Except Failure β}
    (each : ∀ item, instruction.FailsJustly machine (read item))
    (items : List α) :
    instruction.FailsJustly machine (items.mapM read) := by
  induction items with
  | nil => exact FailsJustly.ok []
  | cons item rest inductionHypothesis =>
      rw [List.mapM_cons]
      apply FailsJustly.bind (each item)
      intro result _
      apply FailsJustly.bind inductionHypothesis
      intro results _
      exact FailsJustly.ok (result :: results)

end FailsJustly

/-- What is wrong with an operand says nothing about a name or a width. -/
theorem malformed_justly {index : Nat} {fault : OperandFault} :
    instruction.FailsJustly machine (instruction.malformed index fault : Except Failure α) := by
  exact FailsJustly.error nofun nofun

/-- An operand that is not there is a fault of the instruction. -/
theorem operand_justly (index : Nat) :
    instruction.FailsJustly machine (instruction.operand index) := by
  unfold operand
  split
  · exact FailsJustly.ok _
  · exact instruction.malformed_justly machine

/-- An operand that is read is one of the operands. -/
theorem mem_of_operand
    {index : Nat}
    {operand : Operand}
    (found : instruction.operand index = .ok operand) :
    operand ∈ instruction.operands := by
  unfold Instruction.operand at found
  split at found
  next present =>
    obtain rfl := Except.ok.inj found
    exact List.mem_of_getElem? present
  next => cases found

/-- A constant in the place of a value is a fault of the operand. -/
theorem valueId_justly (index : Nat) :
    instruction.FailsJustly machine (instruction.valueId index) := by
  apply FailsJustly.bind (instruction.operand_justly machine index)
  intro operand _
  cases operand with
  | value id type => exact FailsJustly.ok id
  | constant content => exact instruction.malformed_justly machine

/-- A name that is read is one that the instruction refers to. -/
theorem mem_uses_of_valueId
    {index : Nat}
    {id : ValueId}
    (found : instruction.valueId index = .ok id) :
    id ∈ instruction.uses := by
  cases given : instruction.operand index with
  | error failure =>
      have failed : instruction.valueId index = .error failure := by
        rw [valueId, given]
        rfl
      rw [failed] at found
      cases found
  | ok operand =>
      have member := instruction.mem_of_operand given
      rw [valueId, given] at found
      cases operand with
      | value other type =>
          obtain rfl : other = id := Except.ok.inj found
          exact List.mem_filterMap.mpr ⟨.value other type, member, rfl⟩
      | constant content => cases found

/-- A value in the place of a constant is a fault of the operand. -/
theorem constant_justly (index : Nat) :
    instruction.FailsJustly machine (instruction.constant index) := by
  apply FailsJustly.bind (instruction.operand_justly machine index)
  intro operand _
  cases operand with
  | value id type => exact instruction.malformed_justly machine
  | constant content => exact FailsJustly.ok content

/-- Digits of no size and an array are faults of the operand. -/
theorem constantSize_justly (index : Nat) :
    instruction.FailsJustly machine (instruction.constantSize index) := by
  apply FailsJustly.bind (instruction.constant_justly machine index)
  intro constant _
  cases constant with
  | integer value => exact FailsJustly.ok _
  | field kind digits =>
      simp only
      split
      · exact FailsJustly.ok _
      · exact instruction.malformed_justly machine
  | array values => exact instruction.malformed_justly machine

/-- A constant that is no array is a fault of the operand. -/
theorem constantVector_justly (index : Nat) :
    instruction.FailsJustly machine (instruction.constantVector index) := by
  apply FailsJustly.bind (instruction.constant_justly machine index)
  intro constant _
  cases constant with
  | integer value => exact instruction.malformed_justly machine
  | field kind digits => exact instruction.malformed_justly machine
  | array values => exact FailsJustly.ok values

/--
An array and digits of no number are faults of the operand, and another field is
not implemented.
-/
theorem constantElement_justly (index : Nat) :
    instruction.FailsJustly machine (instruction.constantElement field index) := by
  apply FailsJustly.bind (instruction.constant_justly machine index)
  intro constant _
  cases constant with
  | integer value => exact FailsJustly.ok _
  | field kind digits =>
      simp only
      split
      · split
        · exact FailsJustly.ok _
        · exact instruction.malformed_justly machine
      · exact FailsJustly.error nofun nofun
  | array values => exact instruction.malformed_justly machine

/-- A type that is no curve is a fault of the operand. -/
theorem curveKind_justly (index : Nat) :
    instruction.FailsJustly machine (instruction.curveKind index) := by
  apply FailsJustly.bind (instruction.operand_justly machine index)
  intro operand _
  split
  · exact FailsJustly.ok _
  · exact instruction.malformed_justly machine

/-- A cell that holds no address is a fault of the operand. -/
theorem addressOf_justly (index : Nat) (cell : Cell field) :
    instruction.FailsJustly machine (instruction.addressOf index cell) := by
  unfold addressOf
  split
  · exact FailsJustly.ok _
  · exact instruction.malformed_justly machine

/-- A name that an instruction refers to is looked up, or it is not bound. -/
theorem lookup_justly {id : ValueId} (used : id ∈ instruction.uses) :
    instruction.FailsJustly machine (machine.frame.lookup id) := by
  intro failure failed
  unfold Frame.lookup at failed
  split at failed
  next => cases failed
  next absent =>
    cases failed
    refine ⟨fun other missing => ?_, nofun⟩
    obtain rfl := Failure.missingSymbol.inj missing
    exact ⟨used, absent⟩

/-- A scalar operand fails justly: its name is the one that is missing. -/
theorem scalar_justly (index : Nat) :
    instruction.FailsJustly machine (instruction.scalar index machine) := by
  apply FailsJustly.bind (instruction.valueId_justly machine index)
  intro id found
  apply FailsJustly.bind (instruction.lookup_justly machine (instruction.mem_uses_of_valueId found))
  intro slot _
  cases slot with
  | scalar cell => exact FailsJustly.ok cell
  | vector cells =>
      exact FailsJustly.error nofun nofun

/-- A vector operand fails justly: its name is the one that is missing. -/
theorem vector_justly (index : Nat) :
    instruction.FailsJustly machine (instruction.vector index machine) := by
  apply FailsJustly.bind (instruction.valueId_justly machine index)
  intro id found
  apply FailsJustly.bind (instruction.lookup_justly machine (instruction.mem_uses_of_valueId found))
  intro slot _
  cases slot with
  | scalar cell =>
      exact FailsJustly.error nofun nofun
  | vector cells => exact FailsJustly.ok cells

/-- A vector of another length than two is a disagreement of sizes. -/
theorem pair_justly (index : Nat) :
    instruction.FailsJustly machine (instruction.pair index machine) := by
  apply FailsJustly.bind (instruction.vector_justly machine index)
  intro cells _
  split
  · exact FailsJustly.ok _
  · exact FailsJustly.error nofun nofun

/-- An address fails justly, as the scalar that holds it does. -/
theorem pointer_justly (index : Nat) :
    instruction.FailsJustly machine (instruction.pointer index machine) := by
  apply FailsJustly.bind (instruction.scalar_justly machine index)
  intro cell _
  exact instruction.addressOf_justly machine index cell

section Memory

variable (memory : Memory field)

/-- An address that cannot be accessed says nothing about a name or a width. -/
theorem checkAddress_justly (pointer : Nat) :
    instruction.FailsJustly machine (memory.checkAddress pointer) := by
  unfold Memory.checkAddress
  split
  · exact FailsJustly.error nofun nofun
  · split
    · exact FailsJustly.error nofun nofun
    · exact FailsJustly.ok ()

/-- A load fails only because of its address, or because nothing was stored there. -/
theorem load_justly (pointer : Nat) :
    instruction.FailsJustly machine (memory.load pointer) := by
  apply FailsJustly.bind (instruction.checkAddress_justly machine memory pointer)
  intro _ _
  split
  · exact FailsJustly.ok _
  · exact FailsJustly.error nofun nofun

/-- An address that is too large says nothing about a name or a width. -/
theorem offsetAddress_justly (base offset : Nat) :
    instruction.FailsJustly machine (Memory.offsetAddress base offset) := by
  unfold Memory.offsetAddress
  split
  · exact FailsJustly.ok _
  · exact FailsJustly.error nofun nofun

/-- Loading cells in turn fails justly, as each load does. -/
theorem loadFrom_justly (base offset count : Nat) :
    instruction.FailsJustly machine (memory.loadFrom base offset count) := by
  induction count generalizing offset with
  | zero => exact FailsJustly.ok []
  | succ count inductionHypothesis =>
      apply FailsJustly.bind (instruction.offsetAddress_justly machine base offset)
      intro pointer _
      apply FailsJustly.bind (instruction.load_justly machine memory pointer)
      intro cell _
      apply FailsJustly.bind (inductionHypothesis (offset + 1))
      intro rest _
      exact FailsJustly.ok (cell :: rest)

/-- The width of a cell cannot be told only if its address cannot be accessed. -/
theorem cellBytes_justly (pointer : Nat) :
    instruction.FailsJustly machine (memory.cellBytes pointer) := by
  apply FailsJustly.bind (instruction.checkAddress_justly machine memory pointer)
  intro _ _
  split
  · exact FailsJustly.ok _
  · exact FailsJustly.ok 0

/-- A cell that is reported to have the wrong width does have it. -/
theorem checkResultCells_justly (pointer count : Nat) :
    instruction.FailsJustly machine (checkResultCells machine.memory pointer count) := by
  induction count generalizing pointer with
  | zero => exact FailsJustly.ok ()
  | succ count inductionHypothesis =>
      apply FailsJustly.bind (instruction.cellBytes_justly machine machine.memory pointer)
      intro bytes measured
      split
      · exact inductionHypothesis (pointer + 1)
      next otherWidth =>
        intro failure failed
        cases failed
        refine ⟨nofun, fun _ _ _ same => ?_⟩
        cases same
        exact ⟨measured, otherWidth⟩

/-- A range of results fails justly: it goes beyond all addresses, or one of its cells fails. -/
theorem checkResultRange_justly (pointer rounds : Nat) :
    instruction.FailsJustly machine (checkResultRange machine.memory pointer rounds) := by
  apply FailsJustly.bind (instruction.offsetAddress_justly machine pointer (3 * rounds))
  intro _ _
  exact instruction.checkResultCells_justly machine pointer (3 * rounds)

/-- Exhausted memory says nothing about a name or a width. -/
theorem allocate_justly (count bytes : Nat) :
    instruction.FailsJustly machine (memory.allocate count bytes) := by
  unfold Memory.allocate
  split
  · exact FailsJustly.ok _
  · exact FailsJustly.error nofun nofun

/-- A store fails only because of its address. -/
theorem store_justly (pointer : Nat) (cell : Cell field) :
    instruction.FailsJustly machine (memory.store pointer cell) := by
  apply FailsJustly.bind (instruction.checkAddress_justly machine memory pointer)
  intro _ _
  exact FailsJustly.ok _

/-- Storing cells in turn fails justly, as each store does. -/
theorem storeAll_justly (pointer : Nat) (cells : List (Cell field)) :
    instruction.FailsJustly machine (memory.storeAll pointer cells) := by
  induction cells generalizing memory pointer with
  | nil => exact FailsJustly.ok memory
  | cons cell rest inductionHypothesis =>
      apply FailsJustly.bind (instruction.store_justly machine memory pointer cell)
      intro written _
      exact inductionHypothesis written (pointer + 1)

end Memory

/-- Cells of either form fail justly: the name is missing, the length differs or a load fails. -/
theorem inputVector_justly (index size : Nat) :
    instruction.FailsJustly machine (instruction.inputVector index size machine) := by
  apply FailsJustly.bind (instruction.valueId_justly machine index)
  intro id found
  apply FailsJustly.bind (instruction.lookup_justly machine (instruction.mem_uses_of_valueId found))
  intro slot _
  cases slot with
  | vector cells =>
      simp only
      split
      · exact FailsJustly.ok cells
      · exact FailsJustly.error nofun nofun
  | scalar cell =>
      apply FailsJustly.bind (instruction.addressOf_justly machine index cell)
      intro base _
      exact instruction.loadFrom_justly machine machine.memory base 0 size

/-- The operands of `load` fail justly. -/
theorem loadOperands_justly :
    instruction.FailsJustly machine (instruction.loadOperands machine) := by
  apply FailsJustly.bind (instruction.pointer_justly machine 0)
  intro base _
  apply FailsJustly.bind (instruction.constantSize_justly machine 1)
  intro offset _
  apply FailsJustly.bind (instruction.offsetAddress_justly machine base offset)
  intro pointer _
  exact instruction.load_justly machine machine.memory pointer

/-- The operands of `curve_add` fail justly. -/
theorem pointOperands_justly :
    instruction.FailsJustly machine (instruction.pointOperands machine) := by
  apply FailsJustly.bind (instruction.curveKind_justly machine 0)
  intro kind _
  apply FailsJustly.bind (instruction.curveKind_justly machine 1)
  intro other _
  dsimp only
  by_cases different : other ≠ kind
  · rw [if_pos different]
    exact instruction.malformed_justly machine
  rw [if_neg different]
  by_cases unsupported : kind = .curve25519 ∨ (!field.isNative kind.baseField.modulusText) = true
  · rw [if_pos unsupported]
    exact FailsJustly.error nofun nofun
  rw [if_neg unsupported]
  apply FailsJustly.bind (instruction.pair_justly machine 0)
  intro left _
  apply FailsJustly.bind (instruction.pair_justly machine 1)
  intro right _
  exact FailsJustly.ok _

/-- The operands of `fri_cosets` fail justly. -/
theorem cosetOperands_justly :
    instruction.FailsJustly machine (instruction.cosetOperands machine) := by
  apply FailsJustly.bind (instruction.pointer_justly machine 0)
  intro result _
  apply FailsJustly.bind (instruction.constantSize_justly machine 1)
  intro resultLength _
  apply FailsJustly.bind (instruction.constantElement_justly machine 2)
  intro root _
  apply FailsJustly.bind (instruction.constantSize_justly machine 3)
  intro totalBits _
  apply FailsJustly.bind (instruction.scalar_justly machine 4)
  intro index _
  exact FailsJustly.ok _

/-- The operands of a gate argument fail justly. -/
theorem gateOperands_justly :
    instruction.FailsJustly machine (instruction.gateOperands machine) := by
  apply FailsJustly.bind (instruction.constantVector_justly machine 1)
  intro sizes _
  apply FailsJustly.bind (instruction.constantSize_justly machine 2)
  intro gates _
  apply FailsJustly.bind (instruction.constantSize_justly machine 4)
  intro constraints _
  dsimp only
  by_cases different : sizes.length ≠ gates ∨ Sizes.total? sizes ≠ some constraints
  · rw [if_pos different]
    exact FailsJustly.error nofun nofun
  rw [if_neg different]
  cases GateShape.make sizes with
  | error failure => exact FailsJustly.error nofun nofun
  | ok shape =>
      apply FailsJustly.bind (instruction.inputVector_justly machine 0 gates)
      intro selectors _
      apply FailsJustly.bind (instruction.inputVector_justly machine 3 constraints)
      intro constraintCells _
      apply FailsJustly.bind (instruction.scalar_justly machine 5)
      intro challenge _
      exact FailsJustly.ok _

/-- The shape of a lookup argument fails justly: only its sizes can disagree. -/
theorem lookupShape_justly :
    instruction.FailsJustly machine instruction.lookupShape := by
  apply FailsJustly.bind (instruction.constantSize_justly machine 1)
  intro tables _
  apply FailsJustly.bind (instruction.constantSize_justly machine 3)
  intro repeated _
  dsimp only
  by_cases different : repeated ≠ tables
  · rw [if_pos different]
    exact FailsJustly.error nofun nofun
  rw [if_neg different]
  apply FailsJustly.bind (instruction.constantSize_justly machine 5)
  intro gates _
  apply FailsJustly.bind (instruction.constantVector_justly machine 0)
  intro tableOptions _
  apply FailsJustly.bind (instruction.constantVector_justly machine 2)
  intro tableColumns _
  apply FailsJustly.bind (instruction.constantVector_justly machine 4)
  intro gateConstraints _
  apply FailsJustly.bind (instruction.constantVector_justly machine 6)
  intro constraintInputs _
  cases LookupShape.make gates tables
      { gateConstraints, constraintInputs, tableOptions, tableColumns } with
  | error failure => exact FailsJustly.error nofun nofun
  | ok shape =>
      apply FailsJustly.bind (instruction.constantSize_justly machine 7)
      intro constraints _
      split
      · exact FailsJustly.error nofun nofun
      · exact FailsJustly.ok shape

/-- A vector with its declared length fails justly. -/
theorem sizedVector_justly (index : Nat) :
    instruction.FailsJustly machine (instruction.sizedVector index machine) := by
  apply FailsJustly.bind (instruction.constantSize_justly machine (index + 1))
  intro size _
  exact instruction.inputVector_justly machine index size

/-- The cells of a lookup argument fail justly, as each of its operands does. -/
theorem lookupCells_justly :
    instruction.FailsJustly machine (instruction.lookupCells machine) := by
  iterate 9
    apply FailsJustly.bind (instruction.sizedVector_justly machine _)
    intro _ _
  iterate 4
    apply FailsJustly.bind (instruction.scalar_justly machine _)
    intro _ _
  iterate 3
    apply FailsJustly.bind (instruction.pair_justly machine _)
    intro _ _
  exact FailsJustly.ok _

/-- An input fails justly: it is not there, or one of its texts is no number. -/
theorem inputElements_justly (inputs : List InputValue) :
    instruction.FailsJustly machine (instruction.inputElements field inputs) := by
  apply FailsJustly.bind (instruction.constantSize_justly machine 0)
  intro index _
  cases inputs[index]? with
  | none => exact FailsJustly.error nofun nofun
  | some input =>
      apply FailsJustly.bind
      · apply FailsJustly.mapM
        intro text
        split
        · exact FailsJustly.ok _
        · exact instruction.malformed_justly machine
      · intro elements _
        exact FailsJustly.ok (input, elements)

end Instruction

end Plonkish
