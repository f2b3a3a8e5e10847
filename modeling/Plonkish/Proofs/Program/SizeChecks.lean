import Plonkish.Proofs.Machine.Constants
import Plonkish.Proofs.Program.LookupOperands

namespace Plonkish

/-!
# Checks of sizes

Every total of sizes is the sum over the natural numbers, if that is a size, and
is missing otherwise; a partial sum never decides anything, so the order of the
sizes does not matter. Shapes are refused and accepted by these sums. An
instruction compares its declared numbers with them before it reads any cell, and
nothing that it reads later is refused for the same reason.
-/

namespace Sizes

/-- A number, if it is a size. -/
def ofNat? (number : Nat) : Option Nat :=
  if number < 1 <<< 64 then some number else none

/-- A number is a size exactly if it fits in a word, and then it is itself. -/
theorem ofNat?_eq_some_iff {number size : Nat} :
    ofNat? number = some size ↔ size = number ∧ size < 1 <<< 64 := by
  unfold ofNat?
  split <;> grind

/-- Sizes are totalled exactly. -/
theorem total?_eq (sizes : List UInt64) :
    total? sizes = ofNat? (sizes.map UInt64.toNat).sum := by
  apply Option.ext
  intro total
  rw [total?_eq_some_iff, ofNat?_eq_some_iff]

/-- Products of sizes are totalled exactly, although a product can overflow before a sum does. -/
theorem totalProduct?_eq (pairs : List (UInt64 × UInt64)) :
    totalProduct? pairs = ofNat? (pairs.map fun pair => pair.1.toNat * pair.2.toNat).sum := by
  apply Option.ext
  intro total
  rw [totalProduct?_eq_some_iff, ofNat?_eq_some_iff]

/-- Sizes in another order have the same total. -/
theorem total?_perm {sizes other : List UInt64} (reordered : sizes.Perm other) :
    total? sizes = total? other := by
  rw [total?_eq, total?_eq, (reordered.map UInt64.toNat).sum_eq]

/-- Pairs of sizes in another order have the same total. -/
theorem totalProduct?_perm {pairs other : List (UInt64 × UInt64)} (reordered : pairs.Perm other) :
    totalProduct? pairs = totalProduct? other := by
  rw [totalProduct?_eq, totalProduct?_eq,
    (reordered.map fun pair => pair.1.toNat * pair.2.toNat).sum_eq]

end Sizes

/-- The shape of some gate is made from the exact sum. -/
theorem GateShape.make_eq {sizes : List UInt64} (someGate : sizes ≠ []) :
    make sizes =
      match Sizes.ofNat? (sizes.map UInt64.toNat).sum with
      | some total => .ok ⟨sizes, total⟩
      | none => .error (.shape .gateSizesOverflow) := by
  have notEmpty : sizes.isEmpty = false := List.isEmpty_eq_false_iff.mpr someGate
  unfold make
  simp only [notEmpty, Sizes.total?_eq]
  cases Sizes.ofNat? (sizes.map UInt64.toNat).sum with
  | none => rfl
  | some total => rfl

/-- The total of a shape does not depend on the order of its sizes. -/
theorem GateShape.make_perm {sizes other : List UInt64} (reordered : sizes.Perm other) :
    (make sizes).map total = (make other).map total := by
  cases other with
  | nil => rw [List.perm_nil.mp reordered]
  | cons size rest =>
      have someGate : sizes ≠ [] := fun none => by
        rw [none] at reordered
        exact List.cons_ne_nil _ _ (List.nil_perm.mp reordered)
      rw [make_eq someGate, make_eq (List.cons_ne_nil size rest),
        (reordered.map UInt64.toNat).sum_eq]
      cases Sizes.ofNat? _ <;> rfl

/-- The shape of a lookup argument is accepted by its lengths and its exact sums. -/
theorem LookupShape.exists_make_iff {gates tables : Nat} {sizes : LookupSizes} :
    (∃ shape, make gates tables sizes = .ok shape) ↔
      (sizes.gateConstraints.length = gates ∧ sizes.tableOptions.length = tables
        ∧ sizes.tableColumns.length = tables)
      ∧ (sizes.constraintCount < 1 <<< 64 ∧ sizes.inputCount < 1 <<< 64
        ∧ sizes.optionCount < 1 <<< 64)
      ∧ sizes.constraintInputs.length = sizes.constraintCount := by
  simp only [make_eq_ok_iff]
  constructor
  · rintro ⟨shape, ⟨sameGates, sameTables⟩, rfl, exact⟩
    have bounded := exact.bounded
    rw [exact.constraints, exact.inputs, exact.options] at bounded
    exact ⟨⟨sameGates, sameTables, exact.tables.trans sameTables⟩, bounded,
      exact.widths.trans exact.constraints⟩
  · rintro ⟨⟨sameGates, sameTables, sameColumns⟩, bounded, widths⟩
    exact ⟨sizes.shape, ⟨sameGates, sameTables⟩, rfl, rfl, rfl, rfl, bounded, widths,
      sameColumns.trans sameTables.symm⟩

/-- A computation does not fail because numbers of gates and constraints disagree with sizes. -/
def FailsOtherwise (outcome : Except Failure α) : Prop :=
  ∀ gates sizes constraints sum,
    outcome ≠ .error (.size (.gateSizes gates sizes constraints sum))

namespace FailsOtherwise

/-- Success is no disagreement of sizes. -/
theorem ok (result : α) : FailsOtherwise (.ok result) := nofun

/-- Equal outcomes do not disagree either. -/
theorem of_eq
    {outcome other : Except Failure α}
    (same : outcome = other)
    (otherwise : FailsOtherwise other) :
    FailsOtherwise outcome :=
  same ▸ otherwise

/-- One computation after another fails otherwise if both do. -/
theorem bind
    {outcome : Except Failure α}
    {next : α → Except Failure β}
    (first : FailsOtherwise outcome)
    (later : ∀ result, FailsOtherwise (next result)) :
    FailsOtherwise (outcome >>= next) := by
  cases outcome with
  | error failure =>
      intro gates sizes constraints sum failed
      cases failed
      exact first gates sizes constraints sum rfl
  | ok result => exact later result

end FailsOtherwise

namespace Memory

variable {field : PrimeField}

/-- A load fails for its address. -/
theorem load_failsOtherwise (memory : Memory field) (address : Nat) :
    FailsOtherwise (memory.load address) := by
  intro gates sizes constraints sum failed
  obtain ⟨fault, -, aboutMemory⟩ := load_eq_error_iff.mp failed
  cases aboutMemory

/-- A sum of addresses fails for its size. -/
theorem offsetAddress_failsOtherwise (base offset : Nat) :
    FailsOtherwise (offsetAddress base offset) := by
  unfold offsetAddress
  split
  · exact .ok _
  · nofun

/-- Loading cells in turn fails for one of their addresses. -/
theorem loadFrom_failsOtherwise (memory : Memory field) (base offset count : Nat) :
    FailsOtherwise (memory.loadFrom base offset count) := by
  induction count generalizing offset with
  | zero => exact .ok []
  | succ count inductionHypothesis =>
      refine (offsetAddress_failsOtherwise base offset).bind fun address => ?_
      refine (memory.load_failsOtherwise address).bind fun cell => ?_
      exact (inductionHypothesis (offset + 1)).bind fun rest => .ok (cell :: rest)

end Memory

namespace Instruction

open Translation

variable {field : PrimeField} (instruction : Instruction) (machine : Machine field) (index : Nat)

theorem valueId_failsOtherwise : FailsOtherwise (instruction.valueId index) := by
  unfold valueId operand
  split
  next operand _ => cases operand <;> nofun
  next => nofun

theorem lookup_failsOtherwise (id : ValueId) : FailsOtherwise (machine.frame.lookup id) := by
  unfold Frame.lookup
  split
  · exact .ok _
  · nofun

theorem addressOf_failsOtherwise (cell : Cell field) :
    FailsOtherwise (instruction.addressOf index cell) := by
  unfold addressOf
  split
  · exact .ok _
  · nofun

theorem scalar_failsOtherwise : FailsOtherwise (instruction.scalar index machine) := by
  refine (instruction.valueId_failsOtherwise index).bind fun id => ?_
  refine (lookup_failsOtherwise machine id).bind fun slot => ?_
  cases slot <;> nofun

/-- An input vector fails for its own length, not for those that were declared. -/
theorem inputVector_failsOtherwise (size : Nat) :
    FailsOtherwise (instruction.inputVector index size machine) := by
  refine (instruction.valueId_failsOtherwise index).bind fun id => ?_
  refine (lookup_failsOtherwise machine id).bind fun slot => ?_
  cases slot with
  | vector cells =>
      dsimp only
      split <;> nofun
  | scalar cell =>
      refine (instruction.addressOf_failsOtherwise index cell).bind fun base => ?_
      exact machine.memory.loadFrom_failsOtherwise base 0 size

variable {instruction index}

/-- A declared number is a size. -/
theorem lt_word_of_constantSize {size : Nat} (read : instruction.constantSize index = .ok size) :
    size < 1 <<< 64 := by
  obtain ⟨_, word, -, -, rfl⟩ := constantSize_eq_ok_iff.mp read
  exact word.toNat_lt

section GateOperands

variable
  {machine}
  {sizes : List UInt64}
  {gates constraints : Nat}
  (readSizes : instruction.constantVector 1 = .ok sizes)
  (readGates : instruction.constantSize 2 = .ok gates)
  (readConstraints : instruction.constantSize 4 = .ok constraints)

include readSizes readGates readConstraints

/-- Operands whose declared numbers disagree with the sizes are refused for it. -/
theorem gateOperands_of_mismatch
    (mismatch : sizes.length ≠ gates ∨ Sizes.total? sizes ≠ some constraints) :
    instruction.gateOperands machine =
      .error (.size (.gateSizes gates sizes.length constraints (Sizes.total? sizes))) := by
  refine (bind_of_ok readSizes _).trans ?_
  refine (bind_of_ok readGates _).trans ?_
  refine (bind_of_ok readConstraints _).trans ?_
  dsimp only
  rw [if_pos mismatch]
  rfl

/-- Operands whose declared numbers agree with the sizes are not refused for the sizes. -/
theorem gateOperands_failsOtherwise
    (agree : ¬(sizes.length ≠ gates ∨ Sizes.total? sizes ≠ some constraints)) :
    FailsOtherwise (instruction.gateOperands machine) := by
  refine .of_eq (bind_of_ok readSizes _) ?_
  refine .of_eq (bind_of_ok readGates _) ?_
  refine .of_eq (bind_of_ok readConstraints _) ?_
  dsimp only
  rw [if_neg agree]
  cases GateShape.make sizes with
  | error failure => nofun
  | ok shape =>
      refine (instruction.inputVector_failsOtherwise machine 0 gates).bind fun selectors => ?_
      refine (instruction.inputVector_failsOtherwise machine 3 constraints).bind fun cells => ?_
      exact (instruction.scalar_failsOtherwise machine 5).bind fun challenge => .ok _

/-- A mismatch of sizes is reported, and nothing has changed. -/
theorem run_handleGateArgument_of_mismatch
    (mismatch : sizes.length ≠ gates ∨ Sizes.total? sizes ≠ some constraints) :
    instruction.handleGateArgument.run machine =
      (.error (.report (.size (.gateSizes gates sizes.length constraints (Sizes.total? sizes)))),
        machine) := by
  unfold handleGateArgument
  rw [run_read_bind, gateOperands_of_mismatch readSizes readGates readConstraints mismatch]

/-- Where the sizes agree, a gate argument is not refused for them. -/
theorem handleGateArgument_failsOtherwise
    (agree : ¬(sizes.length ≠ gates ∨ Sizes.total? sizes ≠ some constraints))
    (failGates failSizes failConstraints : Nat)
    (failSum : Option Nat) :
    (instruction.handleGateArgument.run machine).1 ≠
      .error (.report (.size (.gateSizes failGates failSizes failConstraints failSum))) := by
  have otherwise := @gateOperands_failsOtherwise _ _ machine _ _ _ readSizes readGates
    readConstraints agree
  unfold handleGateArgument
  rw [run_read_bind]
  cases read : instruction.gateOperands machine with
  | error failure =>
      intro failed
      cases failed
      exact otherwise _ _ _ _ read
  | ok operands =>
      obtain ⟨shape, input⟩ := operands
      dsimp only
      rw [run_assemble_bind]
      rcases (Gadget.gateArgument shape input).run machine.transcript with
        ⟨stop | cell, transcript⟩
      · cases stop <;> nofun
      · nofun

/-- A gate argument is refused for its sizes exactly if its declared numbers disagree with them. -/
theorem handleGateArgument_checks :
    ((∀ failGates failSizes failConstraints failSum,
        (instruction.handleGateArgument.run machine).1 ≠
          .error (.report (.size (.gateSizes failGates failSizes failConstraints failSum)))) ↔
      sizes.length = gates ∧ (sizes.map UInt64.toNat).sum = constraints)
    ∧ (¬(sizes.length = gates ∧ (sizes.map UInt64.toNat).sum = constraints) →
      instruction.handleGateArgument.run machine =
        (.error (.report (.size (.gateSizes gates sizes.length constraints
          (Sizes.ofNat? (sizes.map UInt64.toNat).sum)))), machine)) := by
  have declared := lt_word_of_constantSize readConstraints
  have agree : (sizes.length = gates ∧ (sizes.map UInt64.toNat).sum = constraints) ↔
      ¬(sizes.length ≠ gates ∨ Sizes.total? sizes ≠ some constraints) := by
    rw [not_or, not_not, not_not, Sizes.total?_eq_some_iff]
    exact and_congr_right fun _ =>
      ⟨fun same => ⟨same.symm, declared⟩, fun both => both.1.symm⟩
  have refused := @run_handleGateArgument_of_mismatch _ _ machine _ _ _ readSizes readGates
    readConstraints
  rw [agree, not_not, ← Sizes.total?_eq]
  refine ⟨⟨fun passes mismatch => ?_, fun same => ?_⟩, refused⟩
  · exact passes _ _ _ _ (congrArg Prod.fst (refused mismatch))
  · exact handleGateArgument_failsOtherwise readSizes readGates readConstraints same

end GateOperands

end Instruction

/--
Sums of sizes are those of the natural numbers wherever sizes are checked.

A shape of some gate has the exact sum for its total, and the totals of the sizes
of a lookup argument are the exact ones, or there is none because it is no size.
The order of the entries is of no account. The shape of a lookup argument is
accepted exactly if its lengths are as declared, no sum is too large, and there is
a number of inputs for each constraint. A gate argument is refused for its sizes
exactly if they are not as many, or do not have the sum, that is declared; and
then nothing has changed.
-/
theorem sizeChecks_exact (field : PrimeField) :
    (∀ sizes : List UInt64, sizes ≠ [] →
      GateShape.make sizes =
        match Sizes.ofNat? (sizes.map UInt64.toNat).sum with
        | some total => .ok ⟨sizes, total⟩
        | none => .error (.shape .gateSizesOverflow))
      ∧ (∀ sizes : LookupSizes,
        sizes.constraints? = Sizes.ofNat? sizes.constraintCount
          ∧ sizes.inputs? = Sizes.ofNat? sizes.inputCount
          ∧ sizes.options? = Sizes.ofNat? sizes.optionCount)
      ∧ (∀ sizes other : List UInt64, sizes.Perm other →
        (GateShape.make sizes).map GateShape.total = (GateShape.make other).map GateShape.total)
      ∧ (∀ sizes other : LookupSizes,
        (sizes.gateConstraints.Perm other.gateConstraints →
          sizes.constraints? = other.constraints?)
        ∧ (sizes.constraintInputs.Perm other.constraintInputs → sizes.inputs? = other.inputs?)
        ∧ ((sizes.tableOptions.zip sizes.tableColumns).Perm
            (other.tableOptions.zip other.tableColumns) → sizes.options? = other.options?))
      ∧ (∀ (gates tables : Nat) (sizes : LookupSizes),
        (∃ shape, LookupShape.make gates tables sizes = .ok shape) ↔
          (sizes.gateConstraints.length = gates ∧ sizes.tableOptions.length = tables
            ∧ sizes.tableColumns.length = tables)
          ∧ (sizes.constraintCount < 1 <<< 64 ∧ sizes.inputCount < 1 <<< 64
            ∧ sizes.optionCount < 1 <<< 64)
          ∧ sizes.constraintInputs.length = sizes.constraintCount)
      ∧ ∀ (instruction : Instruction) (machine : Machine field) (sizes : List UInt64)
        (gates constraints : Nat),
        instruction.constantVector 1 = .ok sizes → instruction.constantSize 2 = .ok gates →
        instruction.constantSize 4 = .ok constraints →
          ((∀ failGates failSizes failConstraints failSum,
              (instruction.handleGateArgument.run machine).1 ≠ .error (.report
                (.size (.gateSizes failGates failSizes failConstraints failSum)))) ↔
            sizes.length = gates ∧ (sizes.map UInt64.toNat).sum = constraints)
          ∧ (¬(sizes.length = gates ∧ (sizes.map UInt64.toNat).sum = constraints) →
            instruction.handleGateArgument.run machine =
              (.error (.report (.size (.gateSizes gates sizes.length constraints
                (Sizes.ofNat? (sizes.map UInt64.toNat).sum)))), machine)) := by
  refine ⟨fun sizes => GateShape.make_eq, fun sizes => ⟨?_, ?_, ?_⟩,
    fun sizes other => GateShape.make_perm, fun sizes other => ⟨?_, ?_, ?_⟩,
    fun gates tables sizes => LookupShape.exists_make_iff, ?_⟩
  · exact Sizes.total?_eq sizes.gateConstraints
  · exact Sizes.total?_eq sizes.constraintInputs
  · exact Sizes.totalProduct?_eq (sizes.tableOptions.zip sizes.tableColumns)
  · exact Sizes.total?_perm
  · exact Sizes.total?_perm
  · exact Sizes.totalProduct?_perm
  · intro instruction machine sizes gates constraints readSizes readGates readConstraints
    exact Instruction.handleGateArgument_checks readSizes readGates readConstraints

/-- Two sizes whose sum is one more than the largest size. -/
def halves : List UInt64 :=
  [0x8000000000000000, 0x8000000000000000]

/-- A gate argument of two gates that declares no constraints. -/
def wrapToZero : Instruction :=
  ⟨⟨5⟩, .gateArgument, [.value ⟨0⟩ .pointer, .constant (.array halves), .constant (.integer 2),
    .value ⟨1⟩ .pointer, .constant (.integer 0), .value ⟨2⟩ .pointer]⟩

/-- A sum that would wrap around to zero is not the number of no constraints, and is no total. -/
theorem sizeChecks_exact_wrapToZero :
    wrapToZero.constantVector 1 = .ok halves
      ∧ wrapToZero.constantSize 2 = .ok 2
      ∧ wrapToZero.constantSize 4 = .ok 0
      ∧ wrapToZero.handleGateArgument.run Program.freshMachine =
        (.error (.report (.size (.gateSizes 2 2 0 none))), Program.freshMachine)
      ∧ GateShape.make halves = .error (.shape .gateSizesOverflow) := by
  obtain ⟨gateShapes, -, -, -, -, gateArguments⟩ := sizeChecks_exact .bn254Scalar
  obtain ⟨-, refused⟩ := gateArguments wrapToZero Program.freshMachine halves 2 0 rfl rfl rfl
  exact ⟨rfl, rfl, rfl, refused (by decide), gateShapes halves (List.cons_ne_nil _ _)⟩

end Plonkish
