import Plonkish.Proofs.Gadget.LookupValues
import Plonkish.Proofs.Machine.Delivery
import Plonkish.Proofs.Program.Effect

namespace Plonkish

/-!
# Operands of lookup arguments

What each operand of a lookup argument is for. The operands pass the sizes of
gates and tables, and the cells of the argument in the places of their sizes; the
lengths that are declared along with the cells are those that the sizes ask for.
An instruction succeeds exactly if its operands pass an argument in this way, and
then binds the four values of that argument.
-/

namespace LookupSizes

/-- How many constraints all gates have. -/
def constraintCount (sizes : LookupSizes) : Nat :=
  (sizes.gateConstraints.map UInt64.toNat).sum

/-- How many inputs all constraints have. -/
def inputCount (sizes : LookupSizes) : Nat :=
  (sizes.constraintInputs.map UInt64.toNat).sum

/-- How many cells the options of all tables have. -/
def optionCount (sizes : LookupSizes) : Nat :=
  ((sizes.tableOptions.zip sizes.tableColumns).map
    fun pair => pair.1.toNat * pair.2.toNat).sum

/-- The shape of sizes that agree. -/
def shape (sizes : LookupSizes) : LookupShape where
  sizes
  constraints := sizes.constraintCount
  inputs := sizes.inputCount
  options := sizes.optionCount

end LookupSizes

namespace Instruction

variable {field : PrimeField}

/-! ## Single operands -/

section Readers

variable {instruction : Instruction} {machine : Machine field} {index : Nat}

/-- A list of sizes is read exactly from an operand that is an array constant. -/
theorem constantVector_eq_ok_iff {values : List UInt64} :
    instruction.constantVector index = .ok values ↔
      instruction.operands[index]? = some (.constant (.array values)) := by
  rw [← operand_eq_ok_iff, constantVector, constant]
  cases instruction.operand index with
  | error failure => exact iff_of_false nofun nofun
  | ok given =>
      cases given with
      | value id type => exact iff_of_false nofun nofun
      | constant content =>
          cases content with
          | integer value => exact iff_of_false nofun nofun
          | field kind digits => exact iff_of_false nofun nofun
          | array found =>
              change Except.ok found = .ok values ↔ _
              simp

/-- A scalar is read exactly from the name of a bound cell. -/
theorem scalar_eq_ok_iff {cell : Cell field} :
    instruction.scalar index machine = .ok cell ↔
      instruction.BoundTo machine index (.scalar cell) := by
  unfold scalar Frame.scalar
  constructor
  · intro read
    obtain ⟨slot, bound, _, isScalar⟩ := exists_boundTo_of_bind read
    cases slot with
    | vector cells => cases isScalar
    | scalar found =>
        cases isScalar
        exact bound
  · intro bound
    exact bind_of_boundTo bound fun _ => rfl

/-- A vector is read exactly from the name of bound cells. -/
theorem vector_eq_ok_iff {cells : List (Cell field)} :
    instruction.vector index machine = .ok cells ↔
      instruction.BoundTo machine index (.vector cells) := by
  unfold vector Frame.vector
  constructor
  · intro read
    obtain ⟨slot, bound, _, isVector⟩ := exists_boundTo_of_bind read
    cases slot with
    | scalar found => cases isVector
    | vector found =>
        cases isVector
        exact bound
  · intro bound
    exact bind_of_boundTo bound fun _ => rfl

/-- A pair is read exactly from the name of two bound cells. -/
theorem pair_eq_ok_iff {pair : Cell field × Cell field} :
    instruction.pair index machine = .ok pair ↔
      instruction.BoundTo machine index (.vector [pair.1, pair.2]) := by
  rw [← vector_eq_ok_iff]
  constructor
  · intro read
    obtain ⟨cells, isVector, read⟩ := ok_of_bind read
    rw [isVector]
    split at read
    · cases read
      rfl
    · cases read
  · intro isVector
    exact bind_of_ok isVector _

/-- An input vector has the length that the operand behind it gives. -/
theorem sizedVector_eq_ok_iff
    (bounded : machine.memory.size < 1 <<< 64)
    {cells : List (Cell field)} :
    instruction.sizedVector index machine = .ok cells ↔
      instruction.constantSize (index + 1) = .ok cells.length
        ∧ instruction.Delivers machine index cells := by
  constructor
  · intro read
    obtain ⟨size, declared, read⟩ := ok_of_bind read
    obtain ⟨rfl, delivers⟩ := (inputVector_eq_ok_iff bounded).mp read
    exact ⟨declared, delivers⟩
  · rintro ⟨declared, delivers⟩
    exact (bind_of_ok declared _).trans ((inputVector_eq_ok_iff bounded).mpr ⟨rfl, delivers⟩)

end Readers

/-! ## All operands -/

/-- An operand delivers as many cells as asked for, and the operand behind it says so. -/
structure PassesVector
    (instruction : Instruction)
    (machine : Machine field)
    (index : Nat)
    (cells : List (Cell field))
    (count : Nat) :
    Prop where
  delivers : instruction.Delivers machine index cells
  length : cells.length = count
  declared : instruction.constantSize (index + 1) = .ok count

/-- The operands of an instruction pass the sizes of gates and tables, which agree. -/
structure PassesSizes (instruction : Instruction) (sizes : LookupSizes) : Prop where
  tableOptions : instruction.operands[0]? = some (.constant (.array sizes.tableOptions))
  tables : instruction.constantSize 1 = .ok sizes.tableOptions.length
  tableColumns : instruction.operands[2]? = some (.constant (.array sizes.tableColumns))
  tablesRepeated : instruction.constantSize 3 = .ok sizes.tableColumns.length
  gateConstraints : instruction.operands[4]? = some (.constant (.array sizes.gateConstraints))
  gates : instruction.constantSize 5 = .ok sizes.gateConstraints.length
  constraintInputs : instruction.operands[6]? = some (.constant (.array sizes.constraintInputs))
  constraints : instruction.constantSize 7 = .ok sizes.constraintCount
  /-- Options and columns are those of the same tables. -/
  sameTables : sizes.tableColumns.length = sizes.tableOptions.length
  /-- There is a number of inputs for each constraint of a gate. -/
  sameConstraints : sizes.constraintInputs.length = sizes.constraintCount
  inWord : sizes.constraintCount < 1 <<< 64 ∧ sizes.inputCount < 1 <<< 64
    ∧ sizes.optionCount < 1 <<< 64

/-- The operands of an instruction pass the cells of a lookup argument of some sizes. -/
structure PassesLookup
    (instruction : Instruction)
    (machine : Machine field)
    (sizes : LookupSizes)
    (input : LookupCells field) :
    Prop where
  passesSizes : instruction.PassesSizes sizes
  alphas : instruction.PassesVector machine 8 input.alphas input.alphas.length
  gateSelectors : instruction.PassesVector machine 10 input.gateSelectors
    sizes.gateConstraints.length
  tableIds : instruction.PassesVector machine 12 input.tableIds sizes.constraintCount
  lookupInputs : instruction.PassesVector machine 14 input.lookupInputs sizes.inputCount
  tableSelectors : instruction.PassesVector machine 16 input.tableSelectors
    sizes.tableOptions.length
  options : instruction.PassesVector machine 18 input.options sizes.optionCount
  shiftedTableSelectors : instruction.PassesVector machine 20 input.shiftedTableSelectors
    sizes.tableOptions.length
  shiftedOptions : instruction.PassesVector machine 22 input.shiftedOptions sizes.optionCount
  /-- There is one more pair of sorted values than there are challenges to link them. -/
  sorted : instruction.PassesVector machine 24 input.sorted (2 * (input.alphas.length + 1))
  theta : instruction.BoundTo machine 26 (.scalar input.theta)
  beta : instruction.BoundTo machine 27 (.scalar input.beta)
  gamma : instruction.BoundTo machine 28 (.scalar input.gamma)
  firstRow : instruction.BoundTo machine 29 (.scalar input.firstRow)
  accumulator : instruction.BoundTo machine 30
    (.vector [input.accumulator.current, input.accumulator.next])
  lastRow : instruction.BoundTo machine 31 (.vector [input.lastRow.current, input.lastRow.next])
  blindRows : instruction.BoundTo machine 32
    (.vector [input.blindRows.current, input.blindRows.next])

section Lookup

variable {instruction : Instruction} {machine : Machine field}

/-- The shape is read exactly if the operands pass its sizes. -/
theorem lookupShape_eq_ok_iff {shape : LookupShape} :
    instruction.lookupShape = .ok shape ↔ instruction.PassesSizes shape.sizes ∧ shape.Exact := by
  constructor
  · intro read
    obtain ⟨tables, isTables, read⟩ := ok_of_bind read
    obtain ⟨repeated, isRepeated, read⟩ := ok_of_bind read
    dsimp only at read
    split at read
    · cases read
    next same =>
    obtain ⟨gates, isGates, read⟩ := ok_of_bind read
    obtain ⟨tableOptions, areOptions, read⟩ := ok_of_bind read
    obtain ⟨tableColumns, areColumns, read⟩ := ok_of_bind read
    obtain ⟨gateConstraints, areConstraints, read⟩ := ok_of_bind read
    obtain ⟨constraintInputs, areInputs, read⟩ := ok_of_bind read
    cases made : LookupShape.make gates tables
        { gateConstraints, constraintInputs, tableOptions, tableColumns } with
    | error failure =>
        rw [made] at read
        cases read
    | ok found =>
        rw [made] at read
        simp only [pure_bind] at read
        obtain ⟨constraints, isConstraints, read⟩ := ok_of_bind read
        split at read
        · cases read
        next sameConstraints =>
        cases read
        obtain ⟨⟨rfl, rfl⟩, sameSizes, exact⟩ := LookupShape.make_eq_ok_iff.mp made
        obtain ⟨sizes, constraints, inputs, options⟩ := shape
        obtain rfl := sameSizes
        have sameTables := exact.tables
        have isCount := exact.constraints
        have inWord := exact.bounded
        rw [exact.inputs, exact.options, isCount] at inWord
        obtain rfl := not_not.mp same
        obtain rfl := not_not.mp sameConstraints
        exact ⟨{
          tableOptions := constantVector_eq_ok_iff.mp areOptions
          tables := isTables
          tableColumns := constantVector_eq_ok_iff.mp areColumns
          tablesRepeated := isRepeated.trans (congrArg Except.ok sameTables.symm)
          gateConstraints := constantVector_eq_ok_iff.mp areConstraints
          gates := isGates
          constraintInputs := constantVector_eq_ok_iff.mp areInputs
          constraints := isConstraints.trans (congrArg Except.ok isCount)
          sameTables
          sameConstraints := exact.widths.trans isCount
          inWord
        }, exact⟩
  · rintro ⟨passes, exact⟩
    refine (bind_of_ok passes.tables _).trans ?_
    refine (bind_of_ok passes.tablesRepeated _).trans ?_
    dsimp only
    rw [if_neg (not_not.mpr passes.sameTables)]
    refine (bind_of_ok passes.gates _).trans ?_
    refine (bind_of_ok (constantVector_eq_ok_iff.mpr passes.tableOptions) _).trans ?_
    refine (bind_of_ok (constantVector_eq_ok_iff.mpr passes.tableColumns) _).trans ?_
    refine (bind_of_ok (constantVector_eq_ok_iff.mpr passes.gateConstraints) _).trans ?_
    refine (bind_of_ok (constantVector_eq_ok_iff.mpr passes.constraintInputs) _).trans ?_
    have made := LookupShape.make_eq_ok_iff.mpr ⟨⟨rfl, rfl⟩, rfl, exact⟩
    rw [made]
    simp only [pure_bind]
    refine (bind_of_ok passes.constraints _).trans ?_
    exact if_neg (not_not.mpr exact.constraints.symm)

variable {shape : LookupShape} {input : LookupCells field} {sizes : LookupSizes}

/-- Sizes that pass are exact: all of their totals are sizes and agree. -/
theorem PassesSizes.exact (passes : instruction.PassesSizes sizes) : sizes.shape.Exact where
  constraints := rfl
  inputs := rfl
  options := rfl
  bounded := passes.inWord
  widths := passes.sameConstraints
  tables := passes.sameTables

/-- Sizes that pass are those of the shape that is read. -/
theorem PassesSizes.lookupShape_eq (passes : instruction.PassesSizes sizes) :
    instruction.lookupShape = .ok sizes.shape :=
  lookupShape_eq_ok_iff.mpr ⟨passes, passes.exact⟩

/-- Cells that pass fit the shape. -/
theorem PassesLookup.fits (passes : instruction.PassesLookup machine sizes input) :
    input.Fits sizes.shape where
  sorted := by
    rw [passes.sorted.length]
    omega
  alphas := by
    rw [passes.sorted.length]
    omega
  gateSelectors := passes.gateSelectors.length
  tableIds := passes.tableIds.length
  lookupInputs := passes.lookupInputs.length
  tableSelectors := passes.tableSelectors.length
  shiftedTableSelectors := passes.shiftedTableSelectors.length
  options := passes.options.length
  shiftedOptions := passes.shiftedOptions.length

/-- What a lookup argument that was read comes to. -/
theorem run_handleLookupArgument
    (shaped : instruction.lookupShape = .ok shape)
    (read : instruction.lookupCells machine = .ok input) :
    instruction.handleLookupArgument.run machine =
      match (Gadget.lookupArgument shape input).run machine.transcript with
      | (.ok result, transcript) =>
          (.ok (), {
            machine with
            transcript
            frame := machine.frame.bind instruction.id (.vector result.toList)
          })
      | (.error stop, transcript) =>
          (.error (stop.map .circuit), { machine with transcript }) := by
  unfold handleLookupArgument
  rw [Translation.run_ofExcept_bind, shaped]
  dsimp only
  rw [Translation.run_read_bind, read]
  dsimp only
  rw [Translation.run_assemble_bind]
  rcases (Gadget.lookupArgument shape input).run machine.transcript with
    ⟨stop | result, transcript⟩ <;> rfl

variable (bounded : machine.memory.size < 1 <<< 64)

include bounded

/-- A vector that is read with its declared length passes that length. -/
theorem passesVector_of_sizedVector
    {index count : Nat}
    {cells : List (Cell field)}
    (read : instruction.sizedVector index machine = .ok cells)
    (length : cells.length = count) :
    instruction.PassesVector machine index cells count := by
  obtain ⟨declared, delivers⟩ := (sizedVector_eq_ok_iff bounded).mp read
  exact ⟨delivers, length, length ▸ declared⟩

/-- A vector that passes is the one that is read. -/
theorem PassesVector.sizedVector_eq
    {index count : Nat}
    {cells : List (Cell field)}
    (passes : instruction.PassesVector machine index cells count) :
    instruction.sizedVector index machine = .ok cells :=
  (sizedVector_eq_ok_iff bounded).mpr ⟨passes.length ▸ passes.declared, passes.delivers⟩

/-- Operands that are read as cells that fit pass a lookup argument of those cells. -/
theorem passesLookup_of_read
    (shaped : instruction.lookupShape = .ok shape)
    (read : instruction.lookupCells machine = .ok input)
    (fits : input.Fits shape) :
    instruction.PassesLookup machine shape.sizes input := by
  obtain ⟨passesSizes, exact⟩ := lookupShape_eq_ok_iff.mp shaped
  obtain ⟨alphas, areAlphas, read⟩ := ok_of_bind read
  obtain ⟨gateSelectors, areGateSelectors, read⟩ := ok_of_bind read
  obtain ⟨tableIds, areTableIds, read⟩ := ok_of_bind read
  obtain ⟨lookupInputs, areInputs, read⟩ := ok_of_bind read
  obtain ⟨tableSelectors, areTableSelectors, read⟩ := ok_of_bind read
  obtain ⟨options, areOptions, read⟩ := ok_of_bind read
  obtain ⟨shiftedTableSelectors, areShiftedSelectors, read⟩ := ok_of_bind read
  obtain ⟨shiftedOptions, areShiftedOptions, read⟩ := ok_of_bind read
  obtain ⟨sorted, areSorted, read⟩ := ok_of_bind read
  obtain ⟨theta, isTheta, read⟩ := ok_of_bind read
  obtain ⟨beta, isBeta, read⟩ := ok_of_bind read
  obtain ⟨gamma, isGamma, read⟩ := ok_of_bind read
  obtain ⟨firstRow, isFirstRow, read⟩ := ok_of_bind read
  obtain ⟨accumulator, isAccumulator, read⟩ := ok_of_bind read
  obtain ⟨lastRow, isLastRow, read⟩ := ok_of_bind read
  obtain ⟨blindRows, isBlindRows, read⟩ := ok_of_bind read
  cases read
  have passes {index count : Nat} {cells : List (Cell field)} :
      instruction.sizedVector index machine = .ok cells → cells.length = count →
        instruction.PassesVector machine index cells count :=
    passesVector_of_sizedVector bounded
  have sortedPairs := fits.sorted
  have linked := fits.alphas
  dsimp only at sortedPairs linked
  exact {
    passesSizes
    alphas := passes areAlphas rfl
    gateSelectors := passes areGateSelectors fits.gateSelectors
    tableIds := passes areTableIds (fits.tableIds.trans exact.constraints)
    lookupInputs := passes areInputs (fits.lookupInputs.trans exact.inputs)
    tableSelectors := passes areTableSelectors fits.tableSelectors
    options := passes areOptions (fits.options.trans exact.options)
    shiftedTableSelectors := passes areShiftedSelectors fits.shiftedTableSelectors
    shiftedOptions := passes areShiftedOptions (fits.shiftedOptions.trans exact.options)
    sorted := passes areSorted (by dsimp only; omega)
    theta := scalar_eq_ok_iff.mp isTheta
    beta := scalar_eq_ok_iff.mp isBeta
    gamma := scalar_eq_ok_iff.mp isGamma
    firstRow := scalar_eq_ok_iff.mp isFirstRow
    accumulator := pair_eq_ok_iff.mp isAccumulator
    lastRow := pair_eq_ok_iff.mp isLastRow
    blindRows := pair_eq_ok_iff.mp isBlindRows
  }

/-- The cells that the operands pass are those that are read. -/
theorem PassesLookup.lookupCells_eq (passes : instruction.PassesLookup machine sizes input) :
    instruction.lookupCells machine = .ok input := by
  refine (bind_of_ok (passes.alphas.sizedVector_eq bounded) _).trans ?_
  refine (bind_of_ok (passes.gateSelectors.sizedVector_eq bounded) _).trans ?_
  refine (bind_of_ok (passes.tableIds.sizedVector_eq bounded) _).trans ?_
  refine (bind_of_ok (passes.lookupInputs.sizedVector_eq bounded) _).trans ?_
  refine (bind_of_ok (passes.tableSelectors.sizedVector_eq bounded) _).trans ?_
  refine (bind_of_ok (passes.options.sizedVector_eq bounded) _).trans ?_
  refine (bind_of_ok (passes.shiftedTableSelectors.sizedVector_eq bounded) _).trans ?_
  refine (bind_of_ok (passes.shiftedOptions.sizedVector_eq bounded) _).trans ?_
  refine (bind_of_ok (passes.sorted.sizedVector_eq bounded) _).trans ?_
  refine (bind_of_ok (scalar_eq_ok_iff.mpr passes.theta) _).trans ?_
  refine (bind_of_ok (scalar_eq_ok_iff.mpr passes.beta) _).trans ?_
  refine (bind_of_ok (scalar_eq_ok_iff.mpr passes.gamma) _).trans ?_
  refine (bind_of_ok (scalar_eq_ok_iff.mpr passes.firstRow) _).trans ?_
  have accumulator := @pair_eq_ok_iff _ instruction machine 30
    (input.accumulator.current, input.accumulator.next)
  have lastRow := @pair_eq_ok_iff _ instruction machine 31
    (input.lastRow.current, input.lastRow.next)
  have blindRows := @pair_eq_ok_iff _ instruction machine 32
    (input.blindRows.current, input.blindRows.next)
  refine (bind_of_ok (accumulator.mpr passes.accumulator) _).trans ?_
  refine (bind_of_ok (lastRow.mpr passes.lastRow) _).trans ?_
  refine (bind_of_ok (blindRows.mpr passes.blindRows) _).trans ?_
  rfl

/-- A lookup argument that succeeds was passed by its operands. -/
theorem exists_passesLookup_of_ok
    {after : Machine field}
    (opcode : instruction.opcode = .lookupArgument)
    (ended : instruction.handleLookupArgument.run machine = (.ok (), after)) :
    ∃ sizes input, instruction.PassesLookup machine sizes input
      ∧ sizes.widest ≤ Gadget.largestReserve := by
  have ends := @handleLookupArgument_ends _ [] instruction machine opcode
  rw [ended] at ends
  cases ends with
  | @evaluatedLookups shape input result transcript _ shaped read computed =>
      -- Cells that do not fit are refused or crash, so that a result shows that they fit.
      obtain ⟨fits, holdable⟩ := (Gadget.lookupArgument_completes_iff
        (exact_of_lookupShape shaped) input machine.transcript).mp ⟨result, transcript, computed⟩
      exact ⟨shape.sizes, input, passesLookup_of_read bounded shaped read fits, holdable⟩
  | boundInput other | boundArray other | allocated other | loaded other | selected other
  | added other | wroteCosets other | evaluatedGates other =>
      rw [opcode] at other
      cases other

end Lookup

/--
A lookup argument succeeds exactly if its operands pass the sizes and the cells of one,
where all declared lengths agree, and then its name is bound to the four values of
the formulas for just these sizes and cells.
-/
theorem handleLookupArgument_exact
    {policy : Policy}
    {machine : Machine field}
    (reachable : machine.Reachable policy)
    {instruction : Instruction}
    (opcode : instruction.opcode = .lookupArgument)
    (inputs : List InputValue) :
    (((instruction.handle inputs).run machine).1 = .ok () ↔
        ∃ sizes input, instruction.PassesLookup machine sizes input
          ∧ sizes.widest ≤ Gadget.largestReserve)
      ∧ ∀ sizes input after, instruction.PassesLookup machine sizes input →
          (instruction.handle inputs).run machine = (.ok (), after) →
            ∃ results, after.frame = machine.frame.bind instruction.id (.vector results)
              ∧ ∀ read, Valuation.Faithful machine.transcript after.transcript read →
                  results.map read = (input.readBy read).results sizes := by
  have bounded : machine.memory.size < 1 <<< 64 :=
    Nat.lt_of_le_of_lt reachable.memory_bounds.2 (by decide)
  have handles : (instruction.handle inputs : Translation field Unit) =
      instruction.handleLookupArgument := by rw [handle, opcode]
  rw [handles]
  refine ⟨⟨fun succeeds => ?_, ?_⟩, fun sizes input after passes ended => ?_⟩
  · exact exists_passesLookup_of_ok bounded opcode (Prod.ext succeeds rfl)
  · rintro ⟨sizes, input, passes, holdable⟩
    obtain ⟨result, transcript, computed⟩ := (Gadget.lookupArgument_completes_iff
      passes.passesSizes.exact input machine.transcript).mpr ⟨passes.fits, holdable⟩
    rw [run_handleLookupArgument passes.passesSizes.lookupShape_eq
      (passes.lookupCells_eq bounded), computed]
  · rw [run_handleLookupArgument passes.passesSizes.lookupShape_eq
      (passes.lookupCells_eq bounded)] at ended
    rcases computed : (Gadget.lookupArgument sizes.shape input).run machine.transcript with
      ⟨stop | result, transcript⟩
    · rw [computed] at ended
      cases ended
    · rw [computed] at ended
      cases ended
      exact ⟨result.toList, rfl, fun read faithful =>
        (Gadget.lookupArgument_computes passes.fits).of_ok computed faithful⟩

end Instruction

namespace Program

/-- The inputs of a lookup argument in the order of its operands, some of them as arrays. -/
def lookupValues : List InputValue :=
  [.vector ["5", "6", "7", "8", "9"], .vector ["2", "11", "3"], .vector ["2", "16", "4"],
    .vector ["4", "1", "7"], .vector ["5", "1", "3"], .array ["6", "7", "1", "1"],
    .vector ["7", "2", "1"], .array ["7", "8", "2", "1"],
    .array ["15", "16", "14", "17", "18", "13", "12", "19", "20", "11", "10", "21"],
    .field "2", .field "3", .field "4", .field "4", .vector ["2", "3"], .vector ["5", "7"],
    .vector ["6", "8"]]

/-- The machine after some inputs of a lookup argument were bound. -/
def lookupMachine : Nat → Machine .bn254Scalar
  | 0 => freshMachine
  | index + 1 =>
      after lookupValues (bindInput ⟨.ofNat index⟩ (.ofNat index)) (lookupMachine index)

/-- Inputs are bound by instructions, so the machine can be reached. -/
theorem lookupMachine_reachable (bound : Nat) : (lookupMachine bound).Reachable .standard := by
  induction bound with
  | zero => exact .create rfl
  | succ index inductionHypothesis => exact inductionHypothesis.handle _ _

/-- The operands of a lookup argument that are vectors, each with its length. -/
def vectorOperands (lengths : List UInt64) : List Operand :=
  lengths.zipIdx.flatMap fun (length, index) =>
    [.value ⟨.ofNat index⟩ .pointer, .constant (.integer length)]

/-- A lookup argument for three constraints and tables of different sizes. -/
def evaluateLookup : Instruction :=
  ⟨⟨16⟩, .lookupArgument, [.constant (.array [0, 2, 1]), .constant (.integer 3),
    .constant (.array [3, 1, 2]), .constant (.integer 3), .constant (.array [1, 0, 2]),
    .constant (.integer 3), .constant (.array [2, 0, 1]), .constant (.integer 3)]
    ++ vectorOperands [5, 3, 3, 3, 3, 4, 3, 4, 12]
    ++ [.value ⟨9⟩ .pointer, .value ⟨10⟩ .pointer, .value ⟨11⟩ .pointer, .value ⟨12⟩ .pointer,
      .value ⟨13⟩ .pointer, .value ⟨14⟩ .pointer, .value ⟨15⟩ .pointer]⟩

/-- A cell that an input of a lookup argument was laid out as. -/
def lookupCell (offset : Nat) : Cell .bn254Scalar :=
  ⟨offset, (lookupMachine 16).transcript.valueAt offset⟩

/-- The cells that an input of a lookup argument was laid out as, from the first one on. -/
def lookupVector (first length : Nat) : List (Cell .bn254Scalar) :=
  (List.range' first length).map lookupCell

/-- The cells that the inputs of a lookup argument were laid out as. -/
def lookupInput : LookupCells .bn254Scalar where
  alphas := lookupVector 0 5
  gateSelectors := lookupVector 5 3
  tableIds := lookupVector 8 3
  lookupInputs := lookupVector 11 3
  tableSelectors := lookupVector 14 3
  options := lookupVector 17 4
  shiftedTableSelectors := lookupVector 22 3
  shiftedOptions := lookupVector 25 4
  sorted := lookupVector 30 12
  theta := lookupCell 43
  beta := lookupCell 44
  gamma := lookupCell 45
  firstRow := lookupCell 46
  accumulator := ⟨lookupCell 47, lookupCell 48⟩
  lastRow := ⟨lookupCell 49, lookupCell 50⟩
  blindRows := ⟨lookupCell 51, lookupCell 52⟩

/-- What the inputs of a lookup argument are bound to; an array is bound by its address. -/
theorem evaluateLookup_slots :
    ∀ binding ∈ ([(0, .vector (lookupVector 0 5)), (1, .vector (lookupVector 5 3)),
      (2, .vector (lookupVector 8 3)), (3, .vector (lookupVector 11 3)),
      (4, .vector (lookupVector 14 3)), (5, .scalar ⟨21, 1⟩), (6, .vector (lookupVector 22 3)),
      (7, .scalar ⟨29, 5⟩), (8, .scalar ⟨42, 9⟩), (9, .scalar (lookupCell 43)),
      (10, .scalar (lookupCell 44)), (11, .scalar (lookupCell 45)),
      (12, .scalar (lookupCell 46)), (13, .vector (lookupVector 47 2)),
      (14, .vector (lookupVector 49 2)), (15, .vector (lookupVector 51 2))] :
        List (UInt32 × Slot .bn254Scalar)),
    (lookupMachine 16).frame.get? ⟨binding.1⟩ = some binding.2 := by
  decide +kernel

/-- The operands pass uneven sizes and the cells that hold the inputs. -/
theorem evaluateLookup_passesLookup :
    evaluateLookup.PassesLookup (lookupMachine 16) Gadget.unevenSizes lookupInput := by
  have slots := evaluateLookup_slots
  simp only [List.forall_mem_cons] at slots
  obtain ⟨alphas, gateSelectors, tableIds, lookupInputs, tableSelectors, options,
    shiftedTableSelectors, shiftedOptions, sorted, theta, beta, gamma, firstRow, accumulator,
    lastRow, blindRows, -⟩ := slots
  have bound {index : Nat} {id : ValueId} {slot : Slot .bn254Scalar}
      (given : evaluateLookup.operands[index]? = some (.value id .pointer))
      (found : (lookupMachine 16).frame.get? id = some slot) :
      evaluateLookup.BoundTo (lookupMachine 16) index slot :=
    ⟨id, .pointer, given, found⟩
  have optionsHeld : (lookupMachine 16).memory.Holds 1 lookupInput.options :=
    ⟨by decide +kernel, by decide +kernel⟩
  have shiftedOptionsHeld : (lookupMachine 16).memory.Holds 5 lookupInput.shiftedOptions :=
    ⟨by decide +kernel, by decide +kernel⟩
  have sortedHeld : (lookupMachine 16).memory.Holds 9 lookupInput.sorted :=
    ⟨by decide +kernel, by decide +kernel⟩
  exact {
    passesSizes := ⟨rfl, rfl, rfl, rfl, rfl, rfl, rfl, rfl, rfl, rfl, by decide⟩
    alphas := ⟨.vector (bound rfl alphas), rfl, rfl⟩
    gateSelectors := ⟨.vector (bound rfl gateSelectors), rfl, rfl⟩
    tableIds := ⟨.vector (bound rfl tableIds), rfl, rfl⟩
    lookupInputs := ⟨.vector (bound rfl lookupInputs), rfl, rfl⟩
    tableSelectors := ⟨.vector (bound rfl tableSelectors), rfl, rfl⟩
    options := ⟨.memory (bound rfl options) (by decide) optionsHeld, rfl, rfl⟩
    shiftedTableSelectors := ⟨.vector (bound rfl shiftedTableSelectors), rfl, rfl⟩
    shiftedOptions :=
      ⟨.memory (bound rfl shiftedOptions) (by decide) shiftedOptionsHeld, rfl, rfl⟩
    sorted := ⟨.memory (bound rfl sorted) (by decide) sortedHeld, rfl, rfl⟩
    theta := bound rfl theta
    beta := bound rfl beta
    gamma := bound rfl gamma
    firstRow := bound rfl firstRow
    accumulator := bound rfl accumulator
    lastRow := bound rfl lastRow
    blindRows := bound rfl blindRows
  }

/-- Inputs in both forms give the four values of the argument that they are passed for. -/
theorem handleLookupArgument_exact_evaluateLookup :
    ∃ after results,
      (evaluateLookup.handle lookupValues).run (lookupMachine 16) = (.ok (), after)
        ∧ after.frame.get? ⟨16⟩ = some (.vector results)
        ∧ results.map Cell.value = [-4, 10, 158301446417550, -48] := by
  obtain ⟨succeeds, values⟩ := Instruction.handleLookupArgument_exact (lookupMachine_reachable 16)
    (rfl : evaluateLookup.opcode = .lookupArgument) lookupValues
  have ok := succeeds.mpr ⟨_, _, evaluateLookup_passesLookup, by decide⟩
  rcases ended : (evaluateLookup.handle lookupValues).run (lookupMachine 16) with
    ⟨outcome, after⟩
  rw [ended] at ok
  obtain rfl : outcome = .ok () := ok
  obtain ⟨results, frame, formulas⟩ := values _ _ after evaluateLookup_passesLookup ended
  refine ⟨after, results, rfl, ?_, (formulas _ .handles).trans ?_⟩
  · rw [frame, Frame.get?_bind]
    exact if_pos rfl
  · decide +kernel

end Program

end Plonkish
