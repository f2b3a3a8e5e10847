import Plonkish.Proofs.Machine.StepAgreement

namespace Plonkish

/-!
# Agreeing instructions

One instruction is translated on two machines that agree. If both translations
succeed, the machines agree afterwards, however different the values of their
cells are. The exceptions are what the instruction itself takes from a value:
the addresses that its operands hold, and the shape of the input that it binds.
-/

/-- Two inputs are of the same kind and have equally many elements. -/
def InputValue.SameShape : InputValue → InputValue → Prop
  | .field _, .field _ => True
  | .vector left, .vector right => left.length = right.length
  | .curve _ _, .curve _ _ => True
  | .array left, .array right => left.length = right.length
  | _, _ => False

/-- Inputs of the same shape have equally many elements. -/
theorem InputValue.SameShape.length_eq
    {left right : InputValue}
    (same : left.SameShape right) :
    left.elements.length = right.elements.length := by
  cases left <;> cases right <;> first | exact same | exact same.elim | rfl

namespace Instruction

variable {field : PrimeField} {aligned : Prop} (instruction : Instruction)

/-- The input that an instruction refers to has the same shape in both lists. -/
def InputsAgree (inputs others : List InputValue) : Prop :=
  ∀ index input other, instruction.constantSize 0 = .ok index →
    inputs[index]? = some input → others[index]? = some other → input.SameShape other

/-! ## Inputs -/

/-- As many elements are read as there are texts. -/
theorem mapM_alike
    {texts otherTexts : List String}
    (lengths : texts.length = otherTexts.length)
    (read : String → Except Failure (Element field)) :
    BothYield (texts.mapM read) (otherTexts.mapM read)
      (fun elements others => elements.length = others.length) := by
  cases ran : texts.mapM read with
  | error failure => trivial
  | ok elements =>
      cases otherRan : otherTexts.mapM read with
      | error failure => trivial
      | ok otherElements =>
          change elements.length = otherElements.length
          rw [length_eq_of_mapM ran, length_eq_of_mapM otherRan, lengths]

/-- Inputs that are read from the same position have the same shape. -/
theorem inputElements_alike
    {inputs others : List InputValue}
    (sameInputs : instruction.InputsAgree inputs others) :
    BothYield (instruction.inputElements field inputs) (instruction.inputElements field others)
      (fun result other =>
        result.1.SameShape other.1 ∧ result.2.length = other.2.length) := by
  unfold inputElements
  cases sized : instruction.constantSize 0 with
  | error failure => trivial
  | ok index =>
      dsimp only [bind, Except.bind]
      cases found : inputs[index]? with
      | none => trivial
      | some input =>
          cases otherFound : others[index]? with
          | none => exact BothYield.errorRight
          | some other =>
              have sameShape := sameInputs index input other sized found otherFound
              apply (mapM_alike sameShape.length_eq _).bind
              intro elements otherElements lengths
              exact ⟨sameShape, lengths⟩

/-- The same address is bound as the same constant. -/
theorem bindAddress_alike (pointer : Nat) :
    Translation.Alike aligned (instruction.bindAddress pointer : Translation field Unit)
      (instruction.bindAddress pointer) (fun _ _ => True) := by
  apply (Translation.lay_alike (Synthesis.constant_alike _)).bind
  intro cell otherCell cells
  exact Translation.bind_alike instruction.id cells

/-- As many elements are exposed at the same offsets. -/
theorem exposeElements_alike
    {elements otherElements : List (Element field)}
    (lengths : elements.length = otherElements.length) :
    Translation.Alike aligned (exposeElements elements) (exposeElements otherElements)
      (Cell.AllAgree True) := by
  apply (Translation.lay_alike (Synthesis.witnesses_alike lengths)).bind
  intro cells otherCells cellsAgree
  apply (Translation.expose_alike cellsAgree).bind
  intro _ _ _
  exact SucceedAlike.pure cellsAgree

/-- The cells of an input depend on its shape only. -/
theorem handleParam_alike
    {inputs others : List InputValue}
    (sameInputs : instruction.InputsAgree inputs others) :
    Translation.Alike aligned (instruction.handleParam inputs : Translation field Unit)
      (instruction.handleParam others) (fun _ _ => True) := by
  apply (Translation.ofExcept_alike (instruction.inputElements_alike sameInputs)).bind
  rintro ⟨input, elements⟩ ⟨otherInput, otherElements⟩ ⟨sameShape, lengths⟩
  apply (exposeElements_alike lengths).bind
  intro cells otherCells exposedAgree
  have cellsAgree : Cell.AllAgree aligned cells otherCells :=
    exposedAgree.imp fun _ _ same _ => same trivial
  cases input with
  | field element =>
      cases otherInput with
      | field otherElement =>
          cases cellsAgree with
          | nil => exact SucceedAlike.throw
          | cons first _ => exact Translation.bind_alike instruction.id first
      | vector _ => exact sameShape.elim
      | curve _ _ => exact sameShape.elim
      | array _ => exact sameShape.elim
  | vector elements =>
      cases otherInput with
      | vector otherElements => exact Translation.bind_alike instruction.id cellsAgree
      | field _ => exact sameShape.elim
      | curve _ _ => exact sameShape.elim
      | array _ => exact sameShape.elim
  | curve x y =>
      cases otherInput with
      | curve otherX otherY => exact Translation.bind_alike instruction.id cellsAgree
      | field _ => exact sameShape.elim
      | vector _ => exact sameShape.elim
      | array _ => exact sameShape.elim
  | array elements =>
      cases otherInput with
      | array otherElements =>
          dsimp only
          rw [cellsAgree.length_eq]
          apply (Translation.allocate_alike otherCells.length field.elementBytes).bind
          rintro pointer _ rfl
          apply (Translation.storeAll_alike (fun _ => rfl) cellsAgree).bind
          intro _ _ _
          exact instruction.bindAddress_alike pointer
      | field _ => exact sameShape.elim
      | vector _ => exact sameShape.elim
      | curve _ _ => exact sameShape.elim

/-! ## The other opcodes -/

theorem handleAlloca_alike :
    Translation.Alike aligned (instruction.handleAlloca : Translation field Unit)
      instruction.handleAlloca (fun _ _ => True) := by
  apply (Translation.ofExcept_alike (BothYield.refl (instruction.constantSize 0))).bind
  rintro count _ rfl
  apply (Translation.allocate_alike count field.elementBytes).bind
  rintro pointer _ rfl
  exact instruction.bindAddress_alike pointer

theorem handleSelect_alike :
    Translation.Alike aligned (instruction.handleSelect : Translation field Unit)
      instruction.handleSelect (fun _ _ => True) := by
  have readScalar (index : Nat) : Translation.Alike aligned
      (Translation.read (instruction.scalar index) : Translation field _)
      (Translation.read (instruction.scalar index)) (Cell.Agrees aligned) := by
    apply Translation.read_alike fun _ _ agrees => agrees
    intro _ _ agrees
    exact instruction.scalar_alike agrees index
  apply (readScalar 0).bind
  intro condition _ conditions
  apply (readScalar 1).bind
  intro whenTrue _ trues
  apply (readScalar 2).bind
  intro whenFalse _ falses
  apply (Translation.lay_alike (Gadget.select_alike conditions trues falses)).bind
  intro cell _ cells
  exact Translation.bind_alike instruction.id cells

/-- Two points agree if their operands do; their curve is the same in both runs. -/
theorem pointOperands_alike
    {left right : Machine field}
    (agrees : left.Agrees aligned right) :
    BothYield (instruction.pointOperands left) (instruction.pointOperands right)
      (fun points others =>
        points.1.Agrees aligned others.1 ∧ points.2.Agrees aligned others.2) := by
  apply BothYield.bind_same
  intro kind
  apply BothYield.bind_same
  intro other
  dsimp only
  by_cases different : other ≠ kind
  · rw [if_pos different]
    trivial
  rw [if_neg different]
  by_cases unsupported : kind = .curve25519 ∨ (!field.isNative kind.baseField.modulusText) = true
  · rw [if_pos unsupported]
    trivial
  rw [if_neg unsupported]
  apply (instruction.pair_alike agrees 0).bind
  intro leftPoint _ leftPoints
  apply (instruction.pair_alike agrees 1).bind
  intro rightPoint _ rightPoints
  exact ⟨⟨leftPoints.1, leftPoints.2⟩, rightPoints.1, rightPoints.2⟩

theorem handleCurveAdd_alike :
    Translation.Alike aligned (instruction.handleCurveAdd : Translation field Unit)
      instruction.handleCurveAdd (fun _ _ => True) := by
  have readPoints : Translation.Alike aligned
      (Translation.read instruction.pointOperands : Translation field _)
      (Translation.read instruction.pointOperands)
      (fun points others =>
        points.1.Agrees aligned others.1 ∧ points.2.Agrees aligned others.2) := by
    apply Translation.read_alike fun _ _ agrees => agrees
    intro _ _ agrees
    exact instruction.pointOperands_alike agrees
  apply readPoints.bind
  intro points otherPoints pointsAgree
  apply (Translation.assemble_alike (Gadget.addPoints_alike pointsAgree.1 pointsAgree.2)).bind
  intro sum otherSum sums
  exact Translation.bind_alike instruction.id (.cons sums.x (.cons sums.y .nil))

/-! ## Opcodes that follow addresses -/

variable {instruction} {left right : Machine field}
  (before : instruction.AgreesBefore aligned left right)

include before

/-- Where an instruction follows an address, the address is the same in aligned runs. -/
theorem AgreesBefore.address
    {index : Nat}
    (position : index ∈ instruction.opcode.addressPositions) :
    aligned → instruction.AddressAgrees left right index :=
  fun isAligned => before.addresses isAligned index position

/-- The same cell of both memories is loaded in aligned runs. -/
theorem loadOperands_alike (isLoad : instruction.opcode = .load) :
    BothYield (instruction.loadOperands left) (instruction.loadOperands right)
      (Cell.Agrees aligned) := by
  have position : 0 ∈ instruction.opcode.addressPositions := by
    rw [isLoad]
    decide
  apply (instruction.pointer_alike (before.address position)).bind
  intro base otherBase bases
  apply BothYield.bind_same
  intro offset
  apply (Memory.offsetAddress_alike bases offset).bind
  intro pointer otherPointer pointers
  exact Memory.load_alike before.machines.memory pointers

/-- The shape of a coset computation is constant, and its address the same in aligned runs. -/
theorem cosetOperands_alike (isCosets : instruction.opcode = .friCosets) :
    BothYield (instruction.cosetOperands left) (instruction.cosetOperands right)
      (fun operands others => (aligned → operands.1 = others.1)
        ∧ operands.2.1 = others.2.1 ∧ operands.2.2.1 = others.2.2.1
        ∧ operands.2.2.2.1 = others.2.2.2.1
        ∧ operands.2.2.2.2.Agrees aligned others.2.2.2.2) := by
  have position : 0 ∈ instruction.opcode.addressPositions := by
    rw [isCosets]
    decide
  apply (instruction.pointer_alike (before.address position)).bind
  intro result otherResult results
  apply BothYield.bind_same
  intro resultLength
  apply BothYield.bind_same
  intro root
  apply BothYield.bind_same
  intro totalBits
  apply (instruction.scalar_alike before.machines 4).bind
  intro index otherIndex indices
  exact ⟨results, rfl, rfl, rfl, indices⟩

/-- The shape of a gate argument is constant, and its cells agree. -/
theorem gateOperands_alike (isGates : instruction.opcode = .gateArgument) :
    BothYield (instruction.gateOperands left) (instruction.gateOperands right)
      (fun operands others => operands.1 = others.1 ∧ operands.2.Agrees aligned others.2) := by
  have selectorPosition : 0 ∈ instruction.opcode.addressPositions := by
    rw [isGates]
    decide
  have constraintPosition : 3 ∈ instruction.opcode.addressPositions := by
    rw [isGates]
    decide
  apply BothYield.bind_same
  intro sizes
  apply BothYield.bind_same
  intro gates
  apply BothYield.bind_same
  intro constraints
  dsimp only
  by_cases different : sizes.length ≠ gates ∨ Sizes.total? sizes ≠ some constraints
  · rw [if_pos different]
    trivial
  rw [if_neg different]
  cases GateShape.make sizes with
  | error failure => trivial
  | ok shape =>
      apply (instruction.inputVector_alike before.machines gates
        (before.address selectorPosition)).bind
      intro selectors _ selectorsAgree
      apply (instruction.inputVector_alike before.machines constraints
        (before.address constraintPosition)).bind
      intro constraintCells _ constraintsAgree
      apply (instruction.scalar_alike before.machines 5).bind
      intro challenge _ challenges
      exact ⟨rfl, challenges, constraintsAgree, selectorsAgree⟩

/-- A vector agrees with its counterpart, bound or behind the same address. -/
theorem sizedVector_alike
    {index : Nat}
    (position : index ∈ instruction.opcode.addressPositions) :
    BothYield (instruction.sizedVector index left) (instruction.sizedVector index right)
      (Cell.AllAgree aligned) := by
  apply BothYield.bind_same
  intro size
  exact instruction.inputVector_alike before.machines size (before.address position)

/-- The cells of a lookup argument agree. -/
theorem lookupCells_alike (isLookup : instruction.opcode = .lookupArgument) :
    BothYield (instruction.lookupCells left) (instruction.lookupCells right)
      (LookupCells.Agrees aligned) := by
  have positions : instruction.opcode.addressPositions = [8, 10, 12, 14, 16, 18, 20, 22, 24] := by
    rw [isLookup]
    rfl
  have vectorAlike (index : Nat) (position : index ∈ [8, 10, 12, 14, 16, 18, 20, 22, 24]) :
      BothYield (instruction.sizedVector index left) (instruction.sizedVector index right)
        (Cell.AllAgree aligned) := by
    rw [← positions] at position
    exact sizedVector_alike before position
  apply (vectorAlike 8 (by decide)).bind
  intro alphas _ alphasAgree
  apply (vectorAlike 10 (by decide)).bind
  intro gateSelectors _ gatesAgree
  apply (vectorAlike 12 (by decide)).bind
  intro tableIds _ idsAgree
  apply (vectorAlike 14 (by decide)).bind
  intro lookupInputs _ inputsAgree
  apply (vectorAlike 16 (by decide)).bind
  intro tableSelectors _ tablesAgree
  apply (vectorAlike 18 (by decide)).bind
  intro options _ optionsAgree
  apply (vectorAlike 20 (by decide)).bind
  intro shiftedTableSelectors _ shiftedTablesAgree
  apply (vectorAlike 22 (by decide)).bind
  intro shiftedOptions _ shiftedOptionsAgree
  apply (vectorAlike 24 (by decide)).bind
  intro sorted _ sortedAgree
  apply (instruction.scalar_alike before.machines 26).bind
  intro theta _ thetas
  apply (instruction.scalar_alike before.machines 27).bind
  intro beta _ betas
  apply (instruction.scalar_alike before.machines 28).bind
  intro gamma _ gammas
  apply (instruction.scalar_alike before.machines 29).bind
  intro firstRow _ firstRows
  apply (instruction.pair_alike before.machines 30).bind
  intro accumulator _ accumulators
  apply (instruction.pair_alike before.machines 31).bind
  intro lastRow _ lastRows
  apply (instruction.pair_alike before.machines 32).bind
  intro blindRows _ blinds
  exact {
    theta := thetas, beta := betas, gamma := gammas, alphas := alphasAgree
    accumulator := ⟨accumulators.1, accumulators.2⟩
    lastRow := ⟨lastRows.1, lastRows.2⟩
    blindRows := ⟨blinds.1, blinds.2⟩
    firstRow := firstRows, gateSelectors := gatesAgree, tableIds := idsAgree
    lookupInputs := inputsAgree, tableSelectors := tablesAgree, options := optionsAgree
    shiftedTableSelectors := shiftedTablesAgree, shiftedOptions := shiftedOptionsAgree
    sorted := sortedAgree
  }

omit before

variable (instruction)

/-- Which cell is bound depends on the address, and on nothing else in the machine. -/
theorem handleLoad_alike (isLoad : instruction.opcode = .load) :
    SucceedAlike (instruction.AgreesBefore aligned) (Machine.Agrees aligned)
      (instruction.handleLoad : Translation field Unit) instruction.handleLoad
      (fun _ _ => True) := by
  have readCell : SucceedAlike (instruction.AgreesBefore aligned) (Machine.Agrees aligned)
      (Translation.read instruction.loadOperands : Translation field _)
      (Translation.read instruction.loadOperands) (Cell.Agrees aligned) := by
    apply Translation.read_alike fun _ _ before => before.machines
    intro _ _ before
    exact loadOperands_alike before isLoad
  apply readCell.bind
  intro cell otherCell cells
  exact Translation.bind_alike instruction.id cells

theorem handleFriCosets_alike (isCosets : instruction.opcode = .friCosets) :
    SucceedAlike (instruction.AgreesBefore aligned) (Machine.Agrees aligned)
      (instruction.handleFriCosets : Translation field Unit) instruction.handleFriCosets
      (fun _ _ => True) := by
  have readOperands : SucceedAlike (instruction.AgreesBefore aligned) (Machine.Agrees aligned)
      (Translation.read instruction.cosetOperands : Translation field _)
      (Translation.read instruction.cosetOperands)
      (fun operands others => (aligned → operands.1 = others.1)
        ∧ operands.2.1 = others.2.1 ∧ operands.2.2.1 = others.2.2.1
        ∧ operands.2.2.2.1 = others.2.2.2.1
        ∧ operands.2.2.2.2.Agrees aligned others.2.2.2.2) := by
    apply Translation.read_alike fun _ _ before => before.machines
    intro _ _ before
    exact cosetOperands_alike before isCosets
  apply readOperands.bind
  rintro ⟨result, resultLength, root, totalBits, index⟩ ⟨otherResult, _, _, _, otherIndex⟩
    ⟨results, rfl, rfl, rfl, indices⟩
  dsimp only at results indices ⊢
  cases CosetShape.make resultLength totalBits root with
  | error failure => exact SucceedAlike.throw
  | ok shape =>
      simp only [pure_bind]
      apply Translation.get_alike.bind
      intro machine otherMachine _
      apply (Translation.ofExcept_alike BothYield.unit).bind
      intro _ _ _
      apply (Translation.assemble_alike (Gadget.cosets_alike shape indices)).bind
      intro rounds otherRounds roundsAgree
      exact Translation.storeAll_alike results (CosetCells.allAgree_flatMap roundsAgree)

theorem handleGateArgument_alike (isGates : instruction.opcode = .gateArgument) :
    SucceedAlike (instruction.AgreesBefore aligned) (Machine.Agrees aligned)
      (instruction.handleGateArgument : Translation field Unit) instruction.handleGateArgument
      (fun _ _ => True) := by
  have readOperands : SucceedAlike (instruction.AgreesBefore aligned) (Machine.Agrees aligned)
      (Translation.read instruction.gateOperands : Translation field _)
      (Translation.read instruction.gateOperands)
      (fun operands others => operands.1 = others.1 ∧ operands.2.Agrees aligned others.2) := by
    apply Translation.read_alike fun _ _ before => before.machines
    intro _ _ before
    exact gateOperands_alike before isGates
  apply readOperands.bind
  rintro ⟨shape, input⟩ ⟨_, otherInput⟩ ⟨rfl, inputs⟩
  apply (Translation.assemble_alike (Gadget.gateArgument_alike shape inputs)).bind
  intro cell otherCell cells
  exact Translation.bind_alike instruction.id cells

theorem handleLookupArgument_alike (isLookup : instruction.opcode = .lookupArgument) :
    SucceedAlike (instruction.AgreesBefore aligned) (Machine.Agrees aligned)
      (instruction.handleLookupArgument : Translation field Unit) instruction.handleLookupArgument
      (fun _ _ => True) := by
  apply (Translation.ofExcept_alike (BothYield.refl instruction.lookupShape)).bind
  rintro shape _ rfl
  have readCells : SucceedAlike (instruction.AgreesBefore aligned) (Machine.Agrees aligned)
      (Translation.read instruction.lookupCells : Translation field _)
      (Translation.read instruction.lookupCells) (LookupCells.Agrees aligned) := by
    apply Translation.read_alike fun _ _ before => before.machines
    intro _ _ before
    exact lookupCells_alike before isLookup
  apply readCells.bind
  intro input otherInput inputs
  apply (Translation.assemble_alike (Gadget.lookupArgument_alike shape inputs)).bind
  intro result otherResult results
  exact Translation.bind_alike instruction.id results

/-! ## Every instruction -/

/--
Every instruction keeps agreeing machines in agreement.

The inputs matter to `param` only, and the addresses that operands hold matter
in aligned runs only.
-/
theorem handle_alike
    {inputs others : List InputValue}
    (sameInputs : instruction.opcode = .param → instruction.InputsAgree inputs others) :
    SucceedAlike (instruction.AgreesBefore aligned) (Machine.Agrees aligned)
      (instruction.handle inputs : Translation field Unit) (instruction.handle others)
      (fun _ _ => True) := by
  have machines (left right : Machine field)
      (before : instruction.AgreesBefore aligned left right) : left.Agrees aligned right :=
    before.machines
  unfold handle
  cases opcode : instruction.opcode with
  | param => exact (instruction.handleParam_alike (sameInputs opcode)).strengthen machines
  | alloca => exact instruction.handleAlloca_alike.strengthen machines
  | load => exact instruction.handleLoad_alike opcode
  | select => exact instruction.handleSelect_alike.strengthen machines
  | curveAdd => exact instruction.handleCurveAdd_alike.strengthen machines
  | friCosets => exact instruction.handleFriCosets_alike opcode
  | gateArgument => exact instruction.handleGateArgument_alike opcode
  | lookupArgument => exact instruction.handleLookupArgument_alike opcode

end Instruction

end Plonkish
