import Plonkish.Proofs.Machine.Loading
import Plonkish.Proofs.Machine.Outcome

namespace Plonkish

/-!
# Two forms of input vectors

The cells of an input vector are passed as a bound vector, or in memory behind a
bound address. A vector has to have the expected length. Behind an address there
have to be as many cells as expected, and none is looked at if none is expected.
Apart from that the two forms are the same to an instruction: if both deliver the
cells of the length that the instruction gives, it makes no difference which is used.
-/

/-- A name is found exactly if it is bound. -/
theorem Frame.lookup_eq_ok_iff
    {field : PrimeField}
    {frame : Frame field}
    {id : ValueId}
    {slot : Slot field} :
    frame.lookup id = .ok slot ↔ frame.get? id = some slot := by
  unfold lookup
  cases frame.get? id with
  | some found => simp
  | none => exact iff_of_false nofun nofun

namespace Instruction

variable {field : PrimeField}

/-- An operand refers to a name that is bound to a slot. -/
def BoundTo
    (instruction : Instruction)
    (machine : Machine field)
    (index : Nat)
    (slot : Slot field) :
    Prop :=
  ∃ id type, instruction.operands[index]? = some (.value id type)
    ∧ machine.frame.get? id = some slot

/-- An operand delivers cells, in one of the two forms. -/
inductive Delivers
    (instruction : Instruction)
    (machine : Machine field)
    (index : Nat)
    (cells : List (Cell field)) :
    Prop
  | vector (bound : instruction.BoundTo machine index (.vector cells))
  | memory
      {address : Cell field}
      (bound : instruction.BoundTo machine index (.scalar address))
      (inWord : address.value.value < 1 <<< 64)
      (holds : machine.memory.Holds address.value.value cells)

/-- What delivers cells is the name of a value. -/
theorem Delivers.exists_operand
    {instruction : Instruction}
    {machine : Machine field}
    {index : Nat}
    {cells : List (Cell field)}
    (delivers : instruction.Delivers machine index cells) :
    ∃ id type, instruction.operands[index]? = some (.value id type) := by
  cases delivers with
  | vector bound | memory bound =>
      obtain ⟨id, type, given, -⟩ := bound
      exact ⟨id, type, given⟩

section Readers

variable {instruction : Instruction} {machine : Machine field} {index size : Nat}

/-- A value below the bound of a word is an address. -/
theorem addressOf_eq_ok {cell : Cell field} (inWord : cell.value.value < 1 <<< 64) :
    instruction.addressOf index cell = .ok cell.value.value := by
  rw [addressOf, Element.word?, if_pos inWord]
  exact congrArg Except.ok (UInt64.toNat_ofNat_of_lt' inWord)

/-- A value beyond a word is reported with its digits. -/
theorem addressOf_eq_error {cell : Cell field} (tooLarge : ¬cell.value.value < 1 <<< 64) :
    instruction.addressOf index cell =
      .error (.operand instruction.opcode index (.notPointer cell.value.toHex)) := by
  rw [addressOf, Element.word?, if_neg tooLarge]
  rfl

/-- An operand is read exactly if there is one at its position. -/
theorem operand_eq_ok_iff {given : Operand} :
    instruction.operand index = .ok given ↔ instruction.operands[index]? = some given := by
  unfold operand
  cases instruction.operands[index]? with
  | some found => simp
  | none => exact iff_of_false nofun nofun

/-- A name is read exactly from an operand that is a value, whatever its type. -/
theorem valueId_eq_ok_iff {id : ValueId} :
    instruction.valueId index = .ok id ↔
      ∃ type, instruction.operands[index]? = some (.value id type) := by
  simp only [← operand_eq_ok_iff]
  unfold valueId
  cases instruction.operand index with
  | error failure => exact iff_of_false nofun nofun
  | ok given =>
      cases given with
      | constant content => exact iff_of_false nofun nofun
      | value found type =>
          change Except.ok found = .ok id ↔ _
          simp

/-- An operand is bound to a slot if its name is found to be. -/
theorem boundTo_iff {slot : Slot field} :
    instruction.BoundTo machine index slot ↔
      ∃ id, instruction.valueId index = .ok id ∧ machine.frame.lookup id = .ok slot := by
  simp only [BoundTo, valueId_eq_ok_iff, Frame.lookup_eq_ok_iff, exists_and_right]

/-- What reads a value continues with what the name of the value is bound to. -/
theorem bind_of_boundTo
    {slot : Slot field}
    (bound : instruction.BoundTo machine index slot)
    {next : ValueId → Slot field → Except Failure α}
    {outcome : Except Failure α}
    (same : ∀ id, next id slot = outcome) :
    (instruction.valueId index >>= fun id => machine.frame.lookup id >>= next id) = outcome := by
  obtain ⟨id, named, looked⟩ := boundTo_iff.mp bound
  rw [bind_of_ok named, bind_of_ok looked, same]

/-- What reads a value and has a result has found something that the name is bound to. -/
theorem exists_boundTo_of_bind
    {next : ValueId → Slot field → Except Failure α}
    {result : α}
    (gives : (instruction.valueId index >>= fun id => machine.frame.lookup id >>= next id) =
      .ok result) :
    ∃ slot, instruction.BoundTo machine index slot ∧ ∃ id, next id slot = .ok result := by
  obtain ⟨id, named, gives⟩ := ok_of_bind gives
  obtain ⟨slot, looked, gives⟩ := ok_of_bind gives
  exact ⟨slot, boundTo_iff.mpr ⟨id, named, looked⟩, id, gives⟩

/-- A bound vector is taken as it is if it has the expected length. -/
theorem inputVector_of_vector
    {cells : List (Cell field)}
    (bound : instruction.BoundTo machine index (.vector cells)) :
    instruction.inputVector index size machine =
      if cells.length = size then .ok cells
      else .error (.size (.vectorLength instruction.opcode index cells.length size)) :=
  bind_of_boundTo bound fun _ => rfl

/-- Behind a bound address the cells are loaded one by one. -/
theorem inputVector_of_scalar
    {cell : Cell field}
    (bound : instruction.BoundTo machine index (.scalar cell)) :
    instruction.inputVector index size machine =
      instruction.addressOf index cell >>= fun base => machine.memory.loadFrom base 0 size :=
  bind_of_boundTo bound fun _ => rfl

/-- An address that fits in a word is where the cells are read. -/
theorem inputVector_of_address
    {cell : Cell field}
    (bound : instruction.BoundTo machine index (.scalar cell))
    (inWord : cell.value.value < 1 <<< 64) :
    instruction.inputVector index size machine =
      machine.memory.loadFrom cell.value.value 0 size := by
  rw [inputVector_of_scalar bound, addressOf_eq_ok inWord]
  rfl

/-- An input vector is read as the cells that the operand delivers, if they are as many as asked. -/
theorem inputVector_eq_ok_iff
    (bounded : machine.memory.size < 1 <<< 64)
    {cells : List (Cell field)} :
    instruction.inputVector index size machine = .ok cells ↔
      cells.length = size ∧ instruction.Delivers machine index cells := by
  constructor
  · intro read
    obtain ⟨slot, bound, -⟩ := exists_boundTo_of_bind read
    cases slot with
    | vector found =>
        rw [inputVector_of_vector bound] at read
        split at read
        next counted =>
          cases read
          exact ⟨counted, .vector bound⟩
        next => cases read
    | scalar address =>
        by_cases inWord : address.value.value < 1 <<< 64
        · rw [inputVector_of_address bound inWord] at read
          obtain ⟨counted, holds⟩ := (Memory.loadFrom_eq_ok_iff bounded inWord).mp read
          exact ⟨counted, .memory bound inWord holds⟩
        · rw [inputVector_of_scalar bound, addressOf_eq_error inWord] at read
          cases read
  · rintro ⟨counted, delivers⟩
    cases delivers with
    | vector bound =>
        rw [inputVector_of_vector bound]
        exact if_pos counted
    | memory bound inWord holds =>
        rw [inputVector_of_address bound inWord]
        exact (Memory.loadFrom_eq_ok_iff bounded inWord).mpr ⟨counted, holds⟩

end Readers

end Instruction

/-- Which operand gives the length of an input vector. -/
def Opcode.lengthOf? : Opcode → Nat → Option Nat
  | .gateArgument, 0 => some 2
  | .gateArgument, 3 => some 4
  | .lookupArgument, index =>
      if 8 ≤ index ∧ index ≤ 24 ∧ index % 2 = 0 then some (index + 1) else none
  | _, _ => none

namespace Instruction

variable {field : PrimeField}

/--
An instruction that differs from another only in the forms of its input vectors.

Where the operands differ, both deliver the same cells, of the length that is given.
-/
structure Rephrases (machine : Machine field) (instruction other : Instruction) : Prop where
  id : other.id = instruction.id
  opcode : other.opcode = instruction.opcode
  operands : ∀ index, other.operands[index]? = instruction.operands[index]?
    ∨ ∃ lengthIndex cells, instruction.opcode.lengthOf? index = some lengthIndex
      ∧ instruction.constantSize lengthIndex = .ok cells.length
      ∧ instruction.Delivers machine index cells ∧ other.Delivers machine index cells

/-- Equal outcomes, followed by what is equal on a result, are equal. -/
theorem bind_eq_of_ok
    {outcome other : Except ε α}
    {next otherNext : α → Except ε β}
    (same : other = outcome)
    (later : ∀ result, outcome = .ok result → otherNext result = next result) :
    other >>= otherNext = outcome >>= next := by
  subst same
  cases other with
  | error failure => rfl
  | ok result => exact later result rfl

namespace Rephrases

variable {machine : Machine field} {instruction other : Instruction}

variable (rephrases : instruction.Rephrases machine other)

include rephrases

/-- There are as many operands in either form. -/
theorem length_operands : other.operands.length = instruction.operands.length := by
  have missing (index : Nat) :
      other.operands[index]? = none ↔ instruction.operands[index]? = none := by
    rcases rephrases.operands index with same | ⟨_, cells, -, -, delivers, otherDelivers⟩
    · rw [same]
    · obtain ⟨id, type, given⟩ := delivers.exists_operand
      obtain ⟨otherId, otherType, otherGiven⟩ := otherDelivers.exists_operand
      simp [given, otherGiven]
  simp only [List.getElem?_eq_none_iff] at missing
  exact Nat.le_antisymm ((missing _).mpr (Nat.le_refl _)) ((missing _).mp (Nat.le_refl _))

/-- The fault of an operand does not depend on the form. -/
theorem malformed (index : Nat) (fault : OperandFault) :
    (other.malformed index fault : Except Failure α) = instruction.malformed index fault := by
  rw [Instruction.malformed, rephrases.opcode, Instruction.malformed]

/-- An operand that is the same is read as the same. -/
theorem operand {index : Nat} (same : other.operands[index]? = instruction.operands[index]?) :
    other.operand index = instruction.operand index := by
  rw [Instruction.operand, same, rephrases.length_operands, rephrases.malformed,
    Instruction.operand]

/-- An input vector of the length that is given is the same in both forms. -/
theorem inputVector
    (bounded : machine.memory.size < 1 <<< 64)
    {index lengthIndex count : Nat}
    (sized : instruction.opcode.lengthOf? index = some lengthIndex)
    (counted : instruction.constantSize lengthIndex = .ok count) :
    other.inputVector index count machine = instruction.inputVector index count machine := by
  rcases rephrases.operands index with same | ⟨_, cells, isLength, size, delivers, otherDelivers⟩
  · unfold Instruction.inputVector Instruction.valueId Instruction.addressOf
    simp only [rephrases.operand same, rephrases.malformed, rephrases.opcode]
  · rw [sized] at isLength
    cases isLength
    rw [counted] at size
    cases size
    rw [(inputVector_eq_ok_iff bounded).mpr ⟨rfl, delivers⟩,
      (inputVector_eq_ok_iff bounded).mpr ⟨rfl, otherDelivers⟩]

/-- Every operand but an input vector is the same. -/
theorem operands_eq
    {index : Nat}
    (fixed : instruction.opcode.lengthOf? index = none) :
    other.operands[index]? = instruction.operands[index]? := by
  rcases rephrases.operands index with same | ⟨_, cells, isLength, -⟩
  · exact same
  · rw [fixed] at isLength
    cases isLength

section Fixed

variable {index : Nat} (fixed : instruction.opcode.lengthOf? index = none)

include fixed

/-- A size is a constant, which has one form only. -/
theorem constantSize : other.constantSize index = instruction.constantSize index := by
  unfold Instruction.constantSize Instruction.constant
  simp only [rephrases.operand (rephrases.operands_eq fixed), rephrases.malformed]

/-- A list of sizes is a constant, which has one form only. -/
theorem constantVector : other.constantVector index = instruction.constantVector index := by
  unfold Instruction.constantVector Instruction.constant
  simp only [rephrases.operand (rephrases.operands_eq fixed), rephrases.malformed]

/-- A scalar has one form only. -/
theorem scalar : other.scalar index machine = instruction.scalar index machine := by
  unfold Instruction.scalar Instruction.valueId
  simp only [rephrases.operand (rephrases.operands_eq fixed), rephrases.malformed]

/-- A pair has one form only. -/
theorem pair : other.pair index machine = instruction.pair index machine := by
  unfold Instruction.pair Instruction.vector Instruction.valueId
  simp only [rephrases.operand (rephrases.operands_eq fixed), rephrases.malformed,
    rephrases.opcode]

end Fixed

/-- The operands of a gate argument are read alike in both forms. -/
theorem gateOperands
    (bounded : machine.memory.size < 1 <<< 64)
    (opcode : instruction.opcode = .gateArgument) :
    other.gateOperands machine = instruction.gateOperands machine := by
  apply bind_eq_of_ok (rephrases.constantVector (by rw [opcode]; rfl))
  intro sizes _
  apply bind_eq_of_ok (rephrases.constantSize (by rw [opcode]; rfl))
  intro gates countGates
  apply bind_eq_of_ok (rephrases.constantSize (by rw [opcode]; rfl))
  intro constraints countConstraints
  dsimp only
  split
  · rfl
  cases GateShape.make sizes with
  | error failure => rfl
  | ok shape =>
      apply bind_eq_of_ok (rephrases.inputVector bounded (by rw [opcode]; rfl) countGates)
      intro selectors _
      apply bind_eq_of_ok (rephrases.inputVector bounded (by rw [opcode]; rfl) countConstraints)
      intro constraintCells _
      apply bind_eq_of_ok (rephrases.scalar (by rw [opcode]; rfl))
      intro challenge _
      rfl

/-- The shape of a lookup argument is read from constants, which have one form only. -/
theorem lookupShape (opcode : instruction.opcode = .lookupArgument) :
    other.lookupShape = instruction.lookupShape := by
  apply bind_eq_of_ok (rephrases.constantSize (by rw [opcode]; rfl))
  intro tables _
  apply bind_eq_of_ok (rephrases.constantSize (by rw [opcode]; rfl))
  intro repeated _
  dsimp only
  split
  · rfl
  apply bind_eq_of_ok (rephrases.constantSize (by rw [opcode]; rfl))
  intro gates _
  iterate 4
    apply bind_eq_of_ok (rephrases.constantVector (by rw [opcode]; rfl))
    intro _ _
  cases LookupShape.make gates tables _ with
  | error failure => rfl
  | ok shape =>
      apply bind_eq_of_ok (rephrases.constantSize (by rw [opcode]; rfl))
      intro constraints _
      rfl

/-- A vector with its declared length is read alike in both forms. -/
theorem sizedVector
    (bounded : machine.memory.size < 1 <<< 64)
    {index : Nat}
    (sized : instruction.opcode.lengthOf? index = some (index + 1))
    (fixed : instruction.opcode.lengthOf? (index + 1) = none) :
    other.sizedVector index machine = instruction.sizedVector index machine := by
  apply bind_eq_of_ok (rephrases.constantSize fixed)
  intro count counted
  exact rephrases.inputVector bounded sized counted

/-- The cells of a lookup argument are read alike in both forms. -/
theorem lookupCells
    (bounded : machine.memory.size < 1 <<< 64)
    (opcode : instruction.opcode = .lookupArgument) :
    other.lookupCells machine = instruction.lookupCells machine := by
  iterate 9
    apply bind_eq_of_ok (rephrases.sizedVector bounded (by rw [opcode]; rfl) (by rw [opcode]; rfl))
    intro _ _
  iterate 4
    apply bind_eq_of_ok (rephrases.scalar (by rw [opcode]; rfl))
    intro _ _
  iterate 3
    apply bind_eq_of_ok (rephrases.pair (by rw [opcode]; rfl))
    intro _ _
  rfl

/-- Without input vectors, there is nothing that could be different. -/
theorem eq_of_fixed (fixed : ∀ index, instruction.opcode.lengthOf? index = none) :
    other = instruction := by
  have operands : other.operands = instruction.operands :=
    List.ext_getElem? fun index => rephrases.operands_eq (fixed index)
  obtain ⟨id, opcode, given⟩ := instruction
  obtain ⟨otherId, otherOpcode, otherGiven⟩ := other
  obtain rfl : otherId = id := rephrases.id
  obtain rfl : otherOpcode = opcode := rephrases.opcode
  exact congrArg _ operands

/-- The forms of input vectors make no difference. -/
theorem run_handle
    (bounded : machine.memory.size < 1 <<< 64)
    (inputs : List InputValue) :
    (other.handle inputs).run machine = (instruction.handle inputs).run machine := by
  cases opcode : instruction.opcode with
  | gateArgument =>
      unfold handle
      rw [rephrases.opcode, opcode]
      dsimp only
      unfold handleGateArgument
      rw [Translation.run_read_bind, Translation.run_read_bind,
        rephrases.gateOperands bounded opcode, rephrases.id]
  | lookupArgument =>
      unfold handle
      rw [rephrases.opcode, opcode]
      dsimp only
      unfold handleLookupArgument
      rw [Translation.run_ofExcept_bind, Translation.run_ofExcept_bind,
        rephrases.lookupShape opcode]
      cases instruction.lookupShape with
      | error failure => rfl
      | ok shape =>
          dsimp only
          rw [Translation.run_read_bind, Translation.run_read_bind,
            rephrases.lookupCells bounded opcode, rephrases.id]
  | param | alloca | load | select | curveAdd | friCosets =>
      rw [rephrases.eq_of_fixed fun index => by rw [opcode]; rfl]

end Rephrases

/-- A fault that is reported is that of an address of 64 bits. -/
theorem lt_word_of_fault
    {machine : Machine field}
    (bounded : machine.memory.size < 1 <<< 64)
    {base count address : Nat}
    {fault : MemoryFault}
    (inWord : base < 1 <<< 64)
    (faults : machine.memory.FaultsFirst base count (.memory address fault)) :
    base ≤ address ∧ address < base + count ∧ address < 1 <<< 64 := by
  obtain ⟨position, inside, before, found, -, same⟩ := faults
  obtain ⟨rfl, rfl⟩ := Failure.memory.inj same
  refine ⟨Nat.le_add_right _ _, Nat.add_lt_add_left inside _, ?_⟩
  cases position with
  | zero => exact inWord
  | succ position =>
      have readable := Memory.fault?_eq_none_iff.mp (before position (Nat.lt_succ_self _))
      exact Nat.lt_of_le_of_lt readable.1.2 bounded

/--
What the two forms of an input vector are read as, of any size, and that their
difference does not matter to an instruction if both deliver the same cells.
All that is asked of the memory is that 64 bits can number its cells.

Behind an address, no cell is missing, or the report is about the first that is; the
address that is reported is one of those that were asked for, and never overflows.
-/
theorem inputVector_eitherForm
    {machine : Machine field}
    (bounded : machine.memory.size < 1 <<< 64) :
    (∀ (instruction : Instruction) (index size : Nat),
      (∀ cells, instruction.BoundTo machine index (.vector cells) →
        instruction.inputVector index size machine =
          if cells.length = size then .ok cells
          else .error (.size (.vectorLength instruction.opcode index cells.length size)))
      ∧ ∀ cell, instruction.BoundTo machine index (.scalar cell) →
        (cell.value.value < 1 <<< 64 →
          (∀ cells, instruction.inputVector index size machine = .ok cells ↔
            cells.length = size ∧ machine.memory.Holds cell.value.value cells)
          ∧ (∀ failure, instruction.inputVector index size machine = .error failure ↔
            machine.memory.FaultsFirst cell.value.value size failure)
          ∧ ∀ address fault,
            instruction.inputVector index size machine = .error (.memory address fault) →
              cell.value.value ≤ address ∧ address < cell.value.value + size
                ∧ address < 1 <<< 64)
        ∧ (¬cell.value.value < 1 <<< 64 →
          instruction.inputVector index size machine =
            .error (.operand instruction.opcode index (.notPointer cell.value.toHex))))
      ∧ ∀ (inputs : List InputValue) (instruction other : Instruction),
        instruction.Rephrases machine other →
          (other.handle inputs).run machine = (instruction.handle inputs).run machine := by
  refine ⟨fun instruction index size => ⟨fun cells bound => inputVector_of_vector bound,
    fun cell bound => ⟨fun inWord => ?_, fun tooLarge => ?_⟩⟩,
    fun inputs instruction other rephrases => rephrases.run_handle bounded inputs⟩
  · rw [inputVector_of_address bound inWord]
    refine ⟨fun cells => Memory.loadFrom_eq_ok_iff bounded inWord,
      fun failure => Memory.loadFrom_eq_error_iff bounded inWord, fun address fault failed => ?_⟩
    exact lt_word_of_fault bounded inWord
      ((Memory.loadFrom_eq_error_iff bounded inWord).mp failed)
  · rw [inputVector_of_scalar bound, addressOf_eq_error tooLarge]
    rfl

end Instruction

namespace Machine

/-- Two cells that are bound as a vector, and that are in memory as well. -/
def twoForms : Machine .bn254Scalar where
  policy := .standard
  frame := (((Frame.empty.bind ⟨0⟩ (.vector [⟨0, 1⟩, ⟨1, -1⟩])).bind ⟨1⟩ (.scalar ⟨2, 1⟩)).bind
    ⟨2⟩ (.scalar ⟨3, 0⟩)).bind ⟨3⟩ (.scalar ⟨4, -1⟩)
  memory := {
    size := 3
    segments := [⟨1, 2, 32⟩]
    stored := (Std.TreeMap.empty.insert 1 ⟨0, 1⟩).insert 2 ⟨1, -1⟩
  }
  transcript := .ofValues [1, -1, 1, 0, -1]
  instances := #[#[]]
  breakPoints := none

/-- A gate argument of two gates, whose selectors and constraints are the same cells. -/
def twoGates (cells : ValueId) : Instruction :=
  ⟨⟨4⟩, .gateArgument, [.value cells .pointer, .constant (.array [1, 1]), .constant (.integer 2),
    .value cells .pointer, .constant (.integer 2), .value ⟨1⟩ .pointer]⟩

/-- Both input vectors are bound to what the name is bound to. -/
theorem twoGates_boundTo
    {cells : ValueId}
    {slot : Slot .bn254Scalar}
    (found : twoForms.frame.get? cells = some slot)
    {index : Nat}
    (isVector : index = 0 ∨ index = 3) :
    (twoGates cells).BoundTo twoForms index slot := by
  rcases isVector with rfl | rfl
  · exact ⟨cells, .pointer, rfl, found⟩
  · exact ⟨cells, .pointer, rfl, found⟩

/-- The two vectors are passed in memory by one instruction, and as they are by the other. -/
theorem twoGates_rephrases : (twoGates ⟨0⟩).Rephrases twoForms (twoGates ⟨1⟩) where
  id := rfl
  opcode := rfl
  operands index := by
    have holds : twoForms.memory.Holds 1 [⟨0, 1⟩, ⟨1, -1⟩] :=
      ⟨by decide, by decide +kernel⟩
    have isBound : twoForms.frame.get? ⟨1⟩ = some (.scalar ⟨2, 1⟩) := by decide +kernel
    have delivers (isVector : index = 0 ∨ index = 3) :
        (twoGates ⟨0⟩).Delivers twoForms index [⟨0, 1⟩, ⟨1, -1⟩]
          ∧ (twoGates ⟨1⟩).Delivers twoForms index [⟨0, 1⟩, ⟨1, -1⟩] :=
      ⟨.vector (twoGates_boundTo (by decide +kernel) isVector),
        .memory (twoGates_boundTo isBound isVector) (by decide) holds⟩
    match index with
    | 0 => exact .inr ⟨2, _, rfl, rfl, delivers (.inl rfl)⟩
    | 3 => exact .inr ⟨4, _, rfl, rfl, delivers (.inr rfl)⟩
    | 1 | 2 | 4 | 5 | _ + 6 => exact .inl rfl

/-- Both forms of two cells give the same gate argument, and other cells are refused. -/
theorem twoForms_eitherForm :
    (((twoGates ⟨1⟩).handle []).run twoForms = ((twoGates ⟨0⟩).handle []).run twoForms
        ∧ (((twoGates ⟨0⟩).handle []).run twoForms).1 = .ok ())
      ∧ (twoGates ⟨0⟩).inputVector 0 3 twoForms = .error (.size (.vectorLength .gateArgument 0 2 3))
      ∧ (twoGates ⟨1⟩).inputVector 0 3 twoForms = .error (.memory 3 .outOfBounds)
      ∧ (twoGates ⟨2⟩).inputVector 0 0 twoForms = .ok []
      ∧ (twoGates ⟨2⟩).inputVector 0 1 twoForms = .error (.memory 0 .null)
      ∧ (twoGates ⟨3⟩).inputVector 0 0 twoForms =
        .error (.operand .gateArgument 0 (.notPointer (-1 : Element .bn254Scalar).toHex)) := by
  obtain ⟨reads, agrees⟩ := @Instruction.inputVector_eitherForm _ twoForms (by decide)
  have vector : (twoGates ⟨0⟩).BoundTo twoForms 0 (.vector [⟨0, 1⟩, ⟨1, -1⟩]) :=
    twoGates_boundTo (by decide +kernel) (.inl rfl)
  have one : (twoGates ⟨1⟩).BoundTo twoForms 0 (.scalar ⟨2, 1⟩) :=
    twoGates_boundTo (by decide +kernel) (.inl rfl)
  have null : (twoGates ⟨2⟩).BoundTo twoForms 0 (.scalar ⟨3, 0⟩) :=
    twoGates_boundTo (by decide +kernel) (.inl rfl)
  have large : (twoGates ⟨3⟩).BoundTo twoForms 0 (.scalar ⟨4, -1⟩) :=
    twoGates_boundTo (by decide +kernel) (.inl rfl)
  refine ⟨⟨agrees [] _ _ twoGates_rephrases, by decide +kernel⟩, ?_, ?_, ?_, ?_, ?_⟩
  · exact (reads _ 0 3).1 _ vector
  · exact ((((reads _ 0 3).2 _ one).1 (by decide)).2.1 _).mpr
      ⟨2, by decide, by decide +kernel, .outOfBounds, by decide +kernel, rfl⟩
  · exact ((((reads _ 0 0).2 _ null).1 (by decide)).1 _).mpr ⟨rfl, Memory.holds_nil⟩
  · exact ((((reads _ 0 1).2 _ null).1 (by decide)).2.1 _).mpr
      ⟨0, by decide, nofun, .null, rfl, rfl⟩
  · exact ((reads _ 0 0).2 _ large).2 (by decide +kernel)

end Machine

end Plonkish
