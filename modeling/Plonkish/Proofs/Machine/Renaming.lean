import Mathlib.Data.List.Forall2
import Mathlib.Data.Set.Function
import Plonkish.Machine.Handler
import Plonkish.Proofs.Machine.Justification

namespace Plonkish

/-!
# Renamed operands

The names of values and the declared types of operands can be changed. What the
operands of an instruction are read as stays the same, as long as the frame binds
the new names to what it bound the old ones to; a reader that fails reports the
same about the new name. Only the points of `curve_add` are told apart by their
types.
-/

/-! ## Changed names -/

section

variable (newName : ValueId → ValueId)

/-- The same about the new names. -/
def OperandFault.rename : OperandFault → OperandFault
  | .valueForConstant id => .valueForConstant (newName id)
  | fault => fault

/-- The same defect of the new names. -/
def Defect.rename : Defect → Defect
  | .arity id opcode found => .arity (newName id) opcode found
  | .useBeforeDefinition id operand => .useBeforeDefinition (newName id) (newName operand)
  | .redefinition id => .redefinition (newName id)

/-- The same failure, about the new names. -/
def Failure.rename : Failure → Failure
  | .missingSymbol id => .missingSymbol (newName id)
  | .symbolKind id expected found => .symbolKind (newName id) expected found
  | .operand opcode index fault => .operand opcode index (fault.rename newName)
  | .defect fault => .defect (fault.rename newName)
  | failure => failure

/-- An operand with a new name, and with the same type where types are consulted. -/
inductive Operand.Recasts (typed : Prop) : Operand → Operand → Prop
  | value
      {id : ValueId}
      {type otherType : ValueType}
      (sameType : typed → otherType = type) :
      Recasts typed (.value id type) (.value (newName id) otherType)
  | constant (content : Constant) : Recasts typed (.constant content) (.constant content)

/-- An instruction with new names, and with other types unless it adds points. -/
structure Instruction.Recasts (instruction other : Instruction) : Prop where
  id : other.id = newName instruction.id
  opcode : other.opcode = instruction.opcode
  operands : List.Forall₂ (Operand.Recasts newName (instruction.opcode = .curveAdd))
    instruction.operands other.operands

/-- A frame binds the new names to what another frame binds the old names to. -/
def Frame.Renamed
    {field : PrimeField}
    (names : Set ValueId)
    (frame other : Frame field) :
    Prop :=
  ∀ id ∈ names, other.get? (newName id) = frame.get? id

/-- The same outcome, but that a failure is about the new names. -/
def RenamesTo (outcome other : Except Failure α) : Prop :=
  other = outcome.mapError (Failure.rename newName)

end

/-- The names that an instruction mentions: of the value that it defines, and of its operands. -/
def Instruction.names (instruction : Instruction) : List ValueId :=
  instruction.id :: instruction.uses

namespace RenamesTo

variable {newName : ValueId → ValueId}

/-- What succeeds succeeds with the same result. -/
theorem ok (result : α) : RenamesTo newName (.ok result) (.ok result) := rfl

/-- A failure is renamed to the same failure about the new names. -/
theorem error (failure : Failure) :
    RenamesTo newName (.error failure : Except Failure α) (.error (failure.rename newName)) := rfl

/-- One computation after another is renamed if both are, the second for the same result. -/
theorem bind
    {outcome other : Except Failure α}
    {next otherNext : α → Except Failure β}
    (first : RenamesTo newName outcome other)
    (later : ∀ result, outcome = .ok result → RenamesTo newName (next result) (otherNext result)) :
    RenamesTo newName (outcome >>= next) (other >>= otherNext) := by
  obtain rfl : other = _ := first
  cases outcome with
  | error failure => rfl
  | ok result => exact later result rfl

/-- Reading items in turn is renamed if reading each of them is. -/
theorem mapM
    {read otherRead : α → Except Failure β}
    (each : ∀ item, RenamesTo newName (read item) (otherRead item))
    (items : List α) :
    RenamesTo newName (items.mapM read) (items.mapM otherRead) := by
  induction items with
  | nil => exact ok []
  | cons item rest inductionHypothesis =>
      rw [List.mapM_cons, List.mapM_cons]
      apply bind (each item)
      intro result _
      apply bind inductionHypothesis
      intro results _
      exact ok (result :: results)

end RenamesTo

/-! ## Memory -/

namespace Memory

variable {field : PrimeField} {newName : ValueId → ValueId} (memory : Memory field)

/-- Whether an address can be accessed does not depend on names. -/
theorem checkAddress_renames (pointer : Nat) :
    RenamesTo newName (memory.checkAddress pointer) (memory.checkAddress pointer) := by
  unfold checkAddress
  split
  · exact .error _
  · split
    · exact .error _
    · exact .ok ()

/-- A load does not depend on names. -/
theorem load_renames (pointer : Nat) :
    RenamesTo newName (memory.load pointer) (memory.load pointer) := by
  apply RenamesTo.bind (memory.checkAddress_renames pointer)
  intro _ _
  split
  · exact .ok _
  · exact .error _

/-- A sum of addresses does not depend on names. -/
theorem offsetAddress_renames (base offset : Nat) :
    RenamesTo newName (offsetAddress base offset) (offsetAddress base offset) := by
  unfold offsetAddress
  split
  · exact .ok _
  · exact .error _

/-- Loading cells in turn does not depend on names. -/
theorem loadFrom_renames (base offset count : Nat) :
    RenamesTo newName (memory.loadFrom base offset count) (memory.loadFrom base offset count) := by
  induction count generalizing offset with
  | zero => exact .ok []
  | succ count inductionHypothesis =>
      apply RenamesTo.bind (offsetAddress_renames base offset)
      intro pointer _
      apply RenamesTo.bind (memory.load_renames pointer)
      intro cell _
      apply RenamesTo.bind (inductionHypothesis (offset + 1))
      intro rest _
      exact .ok (cell :: rest)

/-- The width of a cell does not depend on names. -/
theorem cellBytes_renames (pointer : Nat) :
    RenamesTo newName (memory.cellBytes pointer) (memory.cellBytes pointer) := by
  apply RenamesTo.bind (memory.checkAddress_renames pointer)
  intro _ _
  split
  · exact .ok _
  · exact .ok 0

/-- An allocation does not depend on names. -/
theorem allocate_renames (count bytes : Nat) :
    RenamesTo newName (memory.allocate count bytes) (memory.allocate count bytes) := by
  unfold allocate
  split
  · exact .ok _
  · exact .error _

/-- A store does not depend on names. -/
theorem store_renames (pointer : Nat) (cell : Cell field) :
    RenamesTo newName (memory.store pointer cell) (memory.store pointer cell) := by
  apply RenamesTo.bind (memory.checkAddress_renames pointer)
  intro _ _
  exact .ok _

/-- Storing cells in turn does not depend on names. -/
theorem storeAll_renames (pointer : Nat) (cells : List (Cell field)) :
    RenamesTo newName (memory.storeAll pointer cells) (memory.storeAll pointer cells) := by
  induction cells generalizing memory pointer with
  | nil => exact .ok memory
  | cons cell rest inductionHypothesis =>
      apply RenamesTo.bind (memory.store_renames pointer cell)
      intro written _
      exact inductionHypothesis written (pointer + 1)

/-- The widths of the cells for results do not depend on names. -/
theorem checkResultCells_renames (pointer count : Nat) :
    RenamesTo newName (Instruction.checkResultCells memory pointer count)
      (Instruction.checkResultCells memory pointer count) := by
  induction count generalizing pointer with
  | zero => exact .ok ()
  | succ count inductionHypothesis =>
      apply RenamesTo.bind (memory.cellBytes_renames pointer)
      intro bytes _
      split
      · exact inductionHypothesis (pointer + 1)
      · exact .error _

/-- The range for results does not depend on names. -/
theorem checkResultRange_renames (pointer rounds : Nat) :
    RenamesTo newName (Instruction.checkResultRange memory pointer rounds)
      (Instruction.checkResultRange memory pointer rounds) := by
  apply RenamesTo.bind (offsetAddress_renames pointer (3 * rounds))
  intro _ _
  exact memory.checkResultCells_renames pointer (3 * rounds)

end Memory

/-! ## Operands -/

namespace Frame

variable {field : PrimeField} {newName : ValueId → ValueId} {frame other : Frame field}

/-- The same slot is found, or both names are missing. -/
theorem lookup_renames {id : ValueId} (same : other.get? (newName id) = frame.get? id) :
    RenamesTo newName (frame.lookup id) (other.lookup (newName id)) := by
  unfold lookup
  rw [same]
  cases frame.get? id with
  | some slot => exact .ok slot
  | none => exact .error (.missingSymbol id)

/-- The same cell is found, or both names are bound to a vector or missing. -/
theorem scalar_renames {id : ValueId} (same : other.get? (newName id) = frame.get? id) :
    RenamesTo newName (frame.scalar id) (other.scalar (newName id)) := by
  apply RenamesTo.bind (lookup_renames same)
  intro slot _
  cases slot with
  | scalar cell => exact .ok cell
  | vector cells => exact .error (.symbolKind id .scalar .vector)

/-- The same cells are found, or both names are bound to a scalar or missing. -/
theorem vector_renames {id : ValueId} (same : other.get? (newName id) = frame.get? id) :
    RenamesTo newName (frame.vector id) (other.vector (newName id)) := by
  apply RenamesTo.bind (lookup_renames same)
  intro slot _
  cases slot with
  | scalar cell => exact .error (.symbolKind id .vector .scalar)
  | vector cells => exact .ok cells

/-- A new name and the name it stands for are bound to the same slot. -/
theorem Renamed.bind
    {names : Set ValueId}
    (renamed : frame.Renamed newName names other)
    (injective : Set.InjOn newName names)
    {id : ValueId}
    (mentioned : id ∈ names)
    (slot : Slot field) :
    (frame.bind id slot).Renamed newName names (other.bind (newName id) slot) := by
  intro name member
  simp only [get?_bind, renamed name member, injective.eq_iff mentioned member]

end Frame

namespace Instruction.Recasts

variable {field : PrimeField} {newName : ValueId → ValueId} {instruction other : Instruction}
variable (recasts : instruction.Recasts newName other)

include recasts

/-- There are as many operands as before. -/
theorem length_operands : other.operands.length = instruction.operands.length :=
  recasts.operands.length_eq.symm

/-- The fault of an operand is renamed: its position and the opcode stay. -/
theorem malformed (index : Nat) (fault : OperandFault) :
    RenamesTo newName (instruction.malformed index fault : Except Failure α)
      (other.malformed index (fault.rename newName)) := by
  unfold Instruction.malformed
  rw [recasts.opcode]
  exact .error (.operand instruction.opcode index fault)

/-- What is done with an operand is done with the one in its place, if there is one. -/
theorem operand_bind
    {next otherNext : Operand → Except Failure α}
    (index : Nat)
    (each : ∀ operand ∈ instruction.operands, ∀ otherOperand,
      operand.Recasts newName (instruction.opcode = .curveAdd) otherOperand →
        RenamesTo newName (next operand) (otherNext otherOperand)) :
    RenamesTo newName (instruction.operand index >>= next)
      (other.operand index >>= otherNext) := by
  have sameLength := recasts.length_operands
  unfold operand
  by_cases inside : index < instruction.operands.length
  · have otherInside : index < other.operands.length := sameLength ▸ inside
    rw [List.getElem?_eq_getElem inside, List.getElem?_eq_getElem otherInside]
    exact each _ (List.getElem_mem inside) _ (recasts.operands.get inside otherInside)
  · have otherOutside : ¬index < other.operands.length := sameLength ▸ inside
    rw [List.getElem?_eq_none (Nat.not_lt.mp inside),
      List.getElem?_eq_none (Nat.not_lt.mp otherOutside), sameLength]
    exact RenamesTo.bind (recasts.malformed index _) nofun

/-- What is done with the name of an operand is done with its new name. -/
theorem valueId_bind
    {next otherNext : ValueId → Except Failure α}
    (index : Nat)
    (named : ∀ id ∈ instruction.uses, RenamesTo newName (next id) (otherNext (newName id))) :
    RenamesTo newName (instruction.valueId index >>= next)
      (other.valueId index >>= otherNext) := by
  unfold valueId
  rw [bind_assoc, bind_assoc]
  apply recasts.operand_bind index
  intro operand given otherOperand same
  cases same with
  | @value id type otherType sameType =>
      exact named id (List.mem_filterMap.mpr ⟨_, given, rfl⟩)
  | constant content => exact RenamesTo.bind (recasts.malformed index .constantForValue) nofun

/-- The same constant is read, or a new name is reported in its place. -/
theorem constant (index : Nat) :
    RenamesTo newName (instruction.constant index) (other.constant index) := by
  apply recasts.operand_bind index
  intro operand _ otherOperand same
  cases same with
  | @value id type otherType sameType => exact recasts.malformed index (.valueForConstant id)
  | constant content => exact .ok content

/-- The same size is read. -/
theorem constantSize (index : Nat) :
    RenamesTo newName (instruction.constantSize index) (other.constantSize index) := by
  apply RenamesTo.bind (recasts.constant index)
  intro constant _
  cases constant with
  | integer value => exact .ok _
  | field kind digits =>
      dsimp only
      split
      · exact .ok _
      · exact recasts.malformed index (.notSize digits)
  | array values => exact recasts.malformed index .arrayForSize

/-- The same list of sizes is read. -/
theorem constantVector (index : Nat) :
    RenamesTo newName (instruction.constantVector index) (other.constantVector index) := by
  apply RenamesTo.bind (recasts.constant index)
  intro constant _
  cases constant with
  | integer value => exact recasts.malformed index .notArray
  | field kind digits => exact recasts.malformed index .notArray
  | array values => exact .ok values

/-- The same element is read. -/
theorem constantElement (index : Nat) :
    RenamesTo newName (instruction.constantElement field index)
      (other.constantElement field index) := by
  apply RenamesTo.bind (recasts.constant index)
  intro constant _
  cases constant with
  | integer value => exact .ok _
  | field kind digits =>
      dsimp only
      split
      · split
        · exact .ok _
        · exact recasts.malformed index (.notDecimal digits)
      · exact .error (.unimplemented (.foreignConstant kind))
  | array values => exact recasts.malformed index .arrayForElement

/-- The curve of a point is read from its type, which is the same where points are added. -/
theorem curveKind (adds : instruction.opcode = .curveAdd) (index : Nat) :
    RenamesTo newName (instruction.curveKind index) (other.curveKind index) := by
  apply recasts.operand_bind index
  intro operand _ otherOperand same
  cases same with
  | constant content => exact recasts.malformed index (.notPoint none)
  | @value id type otherType sameType =>
      rw [sameType adds]
      cases type with
      | curve kind => exact .ok kind
      | field _ | integer _ | pointer | vector _ => exact recasts.malformed index (.notPoint _)

/-- The same address is read from a cell, which has no name. -/
theorem addressOf (index : Nat) (cell : Cell field) :
    RenamesTo newName (instruction.addressOf index cell) (other.addressOf index cell) := by
  unfold Instruction.addressOf
  split
  · exact .ok _
  · exact recasts.malformed index _

end Instruction.Recasts

end Plonkish
