import Plonkish.Proofs.Machine.Outcome
import Plonkish.Proofs.Machine.Renaming

namespace Plonkish

/-!
# Renamed instructions

Two machines that differ only in the names that their frames bind stay so when
each of them translates its instruction, and both translations come to the same.
The names are only ever looked up and bound, so it is enough that different names
stay different.
-/

/-- The machine with another frame. -/
def Machine.withFrame {field : PrimeField} (machine : Machine field) (frame : Frame field) :
    Machine field :=
  { machine with frame }

/-! ## Reading operands -/

namespace Instruction.Recasts

variable {field : PrimeField} {newName : ValueId → ValueId} {instruction other : Instruction}
variable (recasts : instruction.Recasts newName other)

section Readings

variable {names : Set ValueId} (mentioned : ∀ id ∈ instruction.uses, id ∈ names)
variable {machine : Machine field} {frame : Frame field}
variable (renamed : machine.frame.Renamed newName names frame)

include recasts mentioned renamed

/-- The same cell is read, since the new name is bound to the same slot. -/
theorem scalar (index : Nat) :
    RenamesTo newName (instruction.scalar index machine)
      (other.scalar index (machine.withFrame frame)) := by
  apply recasts.valueId_bind index
  intro id used
  exact Frame.scalar_renames (renamed id (mentioned id used))

/-- The same cells are read, since the new name is bound to the same slot. -/
theorem vector (index : Nat) :
    RenamesTo newName (instruction.vector index machine)
      (other.vector index (machine.withFrame frame)) := by
  apply recasts.valueId_bind index
  intro id used
  exact Frame.vector_renames (renamed id (mentioned id used))

/-- The same two cells are read, or a vector of the same other length is reported. -/
theorem pair (index : Nat) :
    RenamesTo newName (instruction.pair index machine)
      (other.pair index (machine.withFrame frame)) := by
  apply RenamesTo.bind (recasts.vector mentioned renamed index)
  intro cells _
  rw [recasts.opcode]
  split
  · exact .ok _
  · exact .error _

/-- The same address is read. -/
theorem pointer (index : Nat) :
    RenamesTo newName (instruction.pointer index machine)
      (other.pointer index (machine.withFrame frame)) := by
  apply RenamesTo.bind (recasts.scalar mentioned renamed index)
  intro cell _
  exact recasts.addressOf index cell

/-- The same cells are read, whether they are bound or in memory. -/
theorem inputVector (index size : Nat) :
    RenamesTo newName (instruction.inputVector index size machine)
      (other.inputVector index size (machine.withFrame frame)) := by
  apply recasts.valueId_bind index
  intro id used
  apply RenamesTo.bind (Frame.lookup_renames (renamed id (mentioned id used)))
  intro slot _
  cases slot with
  | vector cells =>
      dsimp only
      rw [recasts.opcode]
      split
      · exact .ok cells
      · exact .error _
  | scalar cell =>
      apply RenamesTo.bind (recasts.addressOf index cell)
      intro base _
      exact machine.memory.loadFrom_renames base 0 size

/-- The same cells are read for the same declared length. -/
theorem sizedVector (index : Nat) :
    RenamesTo newName (instruction.sizedVector index machine)
      (other.sizedVector index (machine.withFrame frame)) := by
  apply RenamesTo.bind (recasts.constantSize (index + 1))
  intro size _
  exact recasts.inputVector mentioned renamed index size

/-- The same cell of memory is read. -/
theorem loadOperands :
    RenamesTo newName (instruction.loadOperands machine)
      (other.loadOperands (machine.withFrame frame)) := by
  apply RenamesTo.bind (recasts.pointer mentioned renamed 0)
  intro base _
  apply RenamesTo.bind (recasts.constantSize 1)
  intro offset _
  apply RenamesTo.bind (Memory.offsetAddress_renames base offset)
  intro pointer _
  exact machine.memory.load_renames pointer

/-- The same points are read: types are kept where points are added. -/
theorem pointOperands (adds : instruction.opcode = .curveAdd) :
    RenamesTo newName (instruction.pointOperands machine)
      (other.pointOperands (machine.withFrame frame)) := by
  apply RenamesTo.bind (recasts.curveKind adds 0)
  intro kind _
  apply RenamesTo.bind (recasts.curveKind adds 1)
  intro otherKind _
  dsimp only
  by_cases different : otherKind ≠ kind
  · rw [if_pos different, if_pos different]
    exact recasts.malformed 1 (.otherCurve otherKind kind)
  rw [if_neg different, if_neg different]
  by_cases unsupported : kind = .curve25519 ∨ (!field.isNative kind.baseField.modulusText) = true
  · rw [if_pos unsupported, if_pos unsupported]
    exact .error _
  rw [if_neg unsupported, if_neg unsupported]
  apply RenamesTo.bind (recasts.pair mentioned renamed 0)
  intro left _
  apply RenamesTo.bind (recasts.pair mentioned renamed 1)
  intro right _
  exact .ok _

/-- The same operands are read of a coset computation. -/
theorem cosetOperands :
    RenamesTo newName (instruction.cosetOperands machine)
      (other.cosetOperands (machine.withFrame frame)) := by
  apply RenamesTo.bind (recasts.pointer mentioned renamed 0)
  intro result _
  apply RenamesTo.bind (recasts.constantSize 1)
  intro resultLength _
  apply RenamesTo.bind (recasts.constantElement 2)
  intro root _
  apply RenamesTo.bind (recasts.constantSize 3)
  intro totalBits _
  apply RenamesTo.bind (recasts.scalar mentioned renamed 4)
  intro index _
  exact .ok _

/-- The same shape and cells are read of a gate argument. -/
theorem gateOperands :
    RenamesTo newName (instruction.gateOperands machine)
      (other.gateOperands (machine.withFrame frame)) := by
  apply RenamesTo.bind (recasts.constantVector 1)
  intro sizes _
  apply RenamesTo.bind (recasts.constantSize 2)
  intro gates _
  apply RenamesTo.bind (recasts.constantSize 4)
  intro constraints _
  dsimp only
  by_cases different : sizes.length ≠ gates ∨ Sizes.total? sizes ≠ some constraints
  · rw [if_pos different, if_pos different]
    exact .error _
  rw [if_neg different, if_neg different]
  cases GateShape.make sizes with
  | error failure => exact .error _
  | ok shape =>
      apply RenamesTo.bind (recasts.inputVector mentioned renamed 0 gates)
      intro selectors _
      apply RenamesTo.bind (recasts.inputVector mentioned renamed 3 constraints)
      intro constraintCells _
      apply RenamesTo.bind (recasts.scalar mentioned renamed 5)
      intro challenge _
      exact .ok _

/-- The same cells are read of a lookup argument. -/
theorem lookupCells :
    RenamesTo newName (instruction.lookupCells machine)
      (other.lookupCells (machine.withFrame frame)) := by
  iterate 9
    apply RenamesTo.bind (recasts.sizedVector mentioned renamed _)
    intro _ _
  iterate 4
    apply RenamesTo.bind (recasts.scalar mentioned renamed _)
    intro _ _
  iterate 3
    apply RenamesTo.bind (recasts.pair mentioned renamed _)
    intro _ _
  exact .ok _

end Readings

include recasts

/-- The same shape is read of a lookup argument, which names no value. -/
theorem lookupShape : RenamesTo newName instruction.lookupShape other.lookupShape := by
  apply RenamesTo.bind (recasts.constantSize 1)
  intro tables _
  apply RenamesTo.bind (recasts.constantSize 3)
  intro repeated _
  dsimp only
  by_cases different : repeated ≠ tables
  · rw [if_pos different, if_pos different]
    exact .error _
  rw [if_neg different, if_neg different]
  apply RenamesTo.bind (recasts.constantSize 5)
  intro gates _
  apply RenamesTo.bind (recasts.constantVector 0)
  intro tableOptions _
  apply RenamesTo.bind (recasts.constantVector 2)
  intro tableColumns _
  apply RenamesTo.bind (recasts.constantVector 4)
  intro gateConstraints _
  apply RenamesTo.bind (recasts.constantVector 6)
  intro constraintInputs _
  cases LookupShape.make gates tables
      { gateConstraints, constraintInputs, tableOptions, tableColumns } with
  | error failure => exact .error _
  | ok shape =>
      apply RenamesTo.bind (recasts.constantSize 7)
      intro constraints _
      split
      · exact .error _
      · exact .ok shape

/-- The same input is read, which no name tells apart. -/
theorem inputElements (inputs : List InputValue) :
    RenamesTo newName (instruction.inputElements field inputs)
      (other.inputElements field inputs) := by
  apply RenamesTo.bind (recasts.constantSize 0)
  intro index _
  cases inputs[index]? with
  | none => exact .error _
  | some input =>
      apply RenamesTo.bind
      · apply RenamesTo.mapM
        intro text
        split
        · exact .ok _
        · exact recasts.malformed 0 (.inputNotDecimal index text)
      · intro elements _
        exact .ok (input, elements)

end Instruction.Recasts

/-! ## Translation -/

namespace Translation

variable {field : PrimeField} {newName : ValueId → ValueId} {names : Set ValueId}

/-- From machines that differ only in the bound names, both come to the same, and to such machines. -/
def Renames
    (newName : ValueId → ValueId)
    (names : Set ValueId)
    (translation other : Translation field α) :
    Prop :=
  ∀ machine frame, machine.frame.Renamed newName names frame →
    ∃ later, (translation.run machine).2.frame.Renamed newName names later
      ∧ other.run (machine.withFrame frame) =
        ((translation.run machine).1.mapError (Stop.map (Failure.rename newName)),
          (translation.run machine).2.withFrame later)

namespace Renames

/-- A result does not depend on names. -/
theorem pure (result : α) :
    Renames newName names (Pure.pure result : Translation field α) (Pure.pure result) :=
  fun _ frame renamed => ⟨frame, renamed, rfl⟩

/-- Giving up does not depend on names. -/
theorem crash : Renames newName names (Translation.crash : Translation field α) .crash :=
  fun _ frame renamed => ⟨frame, renamed, rfl⟩

/-- A report is about the new names. -/
theorem report (failure : Failure) :
    Renames newName names (Translation.report failure : Translation field α)
      (.report (failure.rename newName)) :=
  fun _ frame renamed => ⟨frame, renamed, rfl⟩

/-- One translation after another is renamed if both are, for every result of the first. -/
theorem bind
    {first otherFirst : Translation field α}
    {next otherNext : α → Translation field β}
    (firstRenames : Renames newName names first otherFirst)
    (nextRenames : ∀ result, Renames newName names (next result) (otherNext result)) :
    Renames newName names (first >>= next) (otherFirst >>= otherNext) := by
  intro machine frame renamed
  obtain ⟨later, stillRenamed, ran⟩ := firstRenames machine frame renamed
  rw [run_bind, run_bind, ran]
  rcases ended : first.run machine with ⟨stop | result, after⟩
  · rw [ended] at stillRenamed
    exact ⟨later, stillRenamed, rfl⟩
  · rw [ended] at stillRenamed
    exact nextRenames result after later stillRenamed

/-- An outcome is renamed if it is the same but for the names in its failure. -/
theorem ofExcept
    {outcome other : Except Failure α}
    (renames : RenamesTo newName outcome other) :
    Renames newName names (Translation.ofExcept outcome : Translation field α) (.ofExcept other) := by
  obtain rfl : other = _ := renames
  cases outcome with
  | error failure => exact report failure
  | ok result => exact pure result

/-- What is read from the state is renamed if it is for every frame that binds the new names. -/
theorem read
    {reading other : Reading field α}
    (renames : ∀ machine frame, machine.frame.Renamed newName names frame →
      RenamesTo newName (reading machine) (other (machine.withFrame frame))) :
    Renames newName names (Translation.read reading) (.read other) := by
  intro machine frame renamed
  have otherRead : other (machine.withFrame frame) = _ := renames machine frame renamed
  have ran : (Translation.read other).run (machine.withFrame frame) =
      ((other (machine.withFrame frame)).mapError .report, machine.withFrame frame) :=
    run_ofExcept (other (machine.withFrame frame)) (machine.withFrame frame)
  have firstRan : (Translation.read reading).run machine =
      ((reading machine).mapError .report, machine) :=
    run_ofExcept (reading machine) machine
  rw [ran, firstRan, otherRead]
  cases reading machine with
  | error failure => exact ⟨frame, renamed, rfl⟩
  | ok result => exact ⟨frame, renamed, rfl⟩

/-- What is laid out does not depend on the frame. -/
theorem lay (synthesis : Synthesis field α) :
    Renames newName names (Translation.lay synthesis) (.lay synthesis) :=
  fun _ frame renamed => ⟨frame, renamed, rfl⟩

/-- Cells are laid out in the same way. -/
theorem assemble (assembly : Assembly field α) :
    Renames newName names (Translation.assemble assembly) (.assemble assembly) := by
  apply bind (lay assembly.run)
  rintro (stop | result)
  · cases stop with
    | report failure => exact report (.circuit failure)
    | crash => exact crash
  · exact pure result

/-- Memory is replaced in the same way. -/
theorem setMemory (memory : Memory field) :
    Renames newName names (Translation.setMemory memory) (.setMemory memory) :=
  fun _ frame renamed => ⟨frame, renamed, rfl⟩

/-- The same cells are exposed. -/
theorem expose (cells : List (Cell field)) :
    Renames newName names (Translation.expose cells) (.expose cells) :=
  fun _ frame renamed => ⟨frame, renamed, rfl⟩

/-- What the memory comes to does not depend on the frame. -/
theorem ofMemory
    {outcome : Memory field → Except Failure α}
    (renames : ∀ memory, RenamesTo newName (outcome memory) (outcome memory)) :
    Renames newName names (Translation.read fun machine => outcome machine.memory)
      (.read fun machine => outcome machine.memory) :=
  read fun machine _ _ => renames machine.memory

/-- What comes after a check of the memory only depends on what the check comes to. -/
theorem checkMemory
    (outcome : Memory field → Except Failure α)
    {next otherNext : α → Translation field β}
    (renames : ∀ memory, RenamesTo newName (outcome memory) (outcome memory))
    (nextRenames : ∀ result, Renames newName names (next result) (otherNext result)) :
    Renames newName names
      (do
        let machine ← get
        let result ← Translation.ofExcept (outcome machine.memory)
        next result)
      (do
        let machine ← get
        let result ← Translation.ofExcept (outcome machine.memory)
        otherNext result) := by
  have checked := bind (ofMemory renames) nextRenames
  unfold Translation.read at checked
  rwa [bind_assoc, bind_assoc] at checked

/-- The same address is allocated, and memory is exhausted for both. -/
theorem allocate (count bytes : Nat) :
    Renames newName names (Translation.allocate count bytes : Translation field Nat)
      (.allocate count bytes) := by
  change Renames newName names (Translation.read _ >>= _) (Translation.read _ >>= _)
  apply bind (ofMemory fun memory => memory.allocate_renames count bytes)
  rintro ⟨pointer, memory⟩
  apply bind (setMemory memory)
  intro _
  exact pure pointer

/-- The same cells are stored, at addresses that are the same for both. -/
theorem storeAll (pointer : Nat) (cells : List (Cell field)) :
    Renames newName names (Translation.storeAll pointer cells) (.storeAll pointer cells) := by
  apply bind (ofMemory fun memory => memory.storeAll_renames pointer cells)
  intro memory
  exact setMemory memory

/-- A new name is bound where the name it stands for is. -/
theorem bindName
    (injective : Set.InjOn newName names)
    {id : ValueId}
    (mentioned : id ∈ names)
    (slot : Slot field) :
    Renames newName names (Translation.bind id slot) (.bind (newName id) slot) :=
  fun _ frame renamed =>
    ⟨frame.bind (newName id) slot, renamed.bind injective mentioned slot, rfl⟩

end Renames

end Translation

/-! ## Instructions -/

namespace Instruction.Recasts

open Translation (Renames)

variable {field : PrimeField} {newName : ValueId → ValueId} {instruction other : Instruction}
variable (recasts : instruction.Recasts newName other)
variable {names : Set ValueId} (injective : Set.InjOn newName names)
variable (mentioned : ∀ id ∈ instruction.names, id ∈ names)

include mentioned in
/-- The operands of an instruction are among the names that it mentions. -/
theorem mentions_uses : ∀ id ∈ instruction.uses, id ∈ names :=
  fun id used => mentioned id (List.mem_cons_of_mem _ used)

include recasts injective mentioned

/-- The new name of an instruction is bound where its name is. -/
theorem bindName (slot : Slot field) :
    Renames newName names (Translation.bind instruction.id slot) (.bind other.id slot) := by
  rw [recasts.id]
  exact .bindName injective (mentioned _ List.mem_cons_self) slot

/-- The new name is bound to the same address. -/
theorem bindAddress (pointer : Nat) :
    Renames newName names (instruction.bindAddress pointer : Translation field Unit)
      (other.bindAddress pointer) := by
  apply Renames.bind (.lay _)
  intro cell
  exact recasts.bindName injective mentioned (.scalar cell)

/-- A `param` exposes the same elements, and binds the new name to them. -/
theorem handleParam (inputs : List InputValue) :
    Renames newName names (instruction.handleParam inputs : Translation field Unit)
      (other.handleParam inputs) := by
  apply Renames.bind (.ofExcept (recasts.inputElements inputs))
  rintro ⟨input, elements⟩
  apply Renames.bind
  · apply Renames.bind (.lay (Synthesis.witnesses elements))
    intro cells
    apply Renames.bind (.expose cells)
    intro _
    exact .pure cells
  intro cells
  cases input with
  | field text =>
      cases cells with
      | nil => exact .crash
      | cons cell rest => exact recasts.bindName injective mentioned (.scalar cell)
  | vector texts => exact recasts.bindName injective mentioned (.vector cells)
  | curve x y => exact recasts.bindName injective mentioned (.vector cells)
  | array texts =>
      apply Renames.bind (.allocate cells.length field.elementBytes)
      intro pointer
      apply Renames.bind (.storeAll pointer cells)
      intro _
      exact recasts.bindAddress injective mentioned pointer

/-- An `alloca` allocates the same cells, and binds the new name to their address. -/
theorem handleAlloca :
    Renames newName names (instruction.handleAlloca : Translation field Unit)
      other.handleAlloca := by
  apply Renames.bind (.ofExcept (recasts.constantSize 0))
  intro count
  apply Renames.bind (.allocate count field.elementBytes)
  intro pointer
  exact recasts.bindAddress injective mentioned pointer

/-- A `load` binds the new name to the same cell. -/
theorem handleLoad :
    Renames newName names (instruction.handleLoad : Translation field Unit) other.handleLoad := by
  have uses := mentions_uses mentioned
  apply Renames.bind (.read fun _ _ renamed => recasts.loadOperands uses renamed)
  intro cell
  exact recasts.bindName injective mentioned (.scalar cell)

/-- A selection reads the new names of the same cells. -/
theorem handleSelect :
    Renames newName names (instruction.handleSelect : Translation field Unit)
      other.handleSelect := by
  have uses := mentions_uses mentioned
  apply Renames.bind (.read fun _ _ renamed => recasts.scalar uses renamed 0)
  intro condition
  apply Renames.bind (.read fun _ _ renamed => recasts.scalar uses renamed 1)
  intro whenTrue
  apply Renames.bind (.read fun _ _ renamed => recasts.scalar uses renamed 2)
  intro whenFalse
  apply Renames.bind (.lay _)
  intro cell
  exact recasts.bindName injective mentioned (.scalar cell)

/-- A sum reads the new names of the same points, of which the types are kept. -/
theorem handleCurveAdd (adds : instruction.opcode = .curveAdd) :
    Renames newName names (instruction.handleCurveAdd : Translation field Unit)
      other.handleCurveAdd := by
  have uses := mentions_uses mentioned
  apply Renames.bind (.read fun _ _ renamed => recasts.pointOperands uses renamed adds)
  rintro ⟨left, right⟩
  apply Renames.bind (.assemble (Gadget.addPoints left right))
  intro sum
  exact recasts.bindName injective mentioned (.vector [sum.x, sum.y])

omit injective in
/-- Cosets are written to the same cells of memory. -/
theorem handleFriCosets :
    Renames newName names (instruction.handleFriCosets : Translation field Unit)
      other.handleFriCosets := by
  have uses := mentions_uses mentioned
  apply Renames.bind (.read fun _ _ renamed => recasts.cosetOperands uses renamed)
  rintro ⟨result, resultLength, root, totalBits, index⟩
  dsimp only
  cases CosetShape.make resultLength totalBits root with
  | error failure => exact .report (.circuit failure)
  | ok shape =>
      apply Renames.bind (.pure shape)
      intro shape
      apply Renames.checkMemory (fun memory => checkResultRange memory result resultLength)
        fun memory => memory.checkResultRange_renames result resultLength
      intro _
      apply Renames.bind (.assemble (Gadget.cosets shape index))
      intro rounds
      exact .storeAll result (rounds.flatMap CosetCells.toList)

/-- A gate argument reads the new names of the same cells. -/
theorem handleGateArgument :
    Renames newName names (instruction.handleGateArgument : Translation field Unit)
      other.handleGateArgument := by
  have uses := mentions_uses mentioned
  apply Renames.bind (.read fun _ _ renamed => recasts.gateOperands uses renamed)
  rintro ⟨shape, input⟩
  apply Renames.bind (.assemble (Gadget.gateArgument shape input))
  intro cell
  exact recasts.bindName injective mentioned (.scalar cell)

/-- A lookup argument reads the new names of the same cells. -/
theorem handleLookupArgument :
    Renames newName names (instruction.handleLookupArgument : Translation field Unit)
      other.handleLookupArgument := by
  have uses := mentions_uses mentioned
  apply Renames.bind (.ofExcept recasts.lookupShape)
  intro shape
  apply Renames.bind (.read fun _ _ renamed => recasts.lookupCells uses renamed)
  intro input
  apply Renames.bind (.assemble (Gadget.lookupArgument shape input))
  intro result
  exact recasts.bindName injective mentioned (.vector result.toList)

/-- An instruction with new names does the same with them. -/
theorem handle (inputs : List InputValue) :
    Renames newName names (instruction.handle inputs : Translation field Unit)
      (other.handle inputs) := by
  unfold Instruction.handle
  rw [recasts.opcode]
  cases opcode : instruction.opcode with
  | param => exact recasts.handleParam injective mentioned inputs
  | alloca => exact recasts.handleAlloca injective mentioned
  | load => exact recasts.handleLoad injective mentioned
  | select => exact recasts.handleSelect injective mentioned
  | curveAdd => exact recasts.handleCurveAdd injective mentioned opcode
  | friCosets => exact recasts.handleFriCosets mentioned
  | gateArgument => exact recasts.handleGateArgument injective mentioned
  | lookupArgument => exact recasts.handleLookupArgument injective mentioned

end Instruction.Recasts

end Plonkish
