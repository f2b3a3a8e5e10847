import Plonkish.Proofs.Gadget.Spacing
import Plonkish.Proofs.Machine.Run
import Plonkish.Proofs.Machine.StepAgreement

namespace Plonkish

/-!
# Machines before placement

Until a circuit is checked there are no break points, and instructions keep the
gates of the transcript apart, whether they succeed or not. A circuit that is
checked for the first time is exported if there is room for it, and nothing but
the lack of room keeps it from being exported.
-/

namespace Machine

variable {field : PrimeField}

/-- No circuit was placed before, and gates are apart. -/
structure Unplaced (machine : Machine field) : Prop where
  breakPoints : machine.breakPoints = none
  transcript : machine.transcript.Spaced

/-- A new machine has placed no circuit, and no gate. -/
theorem unplaced_of_create
    {policy : Policy}
    {machine : Machine field}
    (created : create field policy = .ok machine) :
    machine.Unplaced := by
  obtain ⟨-, rfl⟩ := eq_of_create created
  exact ⟨rfl, rfl⟩

end Machine

namespace Translation

variable {field : PrimeField}

/-- Giving up changes nothing. -/
theorem crash_unplaced :
    Preserves Machine.Unplaced (crash : Translation field α).run :=
  fun _ unplaced => unplaced

/-- A report changes nothing. -/
theorem report_unplaced (failure : Failure) :
    Preserves Machine.Unplaced (report failure : Translation field α).run :=
  fun _ unplaced => unplaced

/-- Looking at the state changes nothing. -/
theorem get_unplaced :
    Preserves Machine.Unplaced (get : Translation field (Machine field)).run :=
  fun _ unplaced => unplaced

/-- The outcome of a computation without a state changes nothing. -/
theorem ofExcept_unplaced (outcome : Except Failure α) :
    Preserves Machine.Unplaced (ofExcept outcome : Translation field α).run := by
  cases outcome with
  | error failure => exact report_unplaced failure
  | ok result => exact Preserves.run_pure result

/-- Reading operands changes nothing. -/
theorem read_unplaced (reading : Reading field α) :
    Preserves Machine.Unplaced (read reading).run := by
  apply Preserves.run_bind get_unplaced
  intro machine
  exact ofExcept_unplaced (reading machine)

/-- Cells may be laid out if their gates stay apart. -/
theorem lay_unplaced
    {synthesis : Synthesis field α}
    (preserves : Preserves Transcript.Spaced synthesis) :
    Preserves Machine.Unplaced (lay synthesis).run := by
  intro machine unplaced
  exact ⟨unplaced.breakPoints, preserves machine.transcript unplaced.transcript⟩

/-- Cells may be laid out by a gadget if their gates stay apart, whether it has a result or not. -/
theorem assemble_unplaced
    {assembly : Assembly field α}
    (preserves : Preserves Transcript.Spaced assembly.run) :
    Preserves Machine.Unplaced (assemble assembly).run := by
  apply Preserves.run_bind (lay_unplaced preserves)
  intro outcome
  cases outcome with
  | ok result => exact Preserves.run_pure result
  | error stop => exact fun _ unplaced => unplaced

/-- A binding places no circuit. -/
theorem bind_unplaced (id : ValueId) (slot : Slot field) :
    Preserves Machine.Unplaced (bind id slot).run :=
  fun _ unplaced => ⟨unplaced.breakPoints, unplaced.transcript⟩

/-- A change of memory places no circuit. -/
theorem setMemory_unplaced (memory : Memory field) :
    Preserves Machine.Unplaced (setMemory memory).run :=
  fun _ unplaced => ⟨unplaced.breakPoints, unplaced.transcript⟩

/-- An allocation places no circuit, and neither does exhausted memory. -/
theorem allocate_unplaced (count bytes : Nat) :
    Preserves Machine.Unplaced (allocate count bytes : Translation field Nat).run := by
  apply Preserves.run_bind get_unplaced
  intro machine
  apply Preserves.run_bind (ofExcept_unplaced _)
  rintro ⟨pointer, memory⟩
  apply Preserves.run_bind (setMemory_unplaced memory)
  intro _
  exact Preserves.run_pure pointer

/-- A store places no circuit, and neither does one that is refused. -/
theorem storeAll_unplaced (pointer : Nat) (cells : List (Cell field)) :
    Preserves Machine.Unplaced (storeAll pointer cells).run := by
  apply Preserves.run_bind get_unplaced
  intro machine
  apply Preserves.run_bind (ofExcept_unplaced _)
  intro memory
  exact setMemory_unplaced memory

/-- An exposed cell is not placed yet. -/
theorem expose_unplaced (cells : List (Cell field)) :
    Preserves Machine.Unplaced (expose cells).run :=
  fun _ unplaced => ⟨unplaced.breakPoints, unplaced.transcript⟩

end Translation

namespace Instruction

open Translation

variable {field : PrimeField} (instruction : Instruction)

/-- The address is a constant, which starts no gate. -/
theorem bindAddress_unplaced (pointer : Nat) :
    Preserves Machine.Unplaced (instruction.bindAddress pointer : Translation field Unit).run := by
  apply Preserves.run_bind (lay_unplaced (Synthesis.constant_spaced _))
  intro cell
  exact bind_unplaced _ _

/-- The elements are cells of the prover's choice, which start no gate. -/
theorem exposeElements_unplaced (elements : List (Element field)) :
    Preserves Machine.Unplaced (exposeElements elements).run := by
  apply Preserves.run_bind (lay_unplaced (Synthesis.witnesses_spaced elements))
  intro cells
  apply Preserves.run_bind (expose_unplaced cells)
  intro _
  exact Preserves.run_pure cells

/-- An input lays out its elements and, if it is an array, the address. -/
theorem handleParam_unplaced (inputs : List InputValue) :
    Preserves Machine.Unplaced (instruction.handleParam inputs : Translation field Unit).run := by
  apply Preserves.run_bind (ofExcept_unplaced _)
  rintro ⟨input, elements⟩
  apply Preserves.run_bind (exposeElements_unplaced elements)
  intro cells
  cases input with
  | field element =>
      cases cells with
      | nil => exact crash_unplaced
      | cons cell rest => exact bind_unplaced _ _
  | vector elements => exact bind_unplaced _ _
  | curve x y => exact bind_unplaced _ _
  | array elements =>
      apply Preserves.run_bind (allocate_unplaced _ _)
      intro pointer
      apply Preserves.run_bind (storeAll_unplaced pointer cells)
      intro _
      exact instruction.bindAddress_unplaced pointer

/-- An allocation lays out the address only. -/
theorem handleAlloca_unplaced :
    Preserves Machine.Unplaced (instruction.handleAlloca : Translation field Unit).run := by
  apply Preserves.run_bind (ofExcept_unplaced _)
  intro count
  apply Preserves.run_bind (allocate_unplaced _ _)
  intro pointer
  exact instruction.bindAddress_unplaced pointer

/-- A load lays out no cell. -/
theorem handleLoad_unplaced :
    Preserves Machine.Unplaced (instruction.handleLoad : Translation field Unit).run := by
  apply Preserves.run_bind (read_unplaced _)
  intro cell
  exact bind_unplaced _ _

/-- A selection is spaced as its gadget is. -/
theorem handleSelect_unplaced :
    Preserves Machine.Unplaced (instruction.handleSelect : Translation field Unit).run := by
  iterate 3
    apply Preserves.run_bind (read_unplaced _)
    intro _
  apply Preserves.run_bind (lay_unplaced (Gadget.select_spaced _ _ _))
  intro cell
  exact bind_unplaced _ _

/-- A sum of points is spaced as its gadget is. -/
theorem handleCurveAdd_unplaced :
    Preserves Machine.Unplaced (instruction.handleCurveAdd : Translation field Unit).run := by
  apply Preserves.run_bind (read_unplaced _)
  intro points
  apply Preserves.run_bind (assemble_unplaced (Gadget.addPoints_spaced _ _))
  intro sum
  exact bind_unplaced _ _

/-- Cosets are spaced as their gadget is, whether they can be written or not. -/
theorem handleFriCosets_unplaced :
    Preserves Machine.Unplaced (instruction.handleFriCosets : Translation field Unit).run := by
  apply Preserves.run_bind (read_unplaced _)
  rintro ⟨result, resultLength, root, totalBits, index⟩
  dsimp only
  cases CosetShape.make resultLength totalBits root with
  | error failure => exact fun _ unplaced => unplaced
  | ok shape =>
      simp only [pure_bind]
      apply Preserves.run_bind get_unplaced
      intro machine
      apply Preserves.run_bind (ofExcept_unplaced _)
      intro _
      apply Preserves.run_bind (assemble_unplaced (Gadget.cosets_spaced shape index))
      intro rounds
      exact storeAll_unplaced _ _

/-- A gate argument is spaced as its gadget is. -/
theorem handleGateArgument_unplaced :
    Preserves Machine.Unplaced (instruction.handleGateArgument : Translation field Unit).run := by
  apply Preserves.run_bind (read_unplaced _)
  intro operands
  apply Preserves.run_bind (assemble_unplaced (Gadget.gateArgument_spaced _ _))
  intro cell
  exact bind_unplaced _ _

/-- A lookup argument is spaced as its gadget is. -/
theorem handleLookupArgument_unplaced :
    Preserves Machine.Unplaced
      (instruction.handleLookupArgument : Translation field Unit).run := by
  apply Preserves.run_bind (ofExcept_unplaced _)
  intro shape
  apply Preserves.run_bind (read_unplaced _)
  intro input
  apply Preserves.run_bind (assemble_unplaced (Gadget.lookupArgument_spaced shape input))
  intro result
  exact bind_unplaced _ _

/-- An instruction places nothing and keeps gates apart. -/
theorem handle_unplaced (inputs : List InputValue) :
    Preserves Machine.Unplaced (instruction.handle inputs : Translation field Unit).run := by
  unfold handle
  cases instruction.opcode with
  | param => exact instruction.handleParam_unplaced inputs
  | alloca => exact instruction.handleAlloca_unplaced
  | load => exact instruction.handleLoad_unplaced
  | select => exact instruction.handleSelect_unplaced
  | curveAdd => exact instruction.handleCurveAdd_unplaced
  | friCosets => exact instruction.handleFriCosets_unplaced
  | gateArgument => exact instruction.handleGateArgument_unplaced
  | lookupArgument => exact instruction.handleLookupArgument_unplaced

end Instruction

namespace Program

variable {field : PrimeField}

/-- A run places nothing and keeps gates apart. -/
theorem handleAll_unplaced (inputs : List InputValue) (instructions : List Instruction) :
    Preserves Machine.Unplaced (handleAll inputs instructions : Translation field Unit).run := by
  induction instructions with
  | nil => exact Preserves.run_pure ()
  | cons instruction rest inductionHypothesis =>
      apply Preserves.run_bind (instruction.handle_unplaced inputs)
      intro _
      exact inductionHypothesis

end Program

namespace Translation

variable {field : PrimeField}

/-- A satisfied circuit that was not placed before is exported if it is placed, or it crashes. -/
theorem run_finish_of_unplaced
    {machine : Machine field}
    {columns : Layout}
    (unplaced : machine.breakPoints = none)
    (satisfied : machine.Satisfied)
    (laidOut : machine.policy.layout machine.transcript = .ok columns) :
    ((finish true : Translation field (Export field)).run machine).1 =
      match Placement.ofTranscript? columns (machine.instances.toList.map Array.size)
          machine.transcript with
      | none => .error .crash
      | some _ => .ok (.ofTranscript columns machine.exposed machine.transcript) := by
  have counted : (layout : Translation field Layout).run machine = (.ok columns, machine) := by
    unfold layout
    rw [run_bind, run_get]
    dsimp only
    rw [laidOut]
    rfl
  have checked : (check : Translation field Layout).run machine =
      match Placement.ofTranscript? columns (machine.instances.toList.map Array.size)
          machine.transcript with
      | none => (.error .crash, machine)
      | some breakPoints => (.ok columns, { machine with breakPoints := some breakPoints }) := by
    unfold check
    rw [run_bind, counted]
    dsimp only
    rw [run_bind, run_get]
    dsimp only
    cases Placement.ofTranscript? columns (machine.instances.toList.map Array.size)
        machine.transcript with
    | none => rfl
    | some breakPoints =>
        simp only [unplaced, Option.all_none, satisfied, ↓reduceIte]
        rfl
  unfold finish
  simp only [↓reduceIte]
  rw [run_bind, checked]
  cases Placement.ofTranscript? columns (machine.instances.toList.map Array.size)
      machine.transcript with
  | none => rfl
  | some breakPoints => rfl

end Translation

end Plonkish
