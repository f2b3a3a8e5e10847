import Plonkish.Proofs.Machine.Binding
import Plonkish.Proofs.Program.Reachability
import Plonkish.Proofs.Program.Refusal

namespace Plonkish

/-!
# Effects of instructions

What an instruction does to the machine it runs on, and what it leaves alone.
Whatever becomes of it, everything that was laid out or exposed stays in its
place. If it succeeds it binds its own name, and memory changes only where its
opcode says so; if it fails, nothing is bound and memory is as before. It always
ends with a result or a report, unless it asks for more powers than can be held.
-/

namespace Instruction

/-- By how many cells memory grows: the elements of an array, or the count of an allocation. -/
def allocation (inputs : List InputValue) (instruction : Instruction) : Nat :=
  match instruction.opcode with
  | .param =>
      match instruction.input? inputs with
      | some (.array elements) => elements.length
      | _ => 0
  | .alloca =>
      match instruction.constantSize 0 with
      | .ok count => count
      | .error _ => 0
  | _ => 0

variable {field : PrimeField} {inputs : List InputValue} {instruction : Instruction}
variable {machine after : Machine field} {outcome : Except (Stop Failure) Unit}

/-- An address is in the range that the operands of `fri_cosets` describe. -/
def WritesCosetAt
    (instruction : Instruction)
    (machine : Machine field)
    (address : Nat) :
    Prop :=
  instruction.opcode = .friCosets
    ∧ ∃ pointer rounds, instruction.pointer 0 machine = .ok pointer
      ∧ instruction.constantSize 1 = .ok rounds
      ∧ pointer ≤ address ∧ address < pointer + 3 * rounds

/-- What an instruction that succeeds did to memory. -/
structure MemoryEffect
    (inputs : List InputValue)
    (instruction : Instruction)
    (machine : Machine field)
    (memory : Memory field) :
    Prop where
  size : memory.size = machine.memory.size + instruction.allocation inputs
  limit : machine.memory.size ≤ memoryLimit → memory.size ≤ memoryLimit
  /-- Cells keep their widths. -/
  bytes : ∀ address < machine.memory.size,
    memory.cellBytes address = machine.memory.cellBytes address
  /-- Cells keep what they store, but for those that cosets are written to. -/
  stored : ∀ address < machine.memory.size,
    memory.stored[address]? ≠ machine.memory.stored[address]? →
      instruction.WritesCosetAt machine address

namespace MemoryEffect

/-- Memory that is left alone is not allocated. -/
theorem refl (nothing : instruction.allocation inputs = 0) :
    MemoryEffect inputs instruction machine machine.memory where
  size := by rw [nothing, Nat.add_zero]
  limit within := within
  bytes _ _ := rfl
  stored _ _ changed := (changed rfl).elim

theorem of_allocate
    {pointer bytes : Nat}
    {memory : Memory field}
    (allocates : machine.memory.allocate (instruction.allocation inputs) bytes =
      .ok (pointer, memory)) :
    MemoryEffect inputs instruction machine memory where
  size := by
    obtain ⟨-, -, rfl⟩ := Memory.allocate_eq_ok_iff.mp allocates
    rfl
  limit _ := by
    obtain ⟨fits, -, rfl⟩ := Memory.allocate_eq_ok_iff.mp allocates
    exact fits
  bytes _ inside := Memory.cellBytes_of_allocate allocates inside
  stored _ _ changed := by
    obtain ⟨-, -, rfl⟩ := Memory.allocate_eq_ok_iff.mp allocates
    exact (changed rfl).elim

/-- Memory that is written where it was allocated keeps what was there before. -/
theorem of_allocate_storeAll
    {pointer bytes : Nat}
    {cells : List (Cell field)}
    {allocated memory : Memory field}
    (allocates : machine.memory.allocate (instruction.allocation inputs) bytes =
      .ok (pointer, allocated))
    (stores : allocated.storeAll pointer cells = .ok memory) :
    MemoryEffect inputs instruction machine memory := by
  have grown : MemoryEffect inputs instruction machine allocated := .of_allocate allocates
  have written := Memory.written_of_storeAll stores
  obtain ⟨-, atEnd, -⟩ := Memory.allocate_eq_ok_iff.mp allocates
  refine ⟨written.size.trans grown.size, fun within => ?_, fun address inside => ?_,
    fun address inside => ?_⟩
  · rw [written.size]
    exact grown.limit within
  · rw [written.cellBytes, grown.bytes address inside]
  · rw [written.stored, if_neg (by omega)]
    exact grown.stored address inside

end MemoryEffect

theorem memoryEffect_of_ends
    (ends : Ends inputs instruction machine (.ok (), after)) :
    MemoryEffect inputs instruction machine after.memory := by
  cases ends with
  | @boundInput input elements slot opcode read notArray kind cells =>
      apply MemoryEffect.refl
      obtain ⟨named, -⟩ := input?_of_inputElements read
      rw [allocation, opcode]
      dsimp only
      rw [named]
      cases input with
      | array texts => exact (notArray texts rfl).elim
      | _ => rfl
  | @boundArray texts elements pointer allocated memory opcode read allocates stores =>
      obtain ⟨named, counted⟩ := input?_of_inputElements read
      have count : instruction.allocation inputs = elements.length := by
        rw [allocation, opcode]
        dsimp only
        rw [named]
        exact counted.symm
      rw [← count] at allocates
      exact .of_allocate_storeAll allocates stores
  | @allocated count pointer memory opcode counted allocates =>
      have same : instruction.allocation inputs = count := by
        rw [allocation, opcode]
        dsimp only
        rw [counted]
      rw [← same] at allocates
      exact .of_allocate allocates
  | @wroteCosets result resultLength totalBits root index shape rounds transcript memory opcode
      read made checked computed counted stores =>
      have written := Memory.written_of_storeAll stores
      have nothing : instruction.allocation inputs = 0 := by
        rw [allocation, opcode]
      refine ⟨?_, fun within => ?_, fun address _ => written.cellBytes address,
        fun address _ changed => ?_⟩
      · rw [nothing]
        exact written.size
      · rw [← written.size] at within
        exact within
      · obtain ⟨fromFirst, toLast⟩ := written.inside_of_ne changed
        rw [CosetCells.length_flatMap_toList, counted] at toLast
        obtain ⟨pointer, pointerRead, read⟩ := ok_of_bind read
        obtain ⟨length, lengthRead, read⟩ := ok_of_bind read
        obtain ⟨root, -, read⟩ := ok_of_bind read
        obtain ⟨totalBits, -, read⟩ := ok_of_bind read
        obtain ⟨index, -, read⟩ := ok_of_bind read
        cases read
        exact ⟨opcode, result, resultLength, pointerRead, lengthRead, fromFirst, toLast⟩
  | loaded opcode | selected opcode | added opcode | evaluatedGates opcode
  | evaluatedLookups opcode =>
      apply MemoryEffect.refl
      rw [allocation, opcode]

/-- Only inputs are exposed. -/
theorem instances_of_ends (ends : Ends inputs instruction machine (outcome, after)) :
    after.instances = machine.instances
      ∨ ∃ elements, after.instances = (exposedMachine elements machine).instances := by
  cases ends with
  | @exhausted _ elements | @boundInput _ elements | @boundArray _ elements =>
      exact .inr ⟨elements, rfl⟩
  | _ => exact .inl rfl

end Instruction

namespace Machine

variable {field : PrimeField} {policy : Policy} {machine : Machine field}

/-- There is always the null cell, and never more memory than allowed. -/
theorem Reachable.memory_bounds (reachable : Reachable policy machine) :
    0 < machine.memory.size ∧ machine.memory.size ≤ memoryLimit := by
  induction reachable with
  | create created =>
      obtain ⟨-, rfl⟩ := eq_of_create created
      have null : 1 ≤ memoryLimit := by decide
      exact ⟨Nat.zero_lt_one, null⟩
  | @handle earlier _ inputs instruction inductionHypothesis =>
      obtain ⟨nonempty, within⟩ := inductionHypothesis
      have ends := instruction.handle_ends inputs fun _ => nonempty
      rcases ended : (instruction.handle inputs).run earlier with ⟨outcome, after⟩
      rw [ended] at ends
      by_cases succeeds : outcome = .ok ()
      · subst succeeds
        have effect := Instruction.memoryEffect_of_ends ends
        exact ⟨Nat.lt_of_lt_of_le nonempty (effect.size ▸ Nat.le_add_right _ _),
          effect.limit within⟩
      · obtain ⟨-, sameMemory⟩ := Instruction.unbound_of_ends ends succeeds
        dsimp only
        rw [sameMemory]
        exact ⟨nonempty, within⟩

theorem Reachable.ends
    (reachable : Reachable policy machine)
    (inputs : List InputValue)
    (instruction : Instruction) :
    instruction.Ends inputs machine ((instruction.handle inputs).run machine) :=
  instruction.handle_ends inputs fun _ => reachable.memory_bounds.1

/-- Everything that was laid out or exposed is still there, in its place. -/
structure AppendedBy (earlier later : Machine field) : Prop where
  values : earlier.transcript.values <+: later.transcript.values
  selectors : earlier.transcript.selectors <+: later.transcript.selectors
  copies : earlier.transcript.copies.toList <+: later.transcript.copies.toList
  constants : earlier.transcript.constants.toList <+: later.transcript.constants.toList
  /-- There are as many columns of public inputs, and each of them only grows at its end. -/
  columns : List.Forall₂ (fun column grown => column.toList <+: grown.toList)
    earlier.instances.toList later.instances.toList

/-- What is not changed is a prefix of itself. -/
theorem columns_refl (columns : List (Array (Cell field))) :
    List.Forall₂ (fun column grown => column.toList <+: grown.toList) columns columns :=
  List.forall₂_same.mpr fun column _ => List.prefix_refl column.toList

theorem Reachable.appendedBy
    (reachable : Reachable policy machine)
    {inputs : List InputValue}
    {instruction : Instruction}
    {outcome : Except (Stop Failure) Unit}
    {after : Machine field}
    (ended : (instruction.handle inputs).run machine = (outcome, after)) :
    machine.AppendedBy after := by
  have sound : Translation.Sound (∅ : Set (Cell field)) (instruction.handle inputs) (fun _ => ∅) :=
    instruction.handle_sound inputs
  have kept := (sound.extended machine).transcript
  have ends := reachable.ends inputs instruction
  rw [ended] at kept ends
  refine {
    values := kept.rows.map Row.value
    selectors := kept.rows.map Row.gate
    copies := kept.copies
    constants := kept.constants
    columns := ?_
  }
  rcases Instruction.instances_of_ends ends with same | ⟨elements, exposed⟩
  · rw [same]
    exact columns_refl machine.instances.toList
  · obtain ⟨first, rest, columns⟩ := Instruction.exists_first_column reachable.sound.columns
    rw [exposed, Instruction.columns_exposedMachine elements columns, columns]
    refine .cons ?_ (columns_refl rest)
    rw [Array.toList_appendList]
    exact List.prefix_append first.toList _

end Machine

namespace Instruction

variable {field : PrimeField}

/-- What an instruction did to the machine it ran on, by what it ended with. -/
structure Effect
    (inputs : List InputValue)
    (instruction : Instruction)
    (machine : Machine field)
    (outcome : Except (Stop Failure) Unit)
    (after : Machine field) :
    Prop where
  policy : after.policy = machine.policy
  breakPoints : after.breakPoints = machine.breakPoints
  appended : machine.AppendedBy after
  /-- Every other name is bound as it was. -/
  others : ∀ id, id ≠ instruction.id → after.frame.get? id = machine.frame.get? id
  /-- If the instruction succeeds, its name is bound to a slot of the kind of its opcode. -/
  bound : outcome = .ok () → instruction.opcode ≠ .friCosets →
    ∃ slot, after.frame.get? instruction.id = some slot
      ∧ instruction.slotKind? inputs = some slot.kind
  unbound : outcome = .ok () → instruction.opcode = .friCosets → after.frame = machine.frame
  /-- Memory grows by what the opcode allocates. -/
  size : outcome = .ok () →
    after.memory.size = machine.memory.size + instruction.allocation inputs
  failed : outcome ≠ .ok () → after.frame = machine.frame ∧ after.memory = machine.memory
  /-- The cells that there were keep their widths. -/
  bytes : ∀ address < machine.memory.size,
    after.memory.cellBytes address = machine.memory.cellBytes address
  /-- They also keep what they store, but for those that cosets are written to. -/
  stored : ∀ address < machine.memory.size,
    after.memory.stored[address]? ≠ machine.memory.stored[address]? →
      outcome = .ok () ∧ instruction.WritesCosetAt machine address

/--
An instruction has the effect of its opcode, whether or not it succeeds.

What was laid out, exposed, bound to another name or allocated before is left
as it was, and the only cells of memory that are overwritten are those in the
range that a successful `fri_cosets` writes its rounds to.
-/
theorem effect_of_reachable
    {policy : Policy}
    {machine after : Machine field}
    {outcome : Except (Stop Failure) Unit}
    (reachable : machine.Reachable policy)
    {inputs : List InputValue}
    {instruction : Instruction}
    (ended : (instruction.handle inputs).run machine = (outcome, after)) :
    instruction.Effect inputs machine outcome after := by
  have ends := reachable.ends inputs instruction
  rw [ended] at ends
  have settings : after.policy = machine.policy ∧ after.breakPoints = machine.breakPoints := by
    cases ends <;> exact ⟨rfl, rfl⟩
  have onSuccess : outcome = .ok () → Ends inputs instruction machine (.ok (), after) := by
    rintro rfl
    exact ends
  refine {
    policy := settings.1
    breakPoints := settings.2
    appended := reachable.appendedBy ended
    others := fun id => get?_of_ends ends
    bound := fun succeeds notCosets => ?_
    unbound := fun succeeds cosets => ?_
    size := fun succeeds => (memoryEffect_of_ends (onSuccess succeeds)).size
    failed := unbound_of_ends ends
    bytes := fun address inside => ?_
    stored := fun address inside changed => ?_
  }
  · have frame := frame_of_ends (onSuccess succeeds)
    split at frame
    next kind isKind =>
      obtain ⟨slot, sameKind, bound⟩ := frame
      refine ⟨slot, ?_, isKind.trans (congrArg some sameKind.symm)⟩
      rw [bound, Frame.get?_bind, if_pos rfl]
    next => exact (notCosets frame.1).elim
  · have frame := frame_of_ends (onSuccess succeeds)
    rw [slotKind?, cosets] at frame
    exact frame.2
  · by_cases succeeds : outcome = .ok ()
    · exact (memoryEffect_of_ends (onSuccess succeeds)).bytes address inside
    · rw [(unbound_of_ends ends succeeds).2]
  · by_cases succeeds : outcome = .ok ()
    · exact ⟨succeeds, (memoryEffect_of_ends (onSuccess succeeds)).stored address inside changed⟩
    · exact (changed (by rw [(unbound_of_ends ends succeeds).2])).elim

/--
An instruction ends with a result or with a report, whatever its operands are.

The one proviso is that the powers for the widest values of a lookup argument
can be held. No number that is added up on the way exceeds 64 bits, and cosets
that were computed are written without fail where it was checked that they can
be.
-/
theorem answers_of_reachable
    {policy : Policy}
    {machine : Machine field}
    (reachable : machine.Reachable policy)
    (inputs : List InputValue)
    {instruction : Instruction}
    (holdable : ∀ shape, instruction.opcode = .lookupArgument →
      instruction.lookupShape = .ok shape → shape.sizes.widest ≤ Gadget.largestReserve) :
    (((instruction.handle inputs).run machine).1 = .ok ()
        ∨ ∃ failure,
          ((instruction.handle inputs).run machine).1 = .error (.report failure))
      ∧ machine.memory.size ≤ memoryLimit
      ∧ (∀ shape input, instruction.gateOperands machine = .ok (shape, input) →
        shape.total = (shape.sizes.map UInt64.toNat).sum ∧ shape.total < 1 <<< 64)
      ∧ (∀ shape, instruction.lookupShape = .ok shape → shape.Exact)
      ∧ ∀ result resultLength totalBits root shape index rounds transcript,
        CosetShape.make resultLength totalBits root = .ok shape →
        checkResultRange machine.memory result resultLength = .ok () →
        (Gadget.cosets shape index).run machine.transcript = (.ok rounds, transcript) →
          result + 3 * resultLength < 1 <<< 64
            ∧ ∃ memory, machine.memory.storeAll result (rounds.flatMap CosetCells.toList) =
              .ok memory := by
  refine ⟨?_, reachable.memory_bounds.2, fun _ _ => total_of_gateOperands, fun _ => exact_of_lookupShape, ?_⟩
  · have ends := reachable.ends inputs instruction
    rcases ended : (instruction.handle inputs).run machine with ⟨outcome, after⟩
    rw [ended] at ends
    cases ends with
    | refused | exhausted => exact .inr ⟨_, rfl⟩
    | @unreserved shape transcript opcode shaped tooMany =>
        exact (Nat.not_lt.mpr (holdable shape opcode shaped) tooMany).elim
    | _ => exact .inl rfl
  · intro result resultLength totalBits root shape index rounds transcript made checked computed
    apply exists_storeAll_of_checkResultRange checked
    rw [CosetCells.length_flatMap_toList]
    rcases Gadget.cosets_cases made index machine.transcript with
      ⟨failure, refused⟩ | ⟨found, after, gives, counted⟩
    · rw [computed] at refused
      cases refused
    · rw [computed] at gives
      cases gives
      rw [counted]

end Instruction

namespace Program

/-- An array of three elements, and an index of two bits. -/
def arrayAndSmallIndex : List InputValue :=
  [.array ["1", "2", "3"], .field "3"]

/-- The machine after an array and an index that fits were bound. -/
def fittingMachine : Machine .bn254Scalar :=
  after arrayAndSmallIndex (bindInput ⟨1⟩ 1) (after arrayAndSmallIndex (bindInput ⟨0⟩ 0)
    freshMachine)

theorem fittingMachine_reachable : fittingMachine.Reachable .standard := by
  have created : Machine.create .bn254Scalar .standard = .ok freshMachine := rfl
  exact ((Machine.Reachable.create created).handle arrayAndSmallIndex (bindInput ⟨0⟩ 0)).handle
    arrayAndSmallIndex (bindInput ⟨1⟩ 1)

/-- Cosets that are written over an array replace its elements and nothing else. -/
theorem writeCosets_effect :
    ((writeCosets.handle arrayAndSmallIndex).run fittingMachine).1 = .ok ()
      ∧ (fittingMachine.memory.stored[1]?).map Cell.value = some 1
      ∧ ((after arrayAndSmallIndex writeCosets fittingMachine).memory.stored[1]?).map Cell.value =
        some (-125)
      ∧ writeCosets.WritesCosetAt fittingMachine 1
      ∧ (after arrayAndSmallIndex writeCosets fittingMachine).memory.size = 4
      ∧ (after arrayAndSmallIndex writeCosets fittingMachine).frame = fittingMachine.frame := by
  have succeeds : ((writeCosets.handle arrayAndSmallIndex).run fittingMachine).1 = .ok () := by
    decide +kernel
  have before : (fittingMachine.memory.stored[1]?).map Cell.value = some 1 := by
    decide +kernel
  have afterwards :
      ((after arrayAndSmallIndex writeCosets fittingMachine).memory.stored[1]?).map Cell.value =
        some (-125) := by
    decide +kernel
  have size : fittingMachine.memory.size = 4 := by
    decide +kernel
  have ended : (writeCosets.handle arrayAndSmallIndex).run fittingMachine =
      (.ok (), after arrayAndSmallIndex writeCosets fittingMachine) := by
    rw [after, ← succeeds, Prod.mk.eta]
  have effect := Instruction.effect_of_reachable fittingMachine_reachable ended
  refine ⟨succeeds, before, afterwards, ?_, ?_, effect.unbound rfl rfl⟩
  · have other : some (1 : Element .bn254Scalar) ≠ some (-125) := by decide +kernel
    refine (effect.stored 1 (by omega) fun unchanged => other ?_).2
    rw [← before, ← afterwards, unchanged]
  · rw [effect.size rfl, size]
    rfl

/-- A lookup argument of one table and one constraint, whose cells are missing. -/
def shapeOnly : Instruction :=
  ⟨⟨2⟩, .lookupArgument, [.constant (.array [1]), .constant (.integer 1), .constant (.array [1]),
    .constant (.integer 1), .constant (.array [1]), .constant (.integer 1), .constant (.array [1]),
    .constant (.integer 1)]⟩

/-- The shape of a lookup argument is read before its cells are, and these are reported. -/
theorem shapeOnly_answers :
    ∃ failure,
      ((shapeOnly.handle arrayAndSmallIndex).run fittingMachine).1 = .error (.report failure) := by
  have shaped : shapeOnly.lookupShape = .ok ⟨⟨[1], [1], [1], [1]⟩, 1, 1, 1⟩ := rfl
  have answers := (Instruction.answers_of_reachable fittingMachine_reachable arrayAndSmallIndex
    (fun shape _ read => by
      rw [shaped] at read
      cases read
      decide : ∀ shape, shapeOnly.opcode = .lookupArgument →
        shapeOnly.lookupShape = .ok shape → shape.sizes.widest ≤ Gadget.largestReserve)).1
  rcases answers with succeeds | reports
  · have fails : ((shapeOnly.handle arrayAndSmallIndex).run fittingMachine).1 ≠ .ok () := by
      decide +kernel
    exact absurd succeeds fails
  · exact reports

end Program

end Plonkish
