import Plonkish.Proofs.Machine.HandlerAgreement
import Plonkish.Proofs.Program.Soundness

namespace Plonkish

/-!
# Circuits of agreeing runs

One list of instructions is translated for two lists of inputs of the same
shapes. Its circuit hardly depends on the values of the inputs. All of it is the
same in both runs but the cells that are tied, and these are the same too if the
runs follow the same addresses.

An address is the value of a cell, and any cell will do. So a program that takes
an address from an input has one circuit for each cell that the input leads to.
-/

variable {field : PrimeField} {aligned : Prop}

/-- Transcripts of the same shape have the same gates. -/
theorem Transcript.Agrees.gates_eq
    {left right : Transcript field}
    (agrees : left.Agrees aligned right) :
    left.gates = right.gates := by
  have offsets (transcript : Transcript field) : transcript.gates =
      (transcript.rows.toList.map Row.gate).zipIdx.filterMap
        (fun (gate, offset) => if gate then some offset else none) := by
    rw [List.zipIdx_map, List.filterMap_map]
    rfl
  rw [offsets, offsets, agrees.gates]

/-- A policy gives transcripts of the same shape the same columns. -/
theorem Transcript.Agrees.layout_eq
    {left right : Transcript field}
    (agrees : left.Agrees aligned right)
    (policy : Policy) :
    policy.layout left = policy.layout right := by
  unfold Policy.layout Transcript.distinctConstants
  rw [agrees.size_eq, agrees.constants]

/-- Descriptions of transcripts of the same shape differ at most in their copies. -/
theorem Description.ofTranscript_agrees
    {left right : Transcript field}
    (agrees : left.Agrees aligned right)
    {exposed others : List (Cell field)}
    (offsets : exposed.map Cell.offset = others.map Cell.offset)
    (layout : Layout) :
    ofTranscript layout exposed left =
        { ofTranscript layout others right with
          copies := (ofTranscript layout exposed left).copies }
      ∧ (ofTranscript layout exposed left).copies.length =
        (ofTranscript layout others right).copies.length
      ∧ (aligned → ofTranscript layout exposed left = ofTranscript layout others right) := by
  have same : ofTranscript layout exposed left =
      { ofTranscript layout others right with
        copies := (ofTranscript layout exposed left).copies } := by
    unfold ofTranscript
    rw [agrees.size_eq, agrees.gates_eq, agrees.constants, offsets]
  refine ⟨same, ?_, fun isAligned => ?_⟩
  · unfold ofTranscript
    simp only [List.length_mergeSort, List.length_map, Array.length_toList]
    exact agrees.copyCount
  · unfold ofTranscript
    rw [agrees.size_eq, agrees.gates_eq, agrees.constants, offsets, agrees.copies isAligned]

namespace Machine

/-- The cells of two machines differ in nothing but their values. -/
abbrev SameStructure (left right : Machine field) : Prop :=
  left.Agrees True right

theorem Agrees.refl (machine : Machine field) : machine.Agrees aligned machine := by
  have cells (list : List (Cell field)) : Cell.AllAgree aligned list list :=
    List.forall₂_same.mpr fun _ _ _ => rfl
  refine ⟨fun number => ?_, ⟨rfl, fun _ => rfl, fun _ pointer => ?_⟩, ⟨rfl, rfl, rfl, fun _ => rfl⟩,
    rfl⟩
  · cases machine.frame.slots[number]? with
    | none => exact .none
    | some slot =>
        cases slot with
        | scalar cell => exact .some fun _ => rfl
        | vector list => exact .some (cells list)
  · cases machine.memory.stored[pointer]? with
    | none => exact .none
    | some cell => exact .some fun _ => rfl

theorem Agrees.exposed_offsets
    {left right : Machine field}
    (agrees : left.Agrees aligned right) :
    left.exposed.map Cell.offset = right.exposed.map Cell.offset := by
  have firsts (machine : Machine field) : machine.exposed.map Cell.offset =
      (machine.instances.toList.map fun column => column.toList.map Cell.offset)[0]?.getD [] := by
    rw [exposed, Array.getD_eq_getD_getElem?, List.getElem?_map, Array.getElem?_toList]
    cases machine.instances[0]? <;> rfl
  rw [firsts, firsts, agrees.instances]

end Machine

namespace Instruction

variable {instruction : Instruction} {inputs others : List InputValue}
  {left right leftAfter rightAfter : Machine field}

theorem agrees_of_handle
    (before : instruction.AgreesBefore aligned left right)
    (sameInputs : instruction.opcode = .param → instruction.InputsAgree inputs others)
    (handled : (instruction.handle inputs).run left = (.ok (), leftAfter))
    (otherHandled : (instruction.handle others).run right = (.ok (), rightAfter)) :
    leftAfter.Agrees aligned rightAfter :=
  (instruction.handle_alike sameInputs left right before _ _ _ _ handled otherHandled).2

end Instruction

namespace Program

/-- Wherever an instruction follows addresses, they are the same in two runs. -/
def AddressesAgree (inputs others : List InputValue) :
    List Instruction → Machine field → Machine field → Prop
  | [], _, _ => True
  | instruction :: rest, left, right =>
      instruction.AddressesAgree left right
        ∧ AddressesAgree inputs others rest ((instruction.handle inputs).run left).2
          ((instruction.handle others).run right).2

variable {inputs others : List InputValue}

theorem inputsAgree_of_sameShapes
    (sameShapes : List.Forall₂ InputValue.SameShape inputs others)
    (instruction : Instruction) :
    instruction.InputsAgree inputs others := by
  intro index input other _ found otherFound
  obtain ⟨inside, rfl⟩ := List.getElem?_eq_some_iff.mp found
  obtain ⟨otherInside, rfl⟩ := List.getElem?_eq_some_iff.mp otherFound
  exact sameShapes.get inside otherInside

/-- Machines that agree before instructions agree after them. -/
theorem agrees_of_handleAll
    (sameShapes : List.Forall₂ InputValue.SameShape inputs others)
    (instructions : List Instruction)
    {left right leftAfter rightAfter : Machine field}
    (agrees : left.Agrees aligned right)
    (addresses : aligned → AddressesAgree inputs others instructions left right)
    (handled : (handleAll inputs instructions).run left = (.ok (), leftAfter))
    (otherHandled : (handleAll others instructions).run right = (.ok (), rightAfter)) :
    leftAfter.Agrees aligned rightAfter := by
  induction instructions generalizing left right with
  | nil =>
      cases handled
      cases otherHandled
      exact agrees
  | cons instruction rest inductionHypothesis =>
      unfold handleAll at handled otherHandled
      rw [run_bind] at handled otherHandled
      rcases ended : (instruction.handle inputs).run left with ⟨stop | ⟨⟩, leftBetween⟩
      · rw [ended] at handled
        cases handled
      rcases otherEnded : (instruction.handle others).run right with ⟨stop | ⟨⟩, rightBetween⟩
      · rw [otherEnded] at otherHandled
        cases otherHandled
      rw [ended] at handled
      rw [otherEnded] at otherHandled
      have sameInputs := inputsAgree_of_sameShapes sameShapes instruction
      have between : leftBetween.Agrees aligned rightBetween :=
        Instruction.agrees_of_handle ⟨agrees, fun isAligned => (addresses isAligned).1⟩
          (fun _ => sameInputs) ended otherEnded
      apply inductionHypothesis between _ handled otherHandled
      intro isAligned
      have later := (addresses isAligned).2
      rwa [ended, otherEnded] at later

/-! ## A program that follows an address -/

/-- Bind an input. -/
def bindInput (id : ValueId) (index : UInt64) : Instruction :=
  ⟨id, .param, [.constant (.integer index)]⟩

/-- Load the cell that a value points to. -/
def loadAt (pointer : ValueId) : Instruction :=
  ⟨⟨2⟩, .load, [.value pointer .pointer, .constant (.integer 0)]⟩

/-- Instructions that select by a cell of memory, to which one of two inputs points. -/
def follow (pointer : ValueId) : List Instruction := [
  bindInput ⟨0⟩ 0, bindInput ⟨1⟩ 1, loadAt pointer,
  ⟨⟨3⟩, .select, [.value ⟨2⟩ (.field .bn254Scalar), .value ⟨1⟩ (.field .bn254Scalar),
    .value ⟨1⟩ (.field .bn254Scalar)]⟩]

/-- An array of two elements, and an element that can be read as the address of either. -/
def arrayAndAddress (element address : String) : List InputValue :=
  [.array [element, "8"], .field address]

theorem sameShapes_arrayAndAddress (element otherElement address otherAddress : String) :
    List.Forall₂ InputValue.SameShape (arrayAndAddress element address)
      (arrayAndAddress otherElement otherAddress) :=
  .cons rfl (.cons trivial .nil)

/-- The state after an instruction. -/
def after
    (inputs : List InputValue)
    (instruction : Instruction)
    (machine : Machine field) :
    Machine field :=
  ((instruction.handle inputs).run machine).2

/-- The state after both inputs are bound. -/
def boundMachine (element address : String) : Machine .bn254Scalar :=
  after (arrayAndAddress element address) (bindInput ⟨1⟩ 1)
    (after (arrayAndAddress element address) (bindInput ⟨0⟩ 0) freshMachine)

theorem boundMachine_sameStructure :
    (boundMachine "7" "1").SameStructure (boundMachine "5" "2") := by
  have noAddresses (id : ValueId) (index : UInt64) (left right : Machine .bn254Scalar) :
      (bindInput id index).AddressesAgree left right := by
    intro position member
    cases member
  have sameInputs (id : ValueId) (index : UInt64) (_ : (bindInput id index).opcode = .param) :
      (bindInput id index).InputsAgree (arrayAndAddress "7" "1") (arrayAndAddress "5" "2") :=
    inputsAgree_of_sameShapes (sameShapes_arrayAndAddress _ _ _ _) _
  have first : (after (arrayAndAddress "7" "1") (bindInput ⟨0⟩ 0) freshMachine).SameStructure
      (after (arrayAndAddress "5" "2") (bindInput ⟨0⟩ 0) freshMachine) := by
    apply Instruction.agrees_of_handle ⟨.refl freshMachine, fun _ => noAddresses _ _ _ _⟩
      (sameInputs ⟨0⟩ 0)
    · exact Prod.ext (by decide +kernel) rfl
    · exact Prod.ext (by decide +kernel) rfl
  apply Instruction.agrees_of_handle ⟨first, fun _ => noAddresses _ _ _ _⟩ (sameInputs ⟨1⟩ 1)
  · exact Prod.ext (by decide +kernel) rfl
  · exact Prod.ext (by decide +kernel) rfl

/-- The address of the array is the same in both runs, whatever is in the array. -/
theorem boundMachine_addressesAgree :
    (loadAt ⟨0⟩).AddressesAgree (boundMachine "7" "1") (boundMachine "5" "2") := by
  intro index member
  obtain rfl : index = 0 := List.mem_singleton.mp member
  have address : (loadAt ⟨0⟩).scalar 0 (boundMachine "7" "1") = .ok ⟨2, 1⟩ := by
    decide +kernel
  have otherAddress : (loadAt ⟨0⟩).scalar 0 (boundMachine "5" "2") = .ok ⟨2, 1⟩ := by
    decide +kernel
  unfold Instruction.AddressAgrees
  rw [address, otherAddress]
  rfl

end Program

/-! ## One instruction -/

namespace Instruction

/--
One instruction keeps two machines structurally the same.

It is translated on both, for inputs of which the one it refers to has the same
shape, and every operand that it follows as an address holds the same value. All
other values may be different.
-/
theorem sameStructure_of_handle
    {instruction : Instruction}
    {inputs others : List InputValue}
    {left right leftAfter rightAfter : Machine field}
    (same : left.SameStructure right)
    (addresses : instruction.AddressesAgree left right)
    (sameInputs : instruction.opcode = .param → instruction.InputsAgree inputs others)
    (handled : (instruction.handle inputs).run left = (.ok (), leftAfter))
    (otherHandled : (instruction.handle others).run right = (.ok (), rightAfter)) :
    leftAfter.SameStructure rightAfter :=
  agrees_of_handle ⟨same, fun _ => addresses⟩ sameInputs handled otherHandled

end Instruction

namespace Program

/-- Loading the first element of an array binds the same cell, whatever it holds. -/
theorem load_sameStructure :
    ∃ left right : Machine .bn254Scalar,
      ((loadAt ⟨0⟩).handle []).run (boundMachine "7" "1") = (.ok (), left)
        ∧ ((loadAt ⟨0⟩).handle []).run (boundMachine "5" "2") = (.ok (), right)
        ∧ left.frame.get? ⟨2⟩ = some (.scalar ⟨0, 7⟩)
        ∧ right.frame.get? ⟨2⟩ = some (.scalar ⟨0, 5⟩)
        ∧ left.SameStructure right := by
  have handled : ((loadAt ⟨0⟩).handle []).run (boundMachine "7" "1") =
      (.ok (), after [] (loadAt ⟨0⟩) (boundMachine "7" "1")) :=
    Prod.ext (by decide +kernel) rfl
  have otherHandled : ((loadAt ⟨0⟩).handle []).run (boundMachine "5" "2") =
      (.ok (), after [] (loadAt ⟨0⟩) (boundMachine "5" "2")) :=
    Prod.ext (by decide +kernel) rfl
  have notParam : (loadAt ⟨0⟩).opcode = .param → (loadAt ⟨0⟩).InputsAgree [] [] :=
    fun isParam => nomatch isParam
  exact ⟨_, _, handled, otherHandled, by decide +kernel, by decide +kernel,
    Instruction.sameStructure_of_handle boundMachine_sameStructure boundMachine_addressesAgree
      notParam handled otherHandled⟩

/-! ## Whole programs -/

theorem policy_of_create
    {policy : Policy}
    {start : Machine field}
    (created : Machine.create field policy = .ok start) :
    start.policy = policy := by
  obtain ⟨-, rfl⟩ := Machine.eq_of_create created
  rfl

theorem policy_of_handleAll
    {policy : Policy}
    {inputs : List InputValue}
    {instructions : List Instruction}
    {start handled : Machine field}
    (created : Machine.create field policy = .ok start)
    (ended : (handleAll inputs instructions).run start = (.ok (), handled)) :
    handled.policy = policy := by
  have sound : Translation.Sound (∅ : Set (Cell field)) (handleAll inputs instructions)
      (fun _ => ∅) :=
    handleAll_sound inputs instructions
  have extended := sound.extended start
  rw [ended] at extended
  exact extended.policy.trans (policy_of_create created)

/-- An assigned program was handled by a new machine, and its circuit was exported. -/
theorem exists_handled_of_assign
    {config : Config}
    {program : Program}
    {result : Export field}
    (assigned : program.assign field config = .ok result) :
    ∃ start handled columns, Machine.create field config.policy = .ok start
      ∧ (handleAll program.inputs program.instructions).run start = (.ok (), handled)
      ∧ config.policy.layout handled.transcript = .ok columns
      ∧ result = .ofTranscript columns handled.exposed handled.transcript := by
  unfold assign at assigned
  cases created : Machine.create field config.policy with
  | error failure =>
      rw [created] at assigned
      cases assigned
  | ok start =>
      rw [created] at assigned
      dsimp only at assigned
      cases validated : program.validate with
      | error defect =>
          rw [validated] at assigned
          cases assigned
      | ok _ =>
          rw [validated] at assigned
          dsimp only at assigned
          rcases ran : (program.translate config.checked).run start with ⟨ended, final⟩
          rw [ran] at assigned
          obtain rfl : ended = .ok result := assigned
          obtain ⟨handled, handledAll, finished⟩ := run_translate ran
          have sound : handled.Sound := by
            have reachedSound := sound_of_handleAll created program.inputs program.instructions
            rwa [handledAll] at reachedSound
          obtain ⟨columns, fits, exported, -⟩ := Translation.export_of_finish sound finished
          rw [policy_of_handleAll created handledAll] at fits
          exact ⟨start, handled, columns, rfl, handledAll, fits, exported.symm⟩

theorem exists_of_isOk {outcome : Except ε α} (succeeds : outcome.isOk = true) :
    ∃ result, outcome = .ok result := by
  cases outcome with
  | error failure => cases succeeds
  | ok result => exact ⟨result, rfl⟩

/-- The copies of an exported circuit are those that the instructions recorded. -/
theorem mem_copies_of_assign
    {inputs : List InputValue}
    {instructions : List Instruction}
    {result : Export .bn254Scalar}
    (assigned : assign .bn254Scalar .standard ⟨inputs, instructions⟩ = .ok result)
    {pair : Nat × Nat} :
    pair ∈ result.circuit.copies ↔
      ∃ copy ∈ ((handleAll inputs instructions).run freshMachine).2.transcript.copies.toList,
        (min copy.1 copy.2, max copy.1 copy.2) = pair := by
  obtain ⟨start, handled, columns, created, handledAll, -, rfl⟩ :=
    exists_handled_of_assign assigned
  obtain rfl : freshMachine = start := Except.ok.inj created
  dsimp only at handledAll
  rw [handledAll]
  exact Description.mem_copies_ofTranscript

/--
The circuit of a program hardly depends on the values of its inputs.

Two assignments of the same instructions to inputs of the same shapes give
circuits that differ at most in which cells are tied: they are equal exactly if
these are. They are, and so are the fingerprints, if the runs follow the same
addresses.
-/
theorem circuit_of_assign
    {config : Config}
    {instructions : List Instruction}
    {inputs others : List InputValue}
    {result other : Export field}
    (sameShapes : List.Forall₂ InputValue.SameShape inputs others)
    (assigned : assign field config ⟨inputs, instructions⟩ = .ok result)
    (otherAssigned : assign field config ⟨others, instructions⟩ = .ok other) :
    result.circuit = { other.circuit with copies := result.circuit.copies }
      ∧ result.circuit.copies.length = other.circuit.copies.length
      ∧ (result.circuit = other.circuit ↔ result.circuit.copies = other.circuit.copies)
      ∧ ∀ start : Machine field, Machine.create field config.policy = .ok start →
        AddressesAgree inputs others instructions start start →
          result.circuit = other.circuit ∧ result.fingerprint = other.fingerprint := by
  obtain ⟨start, handled, columns, created, handledAll, fits, rfl⟩ :=
    exists_handled_of_assign assigned
  obtain ⟨_, otherHandled, otherColumns, otherCreated, otherHandledAll, otherFits, rfl⟩ :=
    exists_handled_of_assign otherAssigned
  obtain rfl := Except.ok.inj (created.symm.trans otherCreated)
  have agree (aligned : Prop)
      (addresses : aligned → AddressesAgree inputs others instructions start start) :
      handled.Agrees aligned otherHandled :=
    agrees_of_handleAll sameShapes instructions (.refl start) addresses handledAll otherHandledAll
  -- Without any condition on addresses, the runs still agree as runs that are not aligned.
  have unaligned := agree False False.elim
  obtain rfl : columns = otherColumns := by
    rw [unaligned.transcript.layout_eq, otherFits] at fits
    exact (Except.ok.inj fits).symm
  obtain ⟨same, lengths, -⟩ :=
    Description.ofTranscript_agrees unaligned.transcript unaligned.exposed_offsets columns
  refine ⟨same, lengths, ⟨congrArg Description.copies, fun sameCopies => ?_⟩,
    fun first firstCreated addresses => ?_⟩
  · change Description.ofTranscript _ _ _ = _
    rw [same]
    exact congrArg (fun copies => { Description.ofTranscript columns otherHandled.exposed
      otherHandled.transcript with copies }) sameCopies
  obtain rfl := Except.ok.inj (created.symm.trans firstCreated)
  have alignedRuns := agree True fun _ => addresses
  obtain ⟨-, -, equal⟩ :=
    Description.ofTranscript_agrees alignedRuns.transcript alignedRuns.exposed_offsets columns
  have circuits := equal trivial
  exact ⟨circuits, congrArg Description.fingerprint circuits⟩

/-- What an array holds, and a second input that is not followed, leave no trace in the circuit. -/
theorem follow_circuit_eq :
    ∃ result other : Export .bn254Scalar,
      assign .bn254Scalar .standard ⟨arrayAndAddress "7" "1", follow ⟨0⟩⟩ = .ok result
        ∧ assign .bn254Scalar .standard ⟨arrayAndAddress "5" "2", follow ⟨0⟩⟩ = .ok other
        ∧ result.circuit = other.circuit ∧ result.fingerprint = other.fingerprint := by
  have succeeds : (assign .bn254Scalar .standard
      ⟨arrayAndAddress "7" "1", follow ⟨0⟩⟩).isOk = true := by
    decide +kernel
  have otherSucceeds : (assign .bn254Scalar .standard
      ⟨arrayAndAddress "5" "2", follow ⟨0⟩⟩).isOk = true := by
    decide +kernel
  obtain ⟨result, assigned⟩ := exists_of_isOk succeeds
  obtain ⟨other, otherAssigned⟩ := exists_of_isOk otherSucceeds
  have noAddresses (instruction : Instruction) (left right : Machine .bn254Scalar)
      (none : instruction.opcode.addressPositions = []) :
      instruction.AddressesAgree left right := by
    intro position member
    rw [none] at member
    cases member
  have addresses : AddressesAgree (arrayAndAddress "7" "1") (arrayAndAddress "5" "2")
      (follow ⟨0⟩) freshMachine freshMachine :=
    ⟨noAddresses _ _ _ rfl, noAddresses _ _ _ rfl, boundMachine_addressesAgree,
      noAddresses _ _ _ rfl, trivial⟩
  obtain ⟨-, -, -, equal⟩ :=
    circuit_of_assign (sameShapes_arrayAndAddress _ _ _ _) assigned otherAssigned
  exact ⟨result, other, assigned, otherAssigned, equal freshMachine rfl addresses⟩

/--
A circuit can depend on the value of an input.

Whether an input holds the address of the first or of the second element of an
array decides which of them the circuit copies.
-/
theorem circuit_depends_on_address :
    ¬∀ (field : PrimeField) (config : Config) (instructions : List Instruction)
        (inputs others : List InputValue) (result other : Export field),
      List.Forall₂ InputValue.SameShape inputs others →
        assign field config ⟨inputs, instructions⟩ = .ok result →
          assign field config ⟨others, instructions⟩ = .ok other →
            result.circuit = other.circuit := by
  intro independent
  have succeeds : (assign .bn254Scalar .standard
      ⟨arrayAndAddress "7" "1", follow ⟨1⟩⟩).isOk = true := by
    decide +kernel
  have otherSucceeds : (assign .bn254Scalar .standard
      ⟨arrayAndAddress "7" "2", follow ⟨1⟩⟩).isOk = true := by
    decide +kernel
  obtain ⟨result, assigned⟩ := exists_of_isOk succeeds
  obtain ⟨other, otherAssigned⟩ := exists_of_isOk otherSucceeds
  have equal : result.circuit = other.circuit :=
    independent _ _ _ _ _ _ _ (sameShapes_arrayAndAddress "7" "7" "1" "2") assigned otherAssigned
  have recorded : ((handleAll (arrayAndAddress "7" "1") (follow ⟨1⟩)).run
      freshMachine).2.transcript.copies[0]? = some (5, 0) := by
    decide +kernel
  have otherRecorded : ((handleAll (arrayAndAddress "7" "2") (follow ⟨1⟩)).run
      freshMachine).2.transcript.copies.all
        (fun copy => decide (0 < min copy.1 copy.2)) = true := by
    decide +kernel
  have copied : (0, 5) ∈ result.circuit.copies := by
    apply (mem_copies_of_assign assigned).mpr
    exact ⟨(5, 0), Array.mem_toList_iff.mpr (Array.mem_of_getElem? recorded), rfl⟩
  rw [equal] at copied
  obtain ⟨copy, isCopy, same⟩ := (mem_copies_of_assign otherAssigned).mp copied
  have positive := Array.all_eq_true_iff_forall_mem.mp otherRecorded copy
    (Array.mem_toList_iff.mp isCopy)
  have first : min copy.1 copy.2 = 0 := congrArg Prod.fst same
  rw [first] at positive
  cases positive

end Program

end Plonkish
