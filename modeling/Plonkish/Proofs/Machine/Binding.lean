import Plonkish.Proofs.Machine.Outcome

namespace Plonkish

/-!
# What instructions bind

An instruction that succeeds binds its own name and leaves every other name
alone. The cosets of an index are delivered in memory, so `fri_cosets` binds
nothing. An instruction that is refused changes nothing at all, but for `param`,
which exposes inputs before it asks for memory.
-/

namespace Instruction

/-- The input that the first operand names. -/
def input? (inputs : List InputValue) (instruction : Instruction) : Option InputValue :=
  match instruction.constantSize 0 with
  | .ok index => inputs[index]?
  | .error _ => none

/-- What the name of an instruction is bound to; only `fri_cosets` binds nothing. -/
def slotKind? (inputs : List InputValue) (instruction : Instruction) : Option SlotKind :=
  match instruction.opcode with
  | .param => (instruction.input? inputs).map InputValue.slotKind
  | .alloca | .load | .select | .gateArgument => some .scalar
  | .curveAdd | .lookupArgument => some .vector
  | .friCosets => none

variable {field : PrimeField} {inputs : List InputValue} {instruction : Instruction}
variable {machine after : Machine field} {outcome : Except (Stop Failure) Unit}

theorem input?_of_inputElements
    {input : InputValue}
    {elements : List (Element field)}
    (read : instruction.inputElements field inputs = .ok (input, elements)) :
    instruction.input? inputs = some input ∧ elements.length = input.elements.length := by
  obtain ⟨index, counted, named, sameLength⟩ := length_of_inputElements read
  refine ⟨?_, sameLength⟩
  rw [input?, counted]
  exact named

/-- What an instruction that succeeds did to the frame: it binds its name, or it has no result. -/
theorem frame_of_ends
    (ends : Ends inputs instruction machine (.ok (), after)) :
    match instruction.slotKind? inputs with
    | some kind => ∃ slot, slot.kind = kind
        ∧ after.frame = machine.frame.bind instruction.id slot
    | none => instruction.opcode = .friCosets ∧ after.frame = machine.frame := by
  unfold slotKind?
  cases ends with
  | boundInput opcode read notArray kind cells =>
      obtain ⟨named, -⟩ := input?_of_inputElements read
      rw [opcode]
      dsimp only
      rw [named]
      exact ⟨_, kind, rfl⟩
  | boundArray opcode read allocates stores =>
      obtain ⟨named, -⟩ := input?_of_inputElements read
      rw [opcode]
      dsimp only
      rw [named]
      exact ⟨.scalar _, rfl, rfl⟩
  | wroteCosets opcode =>
      rw [opcode]
      exact ⟨rfl, rfl⟩
  | allocated opcode | loaded opcode | selected opcode | added opcode | evaluatedGates opcode
  | evaluatedLookups opcode =>
      rw [opcode]
      exact ⟨_, rfl, rfl⟩

/-- An instruction that fails binds nothing and leaves memory alone. -/
theorem unbound_of_ends
    (ends : Ends inputs instruction machine (outcome, after))
    (fails : outcome ≠ .ok ()) :
    after.frame = machine.frame ∧ after.memory = machine.memory := by
  cases ends with
  | refused | exhausted | unreserved => exact ⟨rfl, rfl⟩
  | _ => exact (fails rfl).elim

/-- An instruction leaves every other name alone. -/
theorem get?_of_ends
    (ends : Ends inputs instruction machine (outcome, after))
    {id : ValueId}
    (other : id ≠ instruction.id) :
    after.frame.get? id = machine.frame.get? id := by
  by_cases succeeds : outcome = .ok ()
  · subst succeeds
    have frame := frame_of_ends ends
    split at frame
    · obtain ⟨slot, -, bound⟩ := frame
      rw [bound, Frame.get?_bind, if_neg other.symm]
    · rw [frame.2]
  · rw [(unbound_of_ends ends succeeds).1]

/-- After an instruction, the names are bound that were before, and its own if it binds one. -/
theorem isSome_get?_of_ends
    (ends : Ends inputs instruction machine (.ok (), after))
    (id : ValueId) :
    (after.frame.get? id).isSome ↔
      (machine.frame.get? id).isSome
        ∨ (instruction.id = id ∧ instruction.opcode ≠ .friCosets) := by
  have frame := frame_of_ends ends
  split at frame
  next bindsSlot =>
    obtain ⟨slot, -, bound⟩ := frame
    have notCosets : instruction.opcode ≠ .friCosets := by
      intro cosets
      rw [slotKind?, cosets] at bindsSlot
      cases bindsSlot
    rw [bound, Frame.get?_bind]
    by_cases same : instruction.id = id
    · simp [same, notCosets]
    · simp [same]
  next =>
    obtain ⟨cosets, sameFrame⟩ := frame
    simp [sameFrame, cosets]

section Refusal

variable (instruction) (machine)

/-- An instruction that is refused changes nothing, unless it binds an input. -/
theorem handle_refusesAs
    (inputs : List InputValue)
    (notParam : instruction.opcode ≠ .param)
    (failure : Failure)
    (after : Machine field)
    (refused : (instruction.handle inputs).run machine = (.error (.report failure), after)) :
    after = machine ∧ instruction.Justifies machine failure := by
  have ends : Ends inputs instruction machine ((instruction.handle inputs).run machine) :=
    instruction.handle_ends inputs fun isParam => (notParam isParam).elim
  rw [refused] at ends
  cases ends with
  | refused explained => exact ⟨rfl, explained.missing⟩
  | exhausted isParam => exact (notParam isParam).elim

variable {instruction machine}

/-- What an input is refused for is justified, although elements may have been exposed before. -/
theorem justifies_of_handleParam
    {failure : Failure}
    (refused : (instruction.handleParam inputs).run machine = (.error (.report failure), after)) :
    instruction.Justifies machine failure := by
  cases read : instruction.inputElements field inputs with
  | error unread =>
      rw [handleParam, Translation.run_ofExcept_bind, read] at refused
      cases refused
      exact (instruction.inputElements_justly machine inputs failure read).missing
  | ok found =>
      obtain ⟨input, elements⟩ := found
      by_cases isArray : ∃ texts, input = .array texts
      case pos =>
        obtain ⟨texts, rfl⟩ := isArray
        rw [run_handleParam_of_array read] at refused
        cases allocates : machine.memory.allocate elements.length field.elementBytes with
        | error unallocated =>
            rw [allocates] at refused
            cases refused
            exact (instruction.allocate_justly machine _ _ _ failure allocates).missing
        | ok placed =>
            obtain ⟨pointer, memory⟩ := placed
            rw [allocates] at refused
            dsimp only at refused
            rw [Translation.run_storeAll_bind] at refused
            cases stores : memory.storeAll pointer
                (Synthesis.witnesses elements machine.transcript).1 with
            | error unwritten =>
                rw [stores] at refused
                cases refused
                exact (instruction.storeAll_justly machine _ _ _ failure stores).missing
            | ok later =>
                rw [stores] at refused
                cases refused
      -- What is no array is bound as soon as it is exposed.
      obtain ⟨cells, exposed⟩ : ∃ cells, (exposeElements elements).run machine =
          (.ok cells, exposedMachine elements machine) := ⟨_, rfl⟩
      rw [handleParam, Translation.run_ofExcept_bind, read] at refused
      dsimp only at refused
      rw [run_bind, exposed] at refused
      dsimp only at refused
      cases input with
      | field text =>
          cases cells with
          | nil => cases refused
          | cons cell rest => cases refused
      | vector texts => cases refused
      | curve x y => cases refused
      | array texts => exact (isArray ⟨texts, rfl⟩).elim

/-- A name is reported as missing only if the instruction refers to it and it is not bound. -/
theorem justifies_of_handle
    {failure : Failure}
    (refused : (instruction.handle inputs).run machine = (.error (.report failure), after)) :
    instruction.Justifies machine failure := by
  by_cases isParam : instruction.opcode = .param
  · unfold handle at refused
    rw [isParam] at refused
    exact justifies_of_handleParam refused
  · exact (instruction.handle_refusesAs machine inputs isParam failure after refused).2

end Refusal

end Instruction

end Plonkish
