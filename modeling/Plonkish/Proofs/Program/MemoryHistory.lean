import Plonkish.Proofs.Machine.MemoryHistory
import Plonkish.Proofs.Program.Definition

namespace Plonkish

/-!
# Memory over whole runs

Along a run that succeeds, memory is handed out from address one on without a gap
and never taken back. An address that is bound to a name is read back as long as
the name is not bound again, and a load gives what was written to its address
last: an element of the array that was allocated there, or the latest cosets that
cover it.
-/

namespace Instruction

/-- An instruction allocates memory and binds its address: `alloca`, and `param` for an array. -/
def Allocates (inputs : List InputValue) (instruction : Instruction) : Prop :=
  instruction.opcode = .alloca
    ∨ instruction.opcode = .param ∧ ∃ texts, instruction.input? inputs = some (.array texts)

variable {field : PrimeField} {inputs : List InputValue} {instruction : Instruction}
variable {machine after : Machine field}

/-- An address that is bound to a name is what an operand with that name is read as. -/
theorem pointer_of_address?
    {index : Nat}
    {id : ValueId}
    {type : ValueType}
    {pointer : Nat}
    (given : instruction.operands[index]? = some (.value id type))
    (bound : machine.address? id = some pointer) :
    instruction.pointer index machine = .ok pointer := by
  have named : instruction.valueId index = .ok id := by
    rw [valueId, operand, given]
    rfl
  unfold Machine.address? at bound
  split at bound
  next cell isBound =>
    obtain ⟨word, isWord, rfl⟩ := Option.map_eq_some_iff.mp bound
    have read : instruction.scalar index machine = .ok cell := by
      rw [scalar, named]
      change machine.frame.scalar id = _
      rw [Frame.scalar, Frame.lookup, isBound]
      rfl
    rw [pointer, read]
    change instruction.addressOf index cell = _
    rw [addressOf, isWord]
  next => cases bound

/-- An instruction that allocates binds the address behind all cells, and allocates from there. -/
theorem allocation_of_ends
    (columns : 0 < machine.instances.size)
    (allocates : instruction.Allocates inputs)
    (ends : Ends inputs instruction machine (.ok (), after)) :
    after.address? instruction.id = some machine.memory.size
      ∧ MemoryEvent.allocations (instruction.memoryEvents inputs machine after) =
        [(machine.memory.size, instruction.allocation inputs)] := by
  have follows := follows_of_ends columns ends
  have grown := (memoryEffect_of_ends ends).size
  obtain ⟨pointer, count, bound, single⟩ : ∃ pointer count,
      after.address? instruction.id = some pointer
        ∧ MemoryEvent.allocations (instruction.memoryEvents inputs machine after) =
          [(pointer, count)] := by
    cases ends with
    | boundInput opcode read notArray =>
        rcases allocates with isAlloca | ⟨-, texts, named⟩
        · cases opcode.symm.trans isAlloca
        · rw [(input?_of_inputElements read).1] at named
          exact (notArray texts (Option.some.inj named)).elim
    | boundArray opcode read allocates stores =>
        obtain ⟨bound, event⟩ :=
          memoryEvents_of_boundArray columns opcode read allocates stores
        exact ⟨_, _, bound, congrArg MemoryEvent.allocations event⟩
    | allocated opcode counted allocates =>
        obtain ⟨bound, event⟩ := memoryEvents_of_allocated opcode counted allocates
        exact ⟨_, _, bound, congrArg MemoryEvent.allocations event⟩
    | loaded opcode | selected opcode | added opcode | wroteCosets opcode
    | evaluatedGates opcode | evaluatedLookups opcode =>
        rcases allocates with isAlloca | ⟨isParam, -⟩
        · cases opcode.symm.trans isAlloca
        · cases opcode.symm.trans isParam
  have consecutive := follows.consecutive
  rw [single] at consecutive
  obtain ⟨rfl, sameSize⟩ : pointer = machine.memory.size
    ∧ machine.memory.size + count = after.memory.size := consecutive
  obtain rfl : count = instruction.allocation inputs := by omega
  exact ⟨bound, single⟩

end Instruction

namespace Program

variable {field : PrimeField} {policy : Policy} {inputs : List InputValue}
variable {instructions : List Instruction} {start handled : Machine field}

/-- What instructions did to memory, in order. -/
def memoryHistory (inputs : List InputValue) :
    List Instruction → Machine field → List (MemoryEvent field)
  | [], _ => []
  | instruction :: rest, machine =>
      let after := ((instruction.handle inputs).run machine).2
      instruction.memoryEvents inputs machine after ++ memoryHistory inputs rest after

/-- Memory follows what a run does to it. -/
theorem follows_of_handleAll
    (reachable : start.Reachable policy)
    (ended : (handleAll inputs instructions).run start = (.ok (), handled)) :
    start.memory.Follows (memoryHistory inputs instructions start) handled.memory := by
  induction instructions generalizing start with
  | nil =>
      cases ended
      exact .refl _
  | cons instruction rest inductionHypothesis =>
      obtain ⟨_, between, first, later⟩ := ok_of_run_bind ended
      have ends := reachable.ends inputs instruction
      have next := reachable.handle inputs instruction
      rw [first] at ends next
      rw [memoryHistory, first]
      exact (Instruction.follows_of_ends reachable.sound.columns ends).trans
        (inductionHypothesis next later)

/-- A history is cut where its run is. -/
theorem memoryHistory_cut
    {earlier later : List Instruction}
    {instruction : Instruction}
    {before after : Machine field}
    (reached : (handleAll inputs earlier).run start = (.ok (), before))
    (handles : (instruction.handle inputs).run before = (.ok (), after)) :
    memoryHistory inputs (earlier ++ instruction :: later) start =
      memoryHistory inputs earlier start ++
        (instruction.memoryEvents inputs before after ++ memoryHistory inputs later after) := by
  induction earlier generalizing start with
  | nil =>
      cases reached
      simp only [List.nil_append, memoryHistory, handles]
  | cons head tail inductionHypothesis =>
      obtain ⟨_, between, first, rest⟩ := ok_of_run_bind reached
      rw [List.cons_append, memoryHistory, memoryHistory, first, inductionHypothesis rest,
        List.append_assoc]

/-- A name that is not bound again keeps what it is bound to. -/
theorem get?_of_handleAll
    (reachable : start.Reachable policy)
    (ended : (handleAll inputs instructions).run start = (.ok (), handled))
    {id : ValueId}
    (kept : ∀ instruction ∈ instructions, instruction.id = id → instruction.opcode = .friCosets) :
    handled.frame.get? id = start.frame.get? id := by
  induction instructions generalizing start with
  | nil =>
      cases ended
      rfl
  | cons instruction rest inductionHypothesis =>
      obtain ⟨_, between, first, later⟩ := ok_of_run_bind ended
      have ends := reachable.ends inputs instruction
      have next := reachable.handle inputs instruction
      rw [first] at ends next
      rw [inductionHypothesis next later fun other member =>
        kept other (List.mem_cons_of_mem _ member)]
      by_cases same : id = instruction.id
      · have frame := Instruction.frame_of_ends ends
        rw [Instruction.slotKind?, kept instruction List.mem_cons_self same.symm] at frame
        rw [frame.2]
      · exact Instruction.get?_of_ends ends same

/-- Memory after a run, by what the instructions of the run did to it. -/
structure MemoryLaws
    (inputs : List InputValue)
    (instructions : List Instruction)
    (start handled : Machine field)
    (history : List (MemoryEvent field)) :
    Prop where
  /-- The ranges that were handed out follow each other, from address one to the end of memory. -/
  consecutive : Consecutive 1 (MemoryEvent.allocations history) handled.memory.size
  disjoint : (MemoryEvent.allocations history).Pairwise fun earlier later =>
    earlier.1 + earlier.2 ≤ later.1
  covered : ∀ address, (0 < address ∧ address < handled.memory.size) ↔
    ∃ range ∈ MemoryEvent.allocations history,
      range.1 ≤ address ∧ address < range.1 + range.2
  /-- An allocation is bound by its address, and the address is read back until the name is bound
  again. -/
  pointers : ∀ earlier instruction later, instructions = earlier ++ instruction :: later →
    instruction.Allocates inputs →
      ∃ before after, (handleAll inputs earlier).run start = (.ok (), before)
        ∧ (instruction.handle inputs).run before = (.ok (), after)
        ∧ (before.memory.size, instruction.allocation inputs) ∈ MemoryEvent.allocations history
        ∧ ∀ (reader : Instruction) index type,
          reader.operands[index]? = some (.value instruction.id type) →
            reader.pointer index after = .ok before.memory.size
              ∧ ((∀ other ∈ later, other.id = instruction.id → other.opcode = .friCosets) →
                reader.pointer index handled = .ok before.memory.size)
  limit : handled.memory.size ≤ 2 ^ 24
  widths : ∀ address, 0 < address → address < handled.memory.size →
    handled.memory.cellBytes address = .ok field.elementBytes
  /-- No instruction that is tried next finds a cell of another width. -/
  sameWidths : ∀ (others : List InputValue) (next : Instruction) address found expected,
    ((next.handle others).run handled).1 ≠
      .error (.report (.size (.resultCell address found expected)))
  /-- Whoever reads from an address gets what was written there last. -/
  reads : ∀ address, handled.memory.load address =
    if address = 0 then .error (.memory 0 .null)
    else if handled.memory.size ≤ address then .error (.memory address .outOfBounds)
    else
      match MemoryEvent.latest? history address with
      | some cell => .ok cell
      | none => .error (.memory address .uninitialized)
  /-- A load binds that cell, or fails as reading does, or because its address has over 64 bits. -/
  loads : ∀ (others : List InputValue) (load : Instruction) base offset, load.opcode = .load →
    load.pointer 0 handled = .ok base → load.constantSize 1 = .ok offset →
      (load.handle others).run handled =
        if base + offset < 2 ^ 64 then
          match handled.memory.load (base + offset) with
          | .ok cell =>
              (.ok (), { handled with frame := handled.frame.bind load.id (.scalar cell) })
          | .error failure => (.error (.report failure), handled)
        else (.error (.report (.memory base .outOfBounds)), handled)
  /-- What was written last is an element of the array that was allocated there, or the latest
  cosets that cover the address. -/
  latest : ∀ earlier event later, history = earlier ++ event :: later →
    ∀ address, event.written? address ≠ none →
      (∀ result cells, .overwritten result cells ∈ later → cellAt? result cells address = none) →
        MemoryEvent.latest? history address = event.written? address

/-- The address of an allocation is bound to its name, and stays bound to it. -/
theorem pointers_of_handleAll
    {earlier later : List Instruction}
    {instruction : Instruction}
    (reachable : start.Reachable policy)
    (ended : (handleAll inputs (earlier ++ instruction :: later)).run start = (.ok (), handled))
    (allocates : instruction.Allocates inputs) :
    ∃ before after, (handleAll inputs earlier).run start = (.ok (), before)
      ∧ (instruction.handle inputs).run before = (.ok (), after)
      ∧ (before.memory.size, instruction.allocation inputs) ∈
        MemoryEvent.allocations (memoryHistory inputs (earlier ++ instruction :: later) start)
      ∧ ∀ (reader : Instruction) index type,
        reader.operands[index]? = some (.value instruction.id type) →
          reader.pointer index after = .ok before.memory.size
            ∧ ((∀ other ∈ later, other.id = instruction.id → other.opcode = .friCosets) →
              reader.pointer index handled = .ok before.memory.size) := by
  obtain ⟨before, after, reached, handles, continues⟩ := exists_cut_of_handleAll ended
  have reachableBefore := reachable_of_handleAll reachable reached
  have ends := reachableBefore.ends inputs instruction
  have reachableAfter := reachableBefore.handle inputs instruction
  rw [handles] at ends reachableAfter
  obtain ⟨bound, allocated⟩ :=
    Instruction.allocation_of_ends reachableBefore.sound.columns allocates ends
  refine ⟨before, after, reached, handles, ?_, fun reader index type given => ⟨?_, fun kept => ?_⟩⟩
  · rw [memoryHistory_cut reached handles, MemoryEvent.allocations, List.filterMap_append,
      List.filterMap_append]
    apply List.mem_append_right
    apply List.mem_append_left
    change _ ∈ MemoryEvent.allocations _
    rw [allocated]
    exact List.mem_singleton_self _
  · exact Instruction.pointer_of_address? given bound
  · apply Instruction.pointer_of_address? given
    rw [Machine.address?, get?_of_handleAll reachableAfter continues kept]
    exact bound

/-- Where all cells have the width of elements, no instruction finds another width. -/
theorem otherFailure_of_uniform
    (reachable : handled.Reachable policy)
    (uniform : handled.memory.Uniform)
    (others : List InputValue)
    (next : Instruction)
    (address found expected : Nat) :
    ((next.handle others).run handled).1 ≠
      .error (.report (.size (.resultCell address found expected))) := by
  intro refused
  have ends := reachable.ends others next
  rcases ended : (next.handle others).run handled with ⟨outcome, after⟩
  rw [ended] at ends refused
  obtain rfl : outcome = _ := refused
  cases ends with
  | refused explained =>
      obtain ⟨measured, otherWidth⟩ := explained.width address found expected rfl
      have accessible : handled.memory.checkAddress address = .ok () := by
        obtain ⟨_, checked, -⟩ := ok_of_bind measured
        exact checked
      obtain ⟨positive, inside⟩ := Memory.checkAddress_eq_ok_iff.mp accessible
      have sameWidth := uniform address positive inside
      exact otherWidth (Except.ok.inj (measured.symm.trans sameWidth))

/--
After every run that succeeds, memory is what the run did to it.

The ranges of `alloca` and of arrays follow each other from address one to the
end of memory, and every cell has the width of an element. An address is read
back from the name it is bound to, address zero cannot be read, and a load gives
what was written to its address last, or says why there is nothing.
-/
theorem memoryLaws_of_handleAll
    (created : Machine.create field policy = .ok start)
    (ended : (handleAll inputs instructions).run start = (.ok (), handled)) :
    MemoryLaws inputs instructions start handled (memoryHistory inputs instructions start) := by
  have reachable := reachable_of_handleAll (.create created) ended
  have follows := follows_of_handleAll (.create created) ended
  obtain ⟨nullOnly, nothingStored⟩ : start.memory.size = 1
      ∧ ∀ address : Nat, start.memory.stored[address]? = none := by
    obtain ⟨-, rfl⟩ := Machine.eq_of_create created
    exact ⟨rfl, fun _ => Std.TreeMap.getElem?_emptyc⟩
  have uniform : handled.memory.Uniform := follows.uniform fun address positive inside => by omega
  have consecutive := follows.consecutive
  rw [nullOnly] at consecutive
  refine {
    consecutive
    disjoint := consecutive.disjoint
    covered := consecutive.covers
    pointers := fun earlier instruction later split allocates => ?_
    limit := reachable.memory_bounds.2
    widths := uniform
    sameWidths := otherFailure_of_uniform reachable uniform
    reads := fun address => ?_
    loads := fun others load base offset opcode baseRead offsetRead =>
      Instruction.run_handleLoad opcode baseRead offsetRead
    latest := fun earlier event later split address covered last => ?_
  }
  · rw [split] at ended ⊢
    exact pointers_of_handleAll (.create created) ended allocates
  · have read := Memory.load_eq handled.memory address
    rw [follows.stored, nothingStored, Option.or_none] at read
    exact read
  · rw [split] at follows ⊢
    exact follows.latest?_eq covered last

/-- An array of four elements, and an index. -/
def fourElements : List InputValue :=
  [.array ["1", "2", "3", "4"], .field "1"]

/-- An array, no cells at all, three further cells, and the cosets of an index over the array. -/
def overlapping : List Instruction := [
  bindInput ⟨0⟩ 0,
  ⟨⟨1⟩, .alloca, [.constant (.integer 0)]⟩,
  ⟨⟨2⟩, .alloca, [.constant (.integer 3)]⟩,
  bindInput ⟨3⟩ 1,
  ⟨⟨4⟩, .friCosets, [.value ⟨0⟩ .pointer, .constant (.integer 1), .constant (.integer 5),
    .constant (.integer 2), .value ⟨3⟩ (.field .bn254Scalar)]⟩]

/-- Cosets replace the first three elements of an array, and the last one can still be read. -/
theorem overlapping_memoryLaws :
    ∃ handled : Machine .bn254Scalar,
      (handleAll fourElements overlapping).run freshMachine = (.ok (), handled)
        ∧ MemoryLaws fourElements overlapping freshMachine handled
          (memoryHistory fourElements overlapping freshMachine)
        ∧ MemoryEvent.allocations (memoryHistory fourElements overlapping freshMachine) =
          [(1, 4), (5, 0), (5, 3)]
        ∧ (handled.memory.load 3).map Cell.value = .ok 0
        ∧ (handled.memory.load 4).map Cell.value = .ok 4
        ∧ handled.memory.load 5 = .error (.memory 5 .uninitialized)
        ∧ handled.memory.load 8 = .error (.memory 8 .outOfBounds) := by
  have created : Machine.create .bn254Scalar .standard = .ok freshMachine := rfl
  have succeeds : ((handleAll fourElements overlapping).run freshMachine).1 = .ok () := by
    decide +kernel
  have ended : (handleAll fourElements overlapping).run freshMachine =
      (.ok (), ((handleAll fourElements overlapping).run freshMachine).2) := by
    rw [← succeeds, Prod.mk.eta]
  refine ⟨_, ended, memoryLaws_of_handleAll created ended, ?_, ?_, ?_, ?_, ?_⟩ <;>
    decide +kernel

end Program

end Plonkish
