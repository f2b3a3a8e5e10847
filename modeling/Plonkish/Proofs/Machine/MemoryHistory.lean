import Plonkish.Proofs.Machine.Exposure

namespace Plonkish

/-!
# Histories of memory

What instructions did to memory, in order: which cells they allocated, and what
they wrote where. Memory is what its history says: the allocations follow each
other without a gap, and a cell stores what was written to it last.
-/

/-- What an instruction that succeeds does to memory. -/
inductive MemoryEvent (field : PrimeField) where
  /-- Cells were allocated. -/
  | reserved (pointer count : Nat)
  /-- Cells were allocated for an array, whose elements were written to them. -/
  | filled (pointer : Nat) (cells : List (Cell field))
  /-- The cosets of an index were written to cells that there were. -/
  | overwritten (pointer : Nat) (cells : List (Cell field))

/-- The cell for an address among cells that are stored behind an address. -/
def cellAt? {field : PrimeField} (pointer : Nat) (cells : List (Cell field)) (address : Nat) :
    Option (Cell field) :=
  if pointer ≤ address then cells[address - pointer]? else none

theorem cellAt?_eq_none_iff
    {field : PrimeField}
    {pointer : Nat}
    {cells : List (Cell field)}
    {address : Nat} :
    cellAt? pointer cells address = none ↔
      address < pointer ∨ pointer + cells.length ≤ address := by
  unfold cellAt?
  split
  next behind =>
    rw [List.getElem?_eq_none_iff]
    omega
  next before => simp [Nat.not_le.mp before]

namespace MemoryEvent

variable {field : PrimeField}

/-- The cells that were allocated: the address of the first, and how many. -/
def allocation? : MemoryEvent field → Option (Nat × Nat)
  | .reserved pointer count => some (pointer, count)
  | .filled pointer cells => some (pointer, cells.length)
  | .overwritten _ _ => none

/-- What was written to an address. -/
def written? (event : MemoryEvent field) (address : Nat) : Option (Cell field) :=
  match event with
  | .reserved _ _ => none
  | .filled pointer cells | .overwritten pointer cells => cellAt? pointer cells address

/-- What was allocated, in order. -/
def allocations (history : List (MemoryEvent field)) : List (Nat × Nat) :=
  history.filterMap allocation?

/-- What was written to an address last. -/
def latest? : List (MemoryEvent field) → Nat → Option (Cell field)
  | [], _ => none
  | event :: later, address => (latest? later address).or (event.written? address)

theorem latest?_append (earlier later : List (MemoryEvent field)) (address : Nat) :
    latest? (earlier ++ later) address =
      (latest? later address).or (latest? earlier address) := by
  induction earlier with
  | nil => exact (Option.or_none).symm
  | cons event rest inductionHypothesis =>
      rw [List.cons_append, latest?, inductionHypothesis, latest?, Option.or_assoc]

/-- Nothing was written to an address if no event wrote to it. -/
theorem latest?_eq_none_iff {history : List (MemoryEvent field)} {address : Nat} :
    latest? history address = none ↔ ∀ event ∈ history, event.written? address = none := by
  induction history with
  | nil => simp [latest?]
  | cons event rest inductionHypothesis =>
      rw [latest?, Option.or_eq_none_iff, inductionHypothesis, List.forall_mem_cons, and_comm]

end MemoryEvent

/-- Ranges of addresses follow each other without a gap, from an address up to another. -/
def Consecutive : Nat → List (Nat × Nat) → Nat → Prop
  | start, [], stop => start = stop
  | start, (pointer, count) :: rest, stop =>
      pointer = start ∧ Consecutive (start + count) rest stop

namespace Consecutive

variable {start middle stop : Nat} {ranges : List (Nat × Nat)}

theorem append
    {others : List (Nat × Nat)}
    (first : Consecutive start ranges middle)
    (second : Consecutive middle others stop) :
    Consecutive start (ranges ++ others) stop := by
  induction ranges generalizing start with
  | nil =>
      obtain rfl : start = middle := first
      exact second
  | cons range rest inductionHypothesis =>
      exact ⟨first.1, inductionHypothesis first.2⟩

theorem le (consecutive : Consecutive start ranges stop) : start ≤ stop := by
  induction ranges generalizing start with
  | nil => exact Nat.le_of_eq consecutive
  | cons range rest inductionHypothesis =>
      exact (Nat.le_add_right _ _).trans (inductionHypothesis consecutive.2)

/-- All ranges are between the first address and the last. -/
theorem inside
    (consecutive : Consecutive start ranges stop)
    {range : Nat × Nat}
    (member : range ∈ ranges) :
    start ≤ range.1 ∧ range.1 + range.2 ≤ stop := by
  induction ranges generalizing start with
  | nil => cases member
  | cons first rest inductionHypothesis =>
      obtain ⟨isStart, later⟩ := consecutive
      rcases List.mem_cons.mp member with rfl | isLater
      · have atMost := later.le
        omega
      · have bounds := inductionHypothesis later isLater
        omega

/-- No two ranges overlap: each ends before the next ones begin. -/
theorem disjoint (consecutive : Consecutive start ranges stop) :
    ranges.Pairwise fun earlier later => earlier.1 + earlier.2 ≤ later.1 := by
  induction ranges generalizing start with
  | nil => exact .nil
  | cons first rest inductionHypothesis =>
      obtain ⟨isStart, later⟩ := consecutive
      refine .cons (fun range member => ?_) (inductionHypothesis later)
      rw [isStart]
      exact (later.inside member).1

/-- An address is in one of the ranges if it is between the first address and the last. -/
theorem covers (consecutive : Consecutive start ranges stop) (address : Nat) :
    (start ≤ address ∧ address < stop) ↔
      ∃ range ∈ ranges, range.1 ≤ address ∧ address < range.1 + range.2 := by
  constructor
  · rintro ⟨fromStart, beforeStop⟩
    induction ranges generalizing start with
    | nil =>
        obtain rfl : start = stop := consecutive
        exact absurd beforeStop (Nat.not_lt.mpr fromStart)
    | cons first rest inductionHypothesis =>
        obtain ⟨isStart, later⟩ := consecutive
        by_cases isFirst : address < start + first.2
        · exact ⟨first, List.mem_cons_self, by omega, by omega⟩
        · obtain ⟨range, member, bounds⟩ := inductionHypothesis later (Nat.not_lt.mp isFirst)
          exact ⟨range, List.mem_cons_of_mem _ member, bounds⟩
  · rintro ⟨range, member, fromFirst, beforeLast⟩
    have bounds := consecutive.inside member
    omega

end Consecutive

namespace Memory

variable {field : PrimeField} {memory between later : Memory field}

/-- Every cell but the null cell has the width of an element. -/
def Uniform (memory : Memory field) : Prop :=
  ∀ address, 0 < address → address < memory.size →
    memory.cellBytes address = .ok field.elementBytes

/-- Allocated cells have the width that was asked for. -/
theorem Uniform.allocate
    (uniform : memory.Uniform)
    {count pointer : Nat}
    (allocates : memory.allocate count field.elementBytes = .ok (pointer, later)) :
    later.Uniform := by
  intro address positive inside
  by_cases earlier : address < memory.size
  · rw [cellBytes_of_allocate allocates earlier]
    exact uniform address positive earlier
  · obtain ⟨-, -, rfl⟩ := allocate_eq_ok_iff.mp allocates
    have accessible := checkAddress_eq_ok_iff.mpr ⟨positive, inside⟩
    have inNew : Segment.contains ⟨memory.size, count, field.elementBytes⟩ address = true := by
      simpa [Segment.contains] using ⟨Nat.not_lt.mp earlier, inside⟩
    unfold cellBytes
    rw [accessible]
    dsimp only
    rw [List.find?_cons, inNew]
    rfl

theorem Written.uniform
    {pointer : Nat}
    {cells : List (Cell field)}
    (written : memory.Written pointer cells later)
    (uniform : memory.Uniform) :
    later.Uniform := by
  intro address positive inside
  rw [written.size] at inside
  rw [written.cellBytes]
  exact uniform address positive inside

/-- Only cells that there are are written. -/
theorem inside_of_storeAll
    {pointer : Nat}
    {cells : List (Cell field)}
    (stores : memory.storeAll pointer cells = .ok later)
    {address : Nat}
    (covered : cellAt? pointer cells address ≠ none) :
    address < memory.size := by
  induction cells generalizing memory pointer with
  | nil =>
      rw [Ne, cellAt?_eq_none_iff, List.length_nil] at covered
      omega
  | cons cell rest inductionHypothesis =>
      rw [storeAll] at stores
      cases first : memory.store pointer cell with
      | error failure =>
          rw [first] at stores
          cases stores
      | ok between =>
          rw [first] at stores
          obtain ⟨accessible, rfl⟩ := store_eq_ok_iff.mp first
          by_cases isFirst : address = pointer
          · rw [isFirst]
            exact (checkAddress_eq_ok_iff.mp accessible).2
          · apply inductionHypothesis stores
            rw [Ne, cellAt?_eq_none_iff] at covered ⊢
            rw [List.length_cons] at covered
            omega

/-- Memory has become what its history says. -/
structure Follows
    (memory : Memory field)
    (history : List (MemoryEvent field))
    (later : Memory field) :
    Prop where
  consecutive : Consecutive memory.size (MemoryEvent.allocations history) later.size
  stored : ∀ address : Nat, later.stored[address]? =
    (MemoryEvent.latest? history address).or memory.stored[address]?
  uniform : memory.Uniform → later.Uniform
  inside : ∀ event ∈ history, ∀ address, event.written? address ≠ none → address < later.size
  /-- What is allocated after a write is behind what was written. -/
  ordered : history.Pairwise fun earlier event => ∀ address, earlier.written? address ≠ none →
    ∀ range, event.allocation? = some range → address < range.1

namespace Follows

theorem refl (memory : Memory field) : memory.Follows [] memory where
  consecutive := rfl
  stored _ := rfl
  uniform := id
  inside := nofun
  ordered := .nil

theorem trans
    {first second : List (MemoryEvent field)}
    (earlier : memory.Follows first between)
    (after : between.Follows second later) :
    memory.Follows (first ++ second) later where
  consecutive := by
    rw [MemoryEvent.allocations, List.filterMap_append]
    exact earlier.consecutive.append after.consecutive
  stored address := by
    rw [after.stored, earlier.stored, MemoryEvent.latest?_append, Option.or_assoc]
  uniform := after.uniform ∘ earlier.uniform
  inside event member address covered := by
    rcases List.mem_append.mp member with isFirst | isSecond
    · exact (earlier.inside event isFirst address covered).trans_le after.consecutive.le
    · exact after.inside event isSecond address covered
  ordered := by
    refine List.pairwise_append.mpr ⟨earlier.ordered, after.ordered, ?_⟩
    intro event isFirst other isSecond address covered range allocates
    have isRange : range ∈ MemoryEvent.allocations second :=
      List.mem_filterMap.mpr ⟨other, isSecond, allocates⟩
    exact (earlier.inside event isFirst address covered).trans_le
      (after.consecutive.inside isRange).1

theorem reserved
    {count pointer : Nat}
    (allocates : memory.allocate count field.elementBytes = .ok (pointer, later)) :
    memory.Follows [.reserved pointer count] later where
  consecutive := by
    obtain ⟨-, rfl, rfl⟩ := allocate_eq_ok_iff.mp allocates
    exact ⟨rfl, rfl⟩
  stored _ := by
    obtain ⟨-, -, rfl⟩ := allocate_eq_ok_iff.mp allocates
    rfl
  uniform uniform := uniform.allocate allocates
  inside event member address covered := by
    rw [List.mem_singleton.mp member] at covered
    exact (covered rfl).elim
  ordered := List.pairwise_singleton _ _

theorem overwritten
    {pointer : Nat}
    {cells : List (Cell field)}
    (stores : memory.storeAll pointer cells = .ok later) :
    memory.Follows [.overwritten pointer cells] later where
  consecutive := (written_of_storeAll stores).size.symm
  stored address := by
    rw [(written_of_storeAll stores).stored, MemoryEvent.latest?, MemoryEvent.latest?,
      Option.none_or]
    dsimp only [MemoryEvent.written?]
    split
    next inside =>
      have present : address - pointer < cells.length := by omega
      rw [cellAt?, if_pos inside.1, List.getElem?_eq_getElem present]
      rfl
    next outside =>
      rw [cellAt?_eq_none_iff.mpr (by omega), Option.none_or]
  uniform := (written_of_storeAll stores).uniform
  inside event member address covered := by
    rw [List.mem_singleton.mp member] at covered
    rw [(written_of_storeAll stores).size]
    exact inside_of_storeAll stores covered
  ordered := List.pairwise_singleton _ _

/-- An array is allocated, and then written where it was allocated. -/
theorem filled
    {pointer : Nat}
    {cells : List (Cell field)}
    {allocated : Memory field}
    (allocates : memory.allocate cells.length field.elementBytes = .ok (pointer, allocated))
    (stores : allocated.storeAll pointer cells = .ok later) :
    memory.Follows [.filled pointer cells] later := by
  have both := (reserved allocates).trans (overwritten stores)
  refine {
    consecutive := both.consecutive
    stored := fun address => (both.stored address).trans ?_
    uniform := both.uniform
    inside := fun event member address covered => ?_
    ordered := List.pairwise_singleton _ _
  }
  · have nothing :
        MemoryEvent.latest? ([.reserved pointer cells.length] : List (MemoryEvent field)) address =
          none := rfl
    rw [MemoryEvent.latest?_append, nothing, Option.or_none]
    rfl
  · rw [List.mem_singleton.mp member] at covered
    exact both.inside (.overwritten pointer cells) (by simp) address covered

/--
What was written to an address is what was written to it last, unless cosets were written later.

An array that is allocated later is behind the address.
-/
theorem latest?_eq
    {before after : List (MemoryEvent field)}
    {event : MemoryEvent field}
    (follows : memory.Follows (before ++ event :: after) later)
    {address : Nat}
    (covered : event.written? address ≠ none)
    (last : ∀ result cells, .overwritten result cells ∈ after →
      cellAt? result cells address = none) :
    MemoryEvent.latest? (before ++ event :: after) address = event.written? address := by
  have nothingLater : MemoryEvent.latest? after address = none := by
    rw [MemoryEvent.latest?_eq_none_iff]
    intro other member
    cases other with
    | reserved pointer count => rfl
    | filled pointer cells =>
        have ordered := (List.pairwise_append.mp follows.ordered).2.1
        have behind := (List.pairwise_cons.mp ordered).1 _ member address covered _ rfl
        exact cellAt?_eq_none_iff.mpr (.inl behind)
    | overwritten result cells => exact last result cells member
  obtain ⟨cell, written⟩ := Option.ne_none_iff_exists'.mp covered
  rw [MemoryEvent.latest?_append, MemoryEvent.latest?, nothingLater, Option.none_or, written]
  rfl

end Follows

end Memory

namespace Instruction

variable {field : PrimeField} {inputs : List InputValue} {instruction : Instruction}
variable {machine after : Machine field}

/-- The cells that `fri_cosets` writes, and the address of the first. -/
def cosetCells? (instruction : Instruction) (machine : Machine field) :
    Option (Nat × List (Cell field)) :=
  match instruction.cosetOperands machine with
  | .ok (result, resultLength, root, totalBits, index) =>
      match CosetShape.make resultLength totalBits root with
      | .ok shape =>
          match ((Gadget.cosets shape index).run machine.transcript).1 with
          | .ok rounds => some (result, rounds.flatMap CosetCells.toList)
          | .error _ => none
      | .error _ => none
  | .error _ => none

/--
What an instruction that succeeded did to memory.

Where cells were allocated is read from the frame, as any later instruction reads
it; the elements of an array are those that were exposed.
-/
def memoryEvents
    (inputs : List InputValue)
    (instruction : Instruction)
    (machine after : Machine field) :
    List (MemoryEvent field) :=
  match instruction.opcode with
  | .alloca =>
      match after.address? instruction.id, instruction.constantSize 0 with
      | some pointer, .ok count => [.reserved pointer count]
      | _, _ => []
  | .param =>
      match instruction.input? inputs, after.address? instruction.id with
      | some (.array _), some pointer =>
          [.filled pointer (after.exposed.drop machine.exposed.length)]
      | _, _ => []
  | .friCosets =>
      match instruction.cosetCells? machine with
      | some (pointer, cells) => [.overwritten pointer cells]
      | none => []
  | _ => []

/-- An allocation is what `alloca` does to memory. -/
theorem memoryEvents_of_allocated
    {count pointer : Nat}
    {memory : Memory field}
    (opcode : instruction.opcode = .alloca)
    (counted : instruction.constantSize 0 = .ok count)
    (allocates : machine.memory.allocate count field.elementBytes = .ok (pointer, memory)) :
    (instruction.addressMachine pointer { machine with memory }).address? instruction.id =
        some pointer
      ∧ instruction.memoryEvents inputs machine
          (instruction.addressMachine pointer { machine with memory }) =
        [.reserved pointer count] := by
  obtain ⟨fits, rfl, -⟩ := Memory.allocate_eq_ok_iff.mp allocates
  have bound := Machine.address?_addressMachine instruction { machine with memory }
    ((Nat.le_add_right _ _).trans fits)
  refine ⟨bound, ?_⟩
  rw [memoryEvents, opcode]
  dsimp only
  rw [bound, counted]

/-- The elements that were exposed fill an array. -/
theorem memoryEvents_of_boundArray
    {texts : List String}
    {elements : List (Element field)}
    {pointer : Nat}
    {allocated memory : Memory field}
    (columns : 0 < machine.instances.size)
    (opcode : instruction.opcode = .param)
    (read : instruction.inputElements field inputs = .ok (.array texts, elements))
    (allocates :
      machine.memory.allocate elements.length field.elementBytes = .ok (pointer, allocated))
    (stores : allocated.storeAll pointer
      (Synthesis.witnesses elements machine.transcript).1 = .ok memory) :
    (instruction.addressMachine pointer
        { exposedMachine elements machine with memory }).address? instruction.id = some pointer
      ∧ instruction.memoryEvents inputs machine
          (instruction.addressMachine pointer { exposedMachine elements machine with memory }) =
        [.filled pointer (Synthesis.witnesses elements machine.transcript).1] := by
  have isExposed : (instruction.addressMachine pointer
        { exposedMachine elements machine with memory }).exposed =
      machine.exposed ++ (Synthesis.witnesses elements machine.transcript).1 :=
    (exposed_of_exposedMachine columns rfl).1
  obtain ⟨fits, rfl, -⟩ := Memory.allocate_eq_ok_iff.mp allocates
  have bound := Machine.address?_addressMachine instruction
    { exposedMachine elements machine with memory } ((Nat.le_add_right _ _).trans fits)
  refine ⟨bound, ?_⟩
  rw [memoryEvents, opcode]
  dsimp only
  rw [(input?_of_inputElements read).1, bound]
  dsimp only
  rw [isExposed, List.drop_left]

/-- An input that is not an array does nothing to memory. -/
theorem memoryEvents_of_boundInput
    {input : InputValue}
    {elements : List (Element field)}
    (opcode : instruction.opcode = .param)
    (read : instruction.inputElements field inputs = .ok (input, elements))
    (notArray : ∀ texts, input ≠ .array texts) :
    instruction.memoryEvents inputs machine after = [] := by
  rw [memoryEvents, opcode]
  dsimp only
  rw [(input?_of_inputElements read).1]
  cases input with
  | array texts => exact (notArray texts rfl).elim
  | _ => rfl

/-- Memory follows what an instruction that succeeds does to it. -/
theorem follows_of_ends
    (columns : 0 < machine.instances.size)
    (ends : Ends inputs instruction machine (.ok (), after)) :
    machine.memory.Follows (instruction.memoryEvents inputs machine after) after.memory := by
  cases ends with
  | boundInput opcode read notArray =>
      rw [memoryEvents_of_boundInput opcode read notArray]
      exact .refl _
  | @boundArray texts elements pointer allocated memory opcode read allocates stores =>
      rw [(memoryEvents_of_boundArray columns opcode read allocates stores).2]
      rw [← Synthesis.length_witnesses elements machine.transcript] at allocates
      exact .filled allocates stores
  | allocated opcode counted allocates =>
      rw [(memoryEvents_of_allocated opcode counted allocates).2]
      exact .reserved allocates
  | @wroteCosets result resultLength totalBits root index shape rounds transcript memory opcode
      read made checked computed counted stores =>
      have cells : instruction.cosetCells? machine =
          some (result, rounds.flatMap CosetCells.toList) := by
        simp only [cosetCells?, read, made, computed]
      have event : instruction.memoryEvents inputs machine
          { machine with transcript, memory } =
          [.overwritten result (rounds.flatMap CosetCells.toList)] := by
        rw [memoryEvents, opcode]
        dsimp only
        rw [cells]
      rw [event]
      exact .overwritten stores
  | loaded opcode | selected opcode | added opcode | evaluatedGates opcode
  | evaluatedLookups opcode =>
      rw [memoryEvents, opcode]
      exact .refl _

/-- What a load comes to, by what is in memory at its address. -/
theorem run_handleLoad
    {base offset : Nat}
    (opcode : instruction.opcode = .load)
    (baseRead : instruction.pointer 0 machine = .ok base)
    (offsetRead : instruction.constantSize 1 = .ok offset) :
    (instruction.handle inputs).run machine =
      if base + offset < 1 <<< 64 then
        match machine.memory.load (base + offset) with
        | .ok cell =>
            (.ok (), { machine with frame := machine.frame.bind instruction.id (.scalar cell) })
        | .error failure => (.error (.report failure), machine)
      else (.error (.report (.memory base .outOfBounds)), machine) := by
  have operands : instruction.loadOperands machine =
      (Memory.offsetAddress base offset).bind machine.memory.load := by
    change (instruction.pointer 0 machine).bind _ = _
    rw [baseRead]
    change (instruction.constantSize 1).bind _ = _
    rw [offsetRead]
    rfl
  unfold handle
  rw [opcode]
  dsimp only
  rw [handleLoad, Translation.run_read_bind, operands, Memory.offsetAddress, Sizes.sum?]
  by_cases fits : base + offset < 1 <<< 64
  · rw [if_pos fits, if_pos fits]
    dsimp only [Except.bind]
    cases machine.memory.load (base + offset) <;> rfl
  · rw [if_neg fits, if_neg fits]
    rfl

end Instruction

end Plonkish
