import Plonkish.Machine.Handler
import Plonkish.Proofs.Machine.Soundness

namespace Plonkish

/-!
# Readings

What the readers of operands give: cells that the program can reach. None of
them fails because a circuit is not satisfied.
-/

/-- A result is as expected, and a failure is not that a circuit is not satisfied. -/
def Yields (outcome : Except Failure α) (expected : α → Prop) : Prop :=
  match outcome with
  | .ok result => expected result
  | .error failure => failure ≠ .circuit .unsatisfied

namespace Yields

/-- One computation after another yields what the second does, for any result of the first. -/
theorem bind
    {outcome : Except Failure α}
    {next : α → Except Failure β}
    {between : α → Prop}
    {expected : β → Prop}
    (first : Yields outcome between)
    (later : ∀ result, between result → Yields (next result) expected) :
    Yields (outcome >>= next) expected := by
  cases outcome with
  | error failure => exact first
  | ok result => exact later result first

/-- What yields something yields what follows from it. -/
theorem imp
    {outcome : Except Failure α}
    {expected weaker : α → Prop}
    (yields : Yields outcome expected)
    (implies : ∀ result, expected result → weaker result) :
    Yields outcome weaker := by
  cases outcome with
  | error failure => exact yields
  | ok result => exact implies result yields

/-- Every item is read as expected. -/
theorem mapM
    {read : α → Except Failure β}
    (expected : β → Prop)
    (each : ∀ item, Yields (read item) expected)
    (items : List α) :
    Yields (items.mapM read) (fun results => ∀ result ∈ results, expected result) := by
  induction items with
  | nil => exact List.forall_mem_nil expected
  | cons item rest inductionHypothesis =>
      rw [List.mapM_cons]
      refine (each item).bind fun result isExpected => ?_
      refine inductionHypothesis.bind fun results areExpected => ?_
      exact List.forall_mem_cons.mpr ⟨isExpected, areExpected⟩

/-- A result is as expected. -/
theorem of_ok
    {outcome : Except Failure α}
    {expected : α → Prop}
    (yields : Yields outcome expected)
    {result : α}
    (same : outcome = .ok result) :
    expected result := by
  subst same
  exact yields

end Yields

/-- What has a result has one for its first part, and one for the rest on it. -/
theorem ok_of_bind
    {first : Except ε α}
    {next : α → Except ε β}
    {result : β}
    (gives : first >>= next = .ok result) :
    ∃ middle, first = .ok middle ∧ next middle = .ok result := by
  cases first with
  | error failure => cases gives
  | ok middle => exact ⟨middle, rfl, gives⟩

/-- What starts with a result continues with it. -/
theorem bind_of_ok
    {first : Except ε α}
    {middle : α}
    (gives : first = .ok middle)
    (next : α → Except ε β) :
    first >>= next = next middle := by
  rw [gives]
  rfl

/-- Each item gives one result. -/
theorem length_eq_of_mapM
    {read : α → Except ε β}
    {items : List α}
    {results : List β}
    (ran : items.mapM read = .ok results) :
    results.length = items.length := by
  induction items generalizing results with
  | nil =>
      cases ran
      rfl
  | cons item rest inductionHypothesis =>
      rw [List.mapM_cons] at ran
      obtain ⟨result, -, ran⟩ := ok_of_bind ran
      obtain ⟨others, later, ran⟩ := ok_of_bind ran
      cases ran
      exact congrArg Nat.succ (inductionHypothesis later)

namespace Memory

variable {field : PrimeField}

/-- A failure of memory is not that a circuit is not satisfied. -/
theorem checkAddress_yields (memory : Memory field) (pointer : Nat) :
    Yields (memory.checkAddress pointer) (fun _ => True) := by
  unfold checkAddress
  split
  · exact Failure.noConfusion
  · split
    · exact Failure.noConfusion
    · trivial

/-- Written memory holds what was written and what it held before. -/
theorem store_yields (memory : Memory field) (pointer : Nat) (cell : Cell field) :
    Yields (memory.store pointer cell) (fun later => ∀ (address : Nat) other,
      later.stored[address]? = some other →
        memory.stored[address]? = some other ∨ other = cell) := by
  refine (memory.checkAddress_yields pointer).bind fun _ _ => ?_
  intro address other stored
  simp only [Std.TreeMap.getElem?_insert] at stored
  split at stored
  · exact .inr (Option.some.inj stored).symm
  · exact .inl stored

/-- Written memory holds cells that were written and what it held before. -/
theorem storeAll_yields (memory : Memory field) (pointer : Nat) (cells : List (Cell field)) :
    Yields (memory.storeAll pointer cells) (fun later => ∀ (address : Nat) other,
      later.stored[address]? = some other →
        memory.stored[address]? = some other ∨ other ∈ cells) := by
  induction cells generalizing memory pointer with
  | nil => exact fun address other stored => .inl stored
  | cons cell rest inductionHypothesis =>
      refine (memory.store_yields pointer cell).bind fun between written => ?_
      refine (inductionHypothesis between (pointer + 1)).imp fun later stored => ?_
      intro address other found
      rcases stored address other found with earlier | ofRest
      · rcases written address other earlier with before | rfl
        · exact .inl before
        · exact .inr List.mem_cons_self
      · exact .inr (List.mem_cons_of_mem cell ofRest)

/-- An allocation writes to no cell. -/
theorem allocate_yields (memory : Memory field) (count bytes : Nat) :
    Yields (memory.allocate count bytes) (fun result => result.2.stored = memory.stored) := by
  unfold allocate
  split
  · rfl
  · exact Failure.noConfusion

/-- A cell that is read was stored. -/
theorem load_yields (memory : Memory field) (pointer : Nat) :
    Yields (memory.load pointer) (fun cell => memory.stored[pointer]? = some cell) := by
  refine (memory.checkAddress_yields pointer).bind fun _ _ => ?_
  split
  next stored => exact stored
  next => exact Failure.noConfusion

/-- A sum of addresses does not fail for a circuit. -/
theorem offsetAddress_yields (base offset : Nat) :
    Yields (offsetAddress base offset) (fun _ => True) := by
  unfold offsetAddress
  split
  · trivial
  · exact Failure.noConfusion

/-- Cells that are loaded in turn are stored somewhere. -/
theorem loadFrom_yields (memory : Memory field) (base offset count : Nat) :
    Yields (memory.loadFrom base offset count)
      (fun cells => ∀ cell ∈ cells, ∃ pointer : Nat, memory.stored[pointer]? = some cell) := by
  induction count generalizing offset with
  | zero => exact fun cell member => nomatch member
  | succ count inductionHypothesis =>
      refine (offsetAddress_yields base offset).bind fun pointer _ => ?_
      refine (memory.load_yields pointer).bind fun cell stored => ?_
      refine (inductionHypothesis (offset + 1)).bind fun rest restStored => ?_
      exact List.forall_mem_cons.mpr ⟨⟨pointer, stored⟩, restStored⟩

end Memory

namespace Frame

variable {field : PrimeField}

/-- A slot that is found is what the name is bound to. -/
theorem lookup_yields (frame : Frame field) (id : ValueId) :
    Yields (frame.lookup id) (fun slot => frame.get? id = some slot) := by
  unfold lookup
  split
  next bound => exact bound
  next => exact Failure.noConfusion

/-- A cell that is found is what the name is bound to. -/
theorem scalar_yields (frame : Frame field) (id : ValueId) :
    Yields (frame.scalar id) (fun cell => frame.get? id = some (.scalar cell)) := by
  refine (frame.lookup_yields id).bind fun slot bound => ?_
  cases slot with
  | scalar cell => exact bound
  | vector cells => exact Failure.noConfusion

/-- Cells that are found are what the name is bound to. -/
theorem vector_yields (frame : Frame field) (id : ValueId) :
    Yields (frame.vector id) (fun cells => frame.get? id = some (.vector cells)) := by
  refine (frame.lookup_yields id).bind fun slot bound => ?_
  cases slot with
  | scalar cell => exact Failure.noConfusion
  | vector cells => exact bound

end Frame

namespace Instruction

variable {field : PrimeField} (instruction : Instruction)

/-- What is wrong with an operand has nothing to do with a circuit. -/
theorem malformed_yields {index : Nat} {fault : OperandFault} {expected : α → Prop} :
    Yields (instruction.malformed index fault : Except Failure α) expected :=
  Failure.noConfusion

theorem operand_yields (index : Nat) : Yields (instruction.operand index) (fun _ => True) := by
  unfold operand
  split
  · trivial
  · exact instruction.malformed_yields

theorem valueId_yields (index : Nat) : Yields (instruction.valueId index) (fun _ => True) := by
  refine (instruction.operand_yields index).bind fun operand _ => ?_
  cases operand with
  | value id type => trivial
  | constant content => exact instruction.malformed_yields

theorem constant_yields (index : Nat) : Yields (instruction.constant index) (fun _ => True) := by
  refine (instruction.operand_yields index).bind fun operand _ => ?_
  cases operand with
  | value id type => exact instruction.malformed_yields
  | constant content => trivial

theorem constantSize_yields (index : Nat) :
    Yields (instruction.constantSize index) (fun _ => True) := by
  refine (instruction.constant_yields index).bind fun constant _ => ?_
  cases constant with
  | integer value => trivial
  | field kind digits =>
      simp only
      split
      · trivial
      · exact instruction.malformed_yields
  | array values => exact instruction.malformed_yields

theorem constantVector_yields (index : Nat) :
    Yields (instruction.constantVector index) (fun _ => True) := by
  refine (instruction.constant_yields index).bind fun constant _ => ?_
  cases constant with
  | integer value => exact instruction.malformed_yields
  | field kind digits => exact instruction.malformed_yields
  | array values => trivial

theorem constantElement_yields (index : Nat) :
    Yields (instruction.constantElement field index) (fun _ => True) := by
  refine (instruction.constant_yields index).bind fun constant _ => ?_
  cases constant with
  | integer value => trivial
  | field kind digits =>
      simp only
      split
      · split
        · trivial
        · exact instruction.malformed_yields
      · exact Failure.noConfusion
  | array values => exact instruction.malformed_yields

theorem curveKind_yields (index : Nat) :
    Yields (instruction.curveKind index) (fun _ => True) := by
  refine (instruction.operand_yields index).bind fun operand _ => ?_
  split
  · trivial
  · exact instruction.malformed_yields

theorem addressOf_yields (index : Nat) (cell : Cell field) :
    Yields (instruction.addressOf index cell) (fun _ => True) := by
  unfold addressOf
  split
  · trivial
  · exact instruction.malformed_yields

variable (machine : Machine field)

/-- A scalar operand is a cell that is bound. -/
theorem scalar_yields (index : Nat) :
    Yields (instruction.scalar index machine) machine.Reaches := by
  refine (instruction.valueId_yields index).bind fun id _ => ?_
  refine (machine.frame.scalar_yields id).imp fun cell bound => ?_
  exact .inl ⟨id, .scalar cell, bound, List.mem_singleton_self cell⟩

/-- The cells of a vector operand are those of one that is bound. -/
theorem vector_yields (index : Nat) :
    Yields (instruction.vector index machine)
      (fun cells => ∀ cell ∈ cells, machine.Reaches cell) := by
  refine (instruction.valueId_yields index).bind fun id _ => ?_
  refine (machine.frame.vector_yields id).imp fun cells bound cell member => ?_
  exact .inl ⟨id, .vector cells, bound, member⟩

/-- Both cells of a pair can be reached. -/
theorem pair_yields (index : Nat) :
    Yields (instruction.pair index machine)
      (fun pair => machine.Reaches pair.1 ∧ machine.Reaches pair.2) := by
  refine (instruction.vector_yields machine index).bind fun cells reached => ?_
  split
  next first second => exact ⟨reached first (by simp), reached second (by simp)⟩
  next => exact Failure.noConfusion

theorem pointer_yields (index : Nat) :
    Yields (instruction.pointer index machine) (fun _ => True) := by
  refine (instruction.scalar_yields machine index).bind fun cell _ => ?_
  exact instruction.addressOf_yields index cell

/-- The cells of a vector operand, or behind the address it holds, can be reached. -/
theorem inputVector_yields (index size : Nat) :
    Yields (instruction.inputVector index size machine)
      (fun cells => ∀ cell ∈ cells, machine.Reaches cell) := by
  refine (instruction.valueId_yields index).bind fun id _ => ?_
  refine (machine.frame.lookup_yields id).bind fun slot bound => ?_
  cases slot with
  | vector cells =>
      simp only
      split
      · exact fun cell member => .inl ⟨id, .vector cells, bound, member⟩
      · exact Failure.noConfusion
  | scalar cell =>
      refine (instruction.addressOf_yields index cell).bind fun base _ => ?_
      refine (machine.memory.loadFrom_yields base 0 size).imp fun cells stored cell member => ?_
      exact .inr (stored cell member)

end Instruction

end Plonkish
