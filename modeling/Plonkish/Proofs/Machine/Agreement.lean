import Plonkish.Proofs.Gadget.ArgumentAgreement
import Plonkish.Proofs.Machine.Step

namespace Plonkish

/-!
# Agreeing machines

Two machines agree if they only differ in what their cells hold: their frames
bind the same names in the same way, their memories have the same cells, and
their transcripts have the same shape and expose the same cells. Where a bound
or stored cell sits is the same in both as far as the runs are aligned.

Reading does not tell agreeing machines apart, except by the address that a cell
holds. The readings that follow an address ask that it is the same in both.
-/

variable {field : PrimeField} {aligned : Prop}

/-- Two names are bound to a cell each, or to vectors of the same length. -/
def Slot.Agrees (aligned : Prop) : Slot field → Slot field → Prop
  | .scalar left, .scalar right => left.Agrees aligned right
  | .vector left, .vector right => Cell.AllAgree aligned left right
  | _, _ => False

/-- The same names are bound, and in the same way. -/
def Frame.Agrees (aligned : Prop) (left right : Frame field) : Prop :=
  ∀ number : Nat,
    Option.Rel (Slot.Agrees aligned) left.slots[number]? right.slots[number]?

/-- There are the same cells with the same widths, and the same ones are written. -/
structure Memory.Agrees (aligned : Prop) (left right : Memory field) : Prop where
  size : left.size = right.size
  widths : ∀ pointer, left.cellBytes pointer = right.cellBytes pointer
  stored : aligned → ∀ pointer : Nat,
    Option.Rel (Cell.Agrees aligned) left.stored[pointer]? right.stored[pointer]?

/-- The cells of two machines differ only in what they hold; policies are not compared. -/
structure Machine.Agrees (aligned : Prop) (left right : Machine field) : Prop where
  frame : left.frame.Agrees aligned right.frame
  memory : left.memory.Agrees aligned right.memory
  transcript : left.transcript.Agrees aligned right.transcript
  /-- The exposed cells of each column sit at the same offsets. -/
  instances : left.instances.toList.map (fun column => column.toList.map Cell.offset) =
    right.instances.toList.map (fun column => column.toList.map Cell.offset)

/-- Two outcomes that are both results are related. -/
def BothYield
    (left : Except ε α)
    (right : Except ε β)
    (related : α → β → Prop) :
    Prop :=
  match left, right with
  | .ok result, .ok other => related result other
  | _, _ => True

namespace BothYield

/-- Nothing is asked of two outcomes of which the second is a failure. -/
theorem errorRight
    {failure : ε}
    {left : Except ε α}
    {related : α → β → Prop} :
    BothYield left (.error failure : Except ε β) related := by
  cases left <;> trivial

/-- An outcome has the same result as itself. -/
theorem refl (outcome : Except ε α) : BothYield outcome outcome Eq := by
  cases outcome with
  | error failure => trivial
  | ok result => exact Eq.refl result

/-- Two results are related. -/
theorem of_ok
    {left : Except ε α}
    {right : Except ε β}
    {related : α → β → Prop}
    (alike : BothYield left right related)
    {result : α}
    {other : β}
    (isResult : left = .ok result)
    (isOther : right = .ok other) :
    related result other := by
  subst isResult
  subst isOther
  exact alike

/--
Two pairs of computations give related results if the first ones do, and the
second ones on them.
-/
theorem bind
    {left : Except ε α}
    {right : Except ε β}
    {next : α → Except ε γ}
    {otherNext : β → Except ε δ}
    {between : α → β → Prop}
    {related : γ → δ → Prop}
    (first : BothYield left right between)
    (later : ∀ result other, between result other →
      BothYield (next result) (otherNext other) related) :
    BothYield (left >>= next) (right >>= otherNext) related := by
  cases left with
  | error failure => trivial
  | ok result =>
      cases right with
      | error failure => exact errorRight
      | ok other => exact later result other first

/-- What follows an outcome that does not depend on the machine. -/
theorem bind_same
    {outcome : Except ε α}
    {next : α → Except ε γ}
    {otherNext : α → Except ε δ}
    {related : γ → δ → Prop}
    (later : ∀ result, BothYield (next result) (otherNext result) related) :
    BothYield (outcome >>= next) (outcome >>= otherNext) related := by
  apply (refl outcome).bind
  rintro result _ rfl
  exact later result

/-- Nothing is asked of two outcomes without a result. -/
theorem unit {left right : Except ε Unit} : BothYield left right (fun _ _ => True) := by
  cases left <;> cases right <;> trivial

/-- Outcomes that are the same in aligned runs. -/
theorem of_aligned
    {left right : Except ε α}
    (same : aligned → left = right) :
    BothYield left right (fun result other => aligned → result = other) := by
  cases left with
  | error failure => trivial
  | ok result =>
      cases right with
      | error failure => trivial
      | ok other => exact fun isAligned => Except.ok.inj (same isAligned)

end BothYield

/-! ## Memory -/

namespace Memory

variable {left right : Memory field}

/-- The same way behind the same address is the same address. -/
theorem offsetAddress_alike
    {base otherBase : Nat}
    (bases : aligned → base = otherBase)
    (offset : Nat) :
    BothYield (offsetAddress base offset) (offsetAddress otherBase offset)
      (fun pointer other => aligned → pointer = other) := by
  apply BothYield.of_aligned
  intro isAligned
  rw [bases isAligned]

/-- Which cell is read depends on its address, and on where the stored cells sit. -/
theorem load_alike
    (agrees : left.Agrees aligned right)
    {pointer otherPointer : Nat}
    (pointers : aligned → pointer = otherPointer) :
    BothYield (left.load pointer) (right.load otherPointer) (Cell.Agrees aligned) := by
  cases loaded : left.load pointer with
  | error failure => trivial
  | ok cell =>
      cases otherLoaded : right.load otherPointer with
      | error failure => trivial
      | ok otherCell =>
          intro isAligned
          obtain rfl := pointers isAligned
          have stored := (left.load_yields pointer).of_ok loaded
          have otherStored := (right.load_yields pointer).of_ok otherLoaded
          have same := agrees.stored isAligned pointer
          rw [stored, otherStored] at same
          cases same with
          | some cells => exact cells isAligned

/-- Cells that are loaded behind the same address agree one by one. -/
theorem loadFrom_alike
    (agrees : left.Agrees aligned right)
    {base otherBase : Nat}
    (bases : aligned → base = otherBase)
    (offset count : Nat) :
    BothYield (left.loadFrom base offset count) (right.loadFrom otherBase offset count)
      (Cell.AllAgree aligned) := by
  induction count generalizing offset with
  | zero => exact List.Forall₂.nil
  | succ count inductionHypothesis =>
      apply (offsetAddress_alike bases offset).bind
      intro pointer otherPointer pointers
      apply (load_alike agrees pointers).bind
      intro cell otherCell cells
      apply (inductionHypothesis (offset + 1)).bind
      intro rest otherRest rests
      exact List.Forall₂.cons cells rests

/-- Agreeing cells that are stored at the same address keep memories in agreement. -/
theorem store_alike
    (agrees : left.Agrees aligned right)
    {pointer otherPointer : Nat}
    (pointers : aligned → pointer = otherPointer)
    {cell otherCell : Cell field}
    (cells : cell.Agrees aligned otherCell) :
    BothYield (left.store pointer cell) (right.store otherPointer otherCell)
      (Memory.Agrees aligned) := by
  unfold store
  cases left.checkAddress pointer with
  | error failure => trivial
  | ok _ =>
      cases right.checkAddress otherPointer with
      | error failure => trivial
      | ok _ =>
          refine ⟨agrees.size, agrees.widths, fun isAligned address => ?_⟩
          obtain rfl := pointers isAligned
          rw [Std.TreeMap.getElem?_insert, Std.TreeMap.getElem?_insert]
          by_cases here : compare pointer address = .eq
          · rw [if_pos here, if_pos here]
            exact .some cells
          · rw [if_neg here, if_neg here]
            exact agrees.stored isAligned address

/-- Agreeing cells that are stored behind the same address keep memories in agreement. -/
theorem storeAll_alike
    (agrees : left.Agrees aligned right)
    {pointer otherPointer : Nat}
    (pointers : aligned → pointer = otherPointer)
    {cells otherCells : List (Cell field)}
    (cellsAgree : Cell.AllAgree aligned cells otherCells) :
    BothYield (left.storeAll pointer cells) (right.storeAll otherPointer otherCells)
      (Memory.Agrees aligned) := by
  induction cellsAgree generalizing left right pointer otherPointer with
  | nil => exact agrees
  | cons head _ inductionHypothesis =>
      apply (store_alike agrees pointers head).bind
      intro written otherWritten writtenAgree
      exact inductionHypothesis writtenAgree fun isAligned => congrArg (· + 1) (pointers isAligned)

/-- The width of a cell after an allocation: that of the new cells, or what it was before. -/
theorem cellBytes_allocated (memory : Memory field) (count bytes pointer : Nat) :
    ({ memory with
        size := memory.size + count
        segments := ⟨memory.size, count, bytes⟩ :: memory.segments } : Memory field).cellBytes
          pointer =
      if pointer = 0 then .error (.memory pointer .null)
      else if memory.size + count ≤ pointer then .error (.memory pointer .outOfBounds)
      else if memory.size ≤ pointer then .ok bytes
      else memory.cellBytes pointer := by
  unfold cellBytes checkAddress
  dsimp only
  by_cases null : pointer = 0
  · rw [if_pos null, if_pos null]
    rfl
  rw [if_neg null, if_neg null, if_neg null]
  by_cases outside : memory.size + count ≤ pointer
  · rw [if_pos outside, if_pos outside]
    rfl
  rw [if_neg outside, if_neg outside, List.find?_cons]
  by_cases new : memory.size ≤ pointer
  · have contained : (Segment.mk memory.size count bytes).contains pointer = true := by
      simp [Segment.contains, new, Nat.lt_of_not_le outside]
    rw [if_pos new, contained]
    rfl
  · have notContained : (Segment.mk memory.size count bytes).contains pointer = false := by
      simp [Segment.contains, new]
    rw [if_neg new, if_neg new, notContained]

/-- The same address is allocated in both memories. -/
theorem allocate_alike (agrees : left.Agrees aligned right) (count bytes : Nat) :
    BothYield (left.allocate count bytes) (right.allocate count bytes)
      (fun result other => result.1 = other.1 ∧ result.2.Agrees aligned other.2) := by
  unfold allocate
  rw [agrees.size]
  by_cases fits : right.size + count ≤ memoryLimit
  · rw [if_pos fits, if_pos fits]
    refine ⟨rfl, rfl, fun pointer => ?_, agrees.stored⟩
    have widths := left.cellBytes_allocated count bytes pointer
    rw [agrees.size, agrees.widths] at widths
    rw [right.cellBytes_allocated, ← widths]
  · rw [if_neg fits]
    trivial

end Memory

/-! ## Frames -/

namespace Frame

variable {left right : Frame field} (agrees : left.Agrees aligned right)

include agrees

/-- A name is bound to agreeing slots. -/
theorem lookup_alike (id : ValueId) :
    BothYield (left.lookup id) (right.lookup id) (Slot.Agrees aligned) := by
  have same : Option.Rel (Slot.Agrees aligned) (left.get? id) (right.get? id) :=
    agrees id.number.toNat
  unfold lookup
  generalize left.get? id = slot at same ⊢
  generalize right.get? id = otherSlot at same ⊢
  cases same with
  | none => trivial
  | some slots => exact slots

/-- Two cells that a name is bound to agree. -/
theorem scalar_alike (id : ValueId) :
    BothYield (left.scalar id) (right.scalar id) (Cell.Agrees aligned) := by
  apply (lookup_alike agrees id).bind
  intro slot otherSlot slots
  cases slot with
  | vector cells => trivial
  | scalar cell =>
      cases otherSlot with
      | vector otherCells => trivial
      | scalar otherCell => exact slots

/-- Two vectors that a name is bound to agree cell by cell. -/
theorem vector_alike (id : ValueId) :
    BothYield (left.vector id) (right.vector id) (Cell.AllAgree aligned) := by
  apply (lookup_alike agrees id).bind
  intro slot otherSlot slots
  cases slot with
  | scalar cell => trivial
  | vector cells =>
      cases otherSlot with
      | scalar otherCell => trivial
      | vector otherCells => exact slots

/-- A name that is bound to agreeing slots keeps frames in agreement. -/
theorem Agrees.bind
    (id : ValueId)
    {slot otherSlot : Slot field}
    (slots : slot.Agrees aligned otherSlot) :
    (left.bind id slot).Agrees aligned (right.bind id otherSlot) := by
  intro number
  change Option.Rel (Slot.Agrees aligned) (left.slots.insert id.number.toNat slot)[number]?
    (right.slots.insert id.number.toNat otherSlot)[number]?
  rw [Std.TreeMap.getElem?_insert, Std.TreeMap.getElem?_insert]
  by_cases here : compare id.number.toNat number = .eq
  · rw [if_pos here, if_pos here]
    exact .some slots
  · rw [if_neg here, if_neg here]
    exact agrees number

end Frame

/-! ## Operands -/

/-- The positions of the operands that may hold an address. -/
def Opcode.addressPositions : Opcode → List Nat
  | .load | .friCosets => [0]
  | .gateArgument => [0, 3]
  | .lookupArgument => [8, 10, 12, 14, 16, 18, 20, 22, 24]
  | .param | .alloca | .select | .curveAdd => []

namespace Instruction

/-- If an operand is a cell in both machines, it holds the same value in both. -/
def AddressAgrees (instruction : Instruction) (left right : Machine field) (index : Nat) : Prop :=
  BothYield (instruction.scalar index left) (instruction.scalar index right)
    (fun cell other => cell.value = other.value)

/-- Every operand that an instruction follows as an address holds the same value in both. -/
def AddressesAgree (instruction : Instruction) (left right : Machine field) : Prop :=
  ∀ index ∈ instruction.opcode.addressPositions, instruction.AddressAgrees left right index

/-- Machines agree and, if the runs are aligned, so do the addresses of an instruction. -/
structure AgreesBefore
    (aligned : Prop)
    (instruction : Instruction)
    (left right : Machine field) :
    Prop where
  machines : left.Agrees aligned right
  addresses : aligned → instruction.AddressesAgree left right

variable (instruction : Instruction) {left right : Machine field}

/-- Cells that hold the same value hold the same address. -/
theorem addressOf_alike
    (index : Nat)
    {cell otherCell : Cell field}
    (values : aligned → cell.value = otherCell.value) :
    BothYield (instruction.addressOf index cell) (instruction.addressOf index otherCell)
      (fun pointer other => aligned → pointer = other) := by
  apply BothYield.of_aligned
  intro isAligned
  unfold addressOf
  rw [values isAligned]

variable (agrees : left.Agrees aligned right)

include agrees

/-- Two scalar operands agree. -/
theorem scalar_alike (index : Nat) :
    BothYield (instruction.scalar index left) (instruction.scalar index right)
      (Cell.Agrees aligned) := by
  apply BothYield.bind_same
  intro id
  exact Frame.scalar_alike agrees.frame id

/-- Two vector operands agree cell by cell. -/
theorem vector_alike (index : Nat) :
    BothYield (instruction.vector index left) (instruction.vector index right)
      (Cell.AllAgree aligned) := by
  apply BothYield.bind_same
  intro id
  exact Frame.vector_alike agrees.frame id

/-- Two pairs agree cell by cell. -/
theorem pair_alike (index : Nat) :
    BothYield (instruction.pair index left) (instruction.pair index right)
      (fun cells others =>
        cells.1.Agrees aligned others.1 ∧ cells.2.Agrees aligned others.2) := by
  apply (instruction.vector_alike agrees index).bind
  intro cells otherCells cellsAgree
  match cells, otherCells, cellsAgree with
  | [_, _], [_, _], .cons first (.cons second .nil) => exact ⟨first, second⟩
  | [], [], _ => trivial
  | [_], [_], _ => trivial
  | _ :: _ :: _ :: _, _ :: _ :: _ :: _, _ => trivial

omit agrees in
/-- Two addresses are the same if what the operand holds was asked to be. -/
theorem pointer_alike
    {index : Nat}
    (address : aligned → instruction.AddressAgrees left right index) :
    BothYield (instruction.pointer index left) (instruction.pointer index right)
      (fun pointer other => aligned → pointer = other) := by
  unfold AddressAgrees at address
  unfold pointer
  cases found : instruction.scalar index left with
  | error failure => trivial
  | ok cell =>
      cases otherFound : instruction.scalar index right with
      | error failure => exact BothYield.errorRight
      | ok otherCell =>
          rw [found, otherFound] at address
          exact instruction.addressOf_alike index address

/-- The cells of a vector, or those behind the address that a cell holds. -/
theorem inputVector_alike
    {index : Nat}
    (size : Nat)
    (address : aligned → instruction.AddressAgrees left right index) :
    BothYield (instruction.inputVector index size left)
      (instruction.inputVector index size right) (Cell.AllAgree aligned) := by
  unfold AddressAgrees scalar at address
  unfold inputVector
  cases named : instruction.valueId index with
  | error failure => trivial
  | ok id =>
      rw [named] at address
      have slots := Frame.lookup_alike agrees.frame id
      change aligned → BothYield (left.frame.scalar id) (right.frame.scalar id) _ at address
      change BothYield (left.frame.lookup id >>= _) (right.frame.lookup id >>= _) _
      unfold Frame.scalar at address
      generalize left.frame.lookup id = looked at slots address ⊢
      generalize right.frame.lookup id = otherLooked at slots address ⊢
      cases looked with
      | error failure => trivial
      | ok slot =>
          cases otherLooked with
          | error failure => exact BothYield.errorRight
          | ok otherSlot =>
              cases slot with
              | scalar cell =>
                  cases otherSlot with
                  | vector otherCells => exact slots.elim
                  | scalar otherCell =>
                      apply (instruction.addressOf_alike index address).bind
                      intro base otherBase bases
                      exact Memory.loadFrom_alike agrees.memory bases 0 size
              | vector cells =>
                  cases otherSlot with
                  | scalar otherCell => exact slots.elim
                  | vector otherCells =>
                      have lengths : cells.length = otherCells.length :=
                        List.Forall₂.length_eq slots
                      change BothYield (if cells.length = size then _ else _)
                        (if otherCells.length = size then _ else _) _
                      rw [lengths]
                      by_cases asDeclared : otherCells.length = size
                      · rw [if_pos asDeclared, if_pos asDeclared]
                        exact slots
                      · rw [if_neg asDeclared]
                        trivial

end Instruction

end Plonkish
