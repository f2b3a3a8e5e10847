import Std.Data.TreeMap
import Plonkish.Circuit.Transcript
import Plonkish.Machine.Failure

namespace Plonkish

/-!
# Frames

A frame binds the values of a program to cells. A later binding of a name
replaces the earlier one.
-/

/-- What a name is bound to. -/
inductive Slot (field : PrimeField) where
  | scalar (cell : Cell field)
  | vector (cells : List (Cell field))
  deriving DecidableEq

namespace Slot

variable {field : PrimeField}

/-- Whether a slot holds one cell or a vector of cells. -/
def kind : Slot field → SlotKind
  | .scalar _ => .scalar
  | .vector _ => .vector

/-- The cells of a slot. -/
def cells : Slot field → List (Cell field)
  | .scalar cell => [cell]
  | .vector cells => cells

end Slot

/-- The bindings of names, by their numbers. -/
structure Frame (field : PrimeField) where
  slots : Std.TreeMap Nat (Slot field)

namespace Frame

variable {field : PrimeField}

def empty : Frame field := ⟨∅⟩

/-- Bind a name. -/
def bind (frame : Frame field) (id : ValueId) (slot : Slot field) : Frame field :=
  ⟨frame.slots.insert id.number.toNat slot⟩

/-- What a name is bound to. -/
def get? (frame : Frame field) (id : ValueId) : Option (Slot field) :=
  frame.slots[id.number.toNat]?

/-- A name that was just bound is bound to that slot, and every other name as before. -/
theorem get?_bind (frame : Frame field) (id other : ValueId) (slot : Slot field) :
    (frame.bind id slot).get? other = if id = other then some slot else frame.get? other := by
  have numbers : id.number.toNat = other.number.toNat ↔ id = other := by
    rw [UInt32.toNat_inj]
    exact ⟨fun same => congrArg ValueId.mk same, fun same => congrArg ValueId.number same⟩
  simp only [bind, get?, Std.TreeMap.getElem?_insert, Nat.compare_eq_eq, numbers]

/-- The number of bound names. -/
def size (frame : Frame field) : Nat :=
  frame.slots.size

/-- What a name is bound to; it has to be bound. -/
def lookup (frame : Frame field) (id : ValueId) : Except Failure (Slot field) :=
  match frame.get? id with
  | some slot => .ok slot
  | none => .error (.missingSymbol id)

/-- The cell that a name is bound to. -/
def scalar (frame : Frame field) (id : ValueId) : Except Failure (Cell field) := do
  match ← frame.lookup id with
  | .scalar cell => .ok cell
  | .vector _ => .error (.symbolKind id .scalar .vector)

/-- The cells of the vector that a name is bound to. -/
def vector (frame : Frame field) (id : ValueId) : Except Failure (List (Cell field)) := do
  match ← frame.lookup id with
  | .vector cells => .ok cells
  | .scalar _ => .error (.symbolKind id .vector .scalar)

end Frame

end Plonkish
