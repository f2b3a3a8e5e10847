import Plonkish.Field.Basic

namespace Plonkish

/-!
# Transcripts

A circuit is laid out in one list of cells. The transcript holds the value of
every cell, whether a gate starts at it, the pairs of cells that must be equal,
and the cells that are fixed to a constant. Layout only ever appends: a block
of consecutive cells is added at the end, with its gates and ties inside it.

A gate at a cell asks that the cell, plus the product of the next two, equals
the one after them.
-/

/-- A cell with the value it had when it was laid out. -/
structure Cell (field : PrimeField) where
  offset : Nat
  value : Element field
  deriving DecidableEq

/-- What a new cell is filled with. -/
inductive Source (field : PrimeField) where
  /-- The value of an earlier cell, to which the new one is tied. -/
  | existing (cell : Cell field)
  /-- A value that nothing else constrains. -/
  | witness (value : Element field)
  /-- A value to which the new cell is fixed. -/
  | constant (value : Element field)

namespace Source

variable {field : PrimeField}

/-- The value that a new cell gets. -/
def value : Source field → Element field
  | .existing cell => cell.value
  | .witness value => value
  | .constant value => value

instance : Coe (Cell field) (Source field) := ⟨.existing⟩

end Source

/-- The value of a cell, and whether a gate starts at it. -/
structure Row (field : PrimeField) where
  value : Element field
  gate : Bool
  deriving DecidableEq

/-- A new cell: what fills it, and whether a gate starts at it. -/
structure Entry (field : PrimeField) where
  source : Source field
  gate : Bool

namespace Entry

variable {field : PrimeField}

/-- A cell at which no gate starts. -/
def plain (source : Source field) : Entry field := ⟨source, false⟩

/-- A cell at which a gate starts. -/
def gated (source : Source field) : Entry field := ⟨source, true⟩

end Entry

/-- Consecutive new cells, with ties between them by position in the block. -/
structure Block (field : PrimeField) where
  entries : List (Entry field)
  ties : List (Nat × Nat)

/-- Everything that has been laid out. -/
structure Transcript (field : PrimeField) where
  rows : Array (Row field)
  copies : Array (Nat × Nat)
  constants : Array (Nat × Element field)
  deriving DecidableEq

namespace Transcript

variable {field : PrimeField}

def empty : Transcript field := ⟨#[], #[], #[]⟩

/-- The number of cells. -/
def size (transcript : Transcript field) : Nat :=
  transcript.rows.size

/-- Append one cell. -/
def push : Transcript field → Entry field → Transcript field
  | ⟨rows, copies, constants⟩, ⟨source, gate⟩ =>
      let offset := rows.size
      let rows := rows.push ⟨source.value, gate⟩
      match source with
      | .existing cell => ⟨rows, copies.push (offset, cell.offset), constants⟩
      | .witness _ => ⟨rows, copies, constants⟩
      | .constant value => ⟨rows, copies, constants.push (offset, value)⟩

/-- A pushed cell comes after all earlier ones. -/
@[simp] theorem size_push (transcript : Transcript field) (entry : Entry field) :
    (transcript.push entry).size = transcript.size + 1 := by
  obtain ⟨source, gate⟩ := entry
  cases source <;> simp [push, size]

/-- Ask that two cells are equal. -/
def tie : Transcript field → Nat → Nat → Transcript field
  | ⟨rows, copies, constants⟩, left, right => ⟨rows, copies.push (left, right), constants⟩

/-- A tie adds no cell. -/
@[simp] theorem size_tie (transcript : Transcript field) (left right : Nat) :
    (transcript.tie left right).size = transcript.size := rfl

/-- Append a block. -/
def lay (transcript : Transcript field) (block : Block field) : Transcript field :=
  let base := transcript.size
  block.ties.foldl (fun transcript (left, right) => transcript.tie (base + left) (base + right))
    (block.entries.foldl push transcript)

/-- A block adds as many cells as it has entries. -/
@[simp] theorem size_lay (transcript : Transcript field) (block : Block field) :
    (transcript.lay block).size = transcript.size + block.entries.length := by
  have entries : ∀ (entries : List (Entry field)) (start : Transcript field),
      (entries.foldl push start).size = start.size + entries.length := by
    intro entries
    induction entries with
    | nil => intro start; rfl
    | cons entry rest inductionHypothesis =>
        intro start
        simp [inductionHypothesis, Nat.add_assoc, Nat.add_comm 1]
  have ties : ∀ (base : Nat) (ties : List (Nat × Nat)) (start : Transcript field),
      (ties.foldl
        (fun transcript (left, right) => transcript.tie (base + left) (base + right))
        start).size = start.size := by
    intro base ties
    induction ties with
    | nil => intro start; rfl
    | cons tie rest inductionHypothesis => intro start; simp [inductionHypothesis]
  simp [lay, ties, entries]

/-- Overwrite the value of a cell; nothing that refers to it is changed. -/
def overwrite
    (transcript : Transcript field)
    (offset : Nat)
    (value : Element field) :
    Transcript field :=
  { transcript with rows := transcript.rows.modify offset fun row => { row with value } }

/-- The value of a cell. -/
def value? (transcript : Transcript field) (offset : Nat) : Option (Element field) :=
  transcript.rows[offset]?.map Row.value

/-- The offsets at which a gate starts, in ascending order. -/
def gates (transcript : Transcript field) : List Nat :=
  transcript.rows.toList.zipIdx.filterMap
    fun (row, offset) => if row.gate then some offset else none

end Transcript

/-- A computation that lays out cells. -/
abbrev Synthesis (field : PrimeField) := StateM (Transcript field)

end Plonkish
