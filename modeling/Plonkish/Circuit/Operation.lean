import Plonkish.Circuit.Failure
import Plonkish.Circuit.Transcript
import Plonkish.Stop

namespace Plonkish

/-!
# Operations

The arithmetic of cells. Each operation lays out one block whose gates, ties and
constants force its result from its operands, and gives the cell of the result.
Division is the exception in both respects: it crashes on a divisor of zero,
and only a divisor that is not zero forces the quotient.
-/

/-- A computation that lays out cells, and may refuse its input or crash. -/
abbrev Assembly (field : PrimeField) := ExceptT (Stop CircuitFailure) (Synthesis field)

namespace Synthesis

variable {field : PrimeField}

/-- Append a block; the offset of its first cell. -/
def lay (entries : List (Entry field)) (ties : List (Nat × Nat)) : Synthesis field Nat :=
  fun transcript => (transcript.size, transcript.lay ⟨entries, ties⟩)

/-- A cell with a value of the prover's choice. -/
def witness (value : Element field) : Synthesis field (Cell field) := do
  let base ← lay [.plain (.witness value)] []
  return ⟨base, value⟩

/-- Cells with values of the prover's choice. -/
def witnesses (values : List (Element field)) : Synthesis field (List (Cell field)) :=
  values.mapM witness

/-- A cell that is fixed to a value. -/
def constant (value : Element field) : Synthesis field (Cell field) := do
  let base ← lay [.plain (.constant value)] []
  return ⟨base, value⟩

/-- Ask that two cells are equal. -/
def equate (left right : Cell field) : Synthesis field Unit :=
  modify fun transcript => transcript.tie left.offset right.offset

/-- The sum. -/
def add (left right : Source field) : Synthesis field (Cell field) := do
  let sum := left.value + right.value
  let base ← lay
    [.gated left, .plain right, .plain (.constant 1), .plain (.witness sum)] []
  return ⟨base + 3, sum⟩

/-- The difference. -/
def sub (left right : Source field) : Synthesis field (Cell field) := do
  let difference := left.value - right.value
  let base ← lay
    [.gated (.witness difference), .plain right, .plain (.constant 1), .plain left] []
  return ⟨base, difference⟩

/-- The opposite. -/
def neg (operand : Source field) : Synthesis field (Cell field) := do
  let opposite := -operand.value
  let base ← lay
    [.gated operand, .plain (.witness opposite), .plain (.constant 1), .plain (.constant 0)] []
  return ⟨base + 1, opposite⟩

/-- The product. -/
def mul (left right : Source field) : Synthesis field (Cell field) := do
  let product := left.value * right.value
  let base ← lay
    [.gated (.constant 0), .plain left, .plain right, .plain (.witness product)] []
  return ⟨base + 3, product⟩

/-- The product of two operands, plus a third. -/
def mulAdd (left right addend : Source field) : Synthesis field (Cell field) := do
  let sum := left.value * right.value + addend.value
  let base ← lay [.gated addend, .plain left, .plain right, .plain (.witness sum)] []
  return ⟨base + 3, sum⟩

/-- The negation of a bit. -/
def not (bit : Source field) : Synthesis field (Cell field) :=
  sub (.constant 1) bit

/-- The conjunction of two bits. -/
def and (left right : Source field) : Synthesis field (Cell field) :=
  mul left right

/-- The disjunction of two bits. -/
def or (left right : Source field) : Synthesis field (Cell field) := do
  let opposite := 1 - right.value
  let result := left.value + right.value - left.value * right.value
  let base ← lay
    [.gated (.witness opposite), .plain (.constant 1), .plain right, .plain (.constant 1),
      .gated right, .plain left, .plain (.witness opposite), .plain (.witness result)]
    [(0, 6), (2, 4)]
  return ⟨base + 7, result⟩

/-- The first operand if a bit is set, and the second if it is not. -/
def select (set unset bit : Source field) : Synthesis field (Cell field) := do
  let difference := set.value - unset.value
  let result := difference * bit.value + unset.value
  let base ← lay
    [.gated (.witness difference), .plain (.constant 1), .plain unset, .plain set,
      .gated unset, .plain bit, .plain (.witness difference), .plain (.witness result)]
    [(0, 6), (2, 4)]
  return ⟨base + 7, result⟩

/-- Whether an operand is zero, as a bit. -/
def isZero (operand : Source field) : Synthesis field (Cell field) := do
  let zero := operand.value = 0
  let bit : Element field := if zero then 1 else 0
  let inverse := if zero then 1 else operand.value.inverse
  let base ← lay
    [.gated (.witness bit), .plain operand, .plain (.witness inverse), .plain (.constant 1),
      .gated (.constant 0), .plain operand, .plain (.witness bit), .plain (.constant 0)]
    [(0, 6)]
  return ⟨base + 6, bit⟩

/-- Whether two operands are equal, as a bit. -/
def isEqual (left right : Source field) : Synthesis field (Cell field) := do
  isZero (← sub left right)

/-- The sum of products, starting from a value. -/
def sumOfProducts
    (start : Element field)
    (pairs : List (Source field × Source field)) :
    Element field :=
  pairs.foldl (fun sum (left, right) => sum + left.value * right.value) start

/-- Three cells for each pair: its two parts, and the sum so far, where the next gate starts. -/
def productEntries (sum : Element field) :
    List (Source field × Source field) → List (Entry field)
  | [] => []
  | (left, right) :: rest =>
      let next := sum + left.value * right.value
      .plain left :: .plain right :: ⟨.witness next, !rest.isEmpty⟩ :: productEntries next rest

/--
Begin an inner product: what its first cell holds, and the pairs that remain.

A first pair whose second part is the constant one is the first cell itself.
-/
def productStart
    (pairs : List (Source field × Source field)) :
    Source field × List (Source field × Source field) :=
  match pairs with
  | (left, .constant value) :: rest =>
      if value = 1 then (left, rest) else (.constant 0, pairs)
  | _ => (.constant 0, pairs)

/-- The sum of the products of the pairs. -/
def innerProduct (pairs : List (Source field × Source field)) : Synthesis field (Cell field) := do
  let (start, rest) := productStart pairs
  let base ← lay (⟨start, !rest.isEmpty⟩ :: productEntries start.value rest) []
  return ⟨base + 3 * rest.length, sumOfProducts start.value rest⟩

/-- Ask that a cell holds zero or one. -/
def assertBit (bit : Cell field) : Synthesis field Unit := do
  let _ ← lay [.gated (.constant 0), .plain bit, .plain bit, .plain bit] []

/-- The quotient by a divisor that is not zero. -/
def quotient (dividend divisor : Source field) : Synthesis field (Cell field) := do
  let result := dividend.value.divide divisor.value
  let base ← lay
    [.gated (.constant 0), .plain (.witness result), .plain divisor, .plain dividend] []
  return ⟨base + 1, result⟩

/-- An element that is zero or one. -/
def bitElement (set : Bool) : Element field :=
  if set then 1 else 0

/-- The bits of a value, least significant first. -/
def bitElements (value : Element field) (width : Nat) : List (Element field) :=
  (List.range width).map fun index => bitElement (value.value.testBit index)

/-- The powers of two, beginning with one. -/
def powersOfTwo (field : PrimeField) (width : Nat) : List (Element field) :=
  (List.range width).map fun index => Element.ofNat field (1 <<< index)

/-- Where a bit sits in the inner product of the bits with the powers of two. -/
def bitPosition (index : Nat) : Nat :=
  3 * index - 2

/-- The bits of the value of a cell; a value with further bits cannot satisfy the circuit. -/
def bits (cell : Cell field) (width : Nat) : Synthesis field (List (Cell field)) := do
  let elements := bitElements cell.value width
  let base := (← get).size
  let sum ← innerProduct
    ((elements.map Source.witness).zip ((powersOfTwo field width).map Source.constant))
  equate cell sum
  let bits := elements.mapIdx fun index element => Cell.mk (base + bitPosition index) element
  bits.forM assertBit
  return bits

end Synthesis

namespace Assembly

variable {field : PrimeField}

/-- Refuse the input. -/
def refuse (failure : CircuitFailure) : Assembly field α :=
  throw (.report failure)

/-- Give up. -/
def crash : Assembly field α :=
  throw .crash

/-- The quotient; crashes if the divisor is zero. -/
def divide (dividend divisor : Source field) : Assembly field (Cell field) :=
  if divisor.value = 0 then crash else Synthesis.quotient dividend divisor

/-- The bits of a value, of which there is at least one, and none above those of the modulus. -/
def toBits (cell : Cell field) (width : Nat) : Assembly field (List (Cell field)) :=
  if width = 0 ∨ field.bits < width then crash else Synthesis.bits cell width

end Assembly

end Plonkish
