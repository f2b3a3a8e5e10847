import Plonkish.Circuit.Operation
import Plonkish.Field.Text

namespace Plonkish

/-!
# Cosets of a folding index

An index of `totalBits` bits selects a power of a root of unity. In each round
the pair of that power and its opposite is given, ordered by the bit of the
round, most significant first, and the power is squared for the next round.
An index that needs more bits is refused before anything is laid out.
-/

/-- How many rounds there are, and how many bits an index has. -/
structure CosetShape (field : PrimeField) where
  resultLength : Nat
  totalBits : Nat
  root : Element field
  deriving DecidableEq

namespace CosetShape

variable {field : PrimeField}

/-- The shape, if there is a round, and a bit for each round, in at most 64 bits. -/
def make
    (resultLength totalBits : Nat)
    (root : Element field) :
    Except CircuitFailure (CosetShape field) :=
  if resultLength = 0 ∨ totalBits < resultLength ∨ 64 < totalBits then
    .error (.shape (.cosetLengths resultLength totalBits))
  else
    .ok { resultLength, totalBits, root }

end CosetShape

/-- What a round gives: a member of the coset, its opposite, and the bit of the round. -/
structure CosetCells (field : PrimeField) where
  member : Cell field
  opposite : Cell field
  bit : Cell field
  deriving DecidableEq

namespace CosetCells

variable {field : PrimeField}

/-- The cells of a round in order. -/
def toList (round : CosetCells field) : List (Cell field) :=
  [round.member, round.opposite, round.bit]

end CosetCells

namespace Gadget

variable {field : PrimeField}

/-- The power of a root by bits, most significant first, of which some were taken already. -/
def powerOfRoot
    (root : Element field)
    (power : Cell field) :
    List (Cell field) → Synthesis field (Cell field)
  | [] => return power
  | bit :: rest => do
      let factor ← Synthesis.mulAdd bit (.constant (root - 1)) (.constant 1)
      let square ← Synthesis.mul power power
      let next ← Synthesis.mul square factor
      powerOfRoot root next rest

/-- The members of the coset in one round. -/
def cosetRound (power bit : Cell field) : Synthesis field (CosetCells field) := do
  let opposite ← Synthesis.neg power
  let member ← Synthesis.select opposite power bit
  let opposite ← Synthesis.neg member
  return { member, opposite, bit }

/-- One round for each bit, where the power is squared between rounds. -/
def cosetRounds (power : Cell field) : List (Cell field) → Synthesis field (List (CosetCells field))
  | [] => return []
  | [bit] => return [← cosetRound power bit]
  | bit :: rest => do
      let round ← cosetRound power bit
      let square ← Synthesis.mul power power
      let rounds ← cosetRounds square rest
      return round :: rounds

/-- Whether a value can be written with a number of bits, of which there are at most 64. -/
def fitsIn (value : Element field) (bits : Nat) : Bool :=
  value.value < 1 <<< 64 && (bits = 64 || value.value >>> bits = 0)

/-- The cosets of the rounds of an index. -/
def cosets (shape : CosetShape field) (index : Cell field) :
    Assembly field (List (CosetCells field)) := do
  if fitsIn index.value shape.totalBits then
    let bits ← Assembly.toBits index shape.totalBits
    let one ← Synthesis.constant (1 : Element field)
    let power ← powerOfRoot shape.root one bits.reverse
    cosetRounds power (bits.reverse.take shape.resultLength)
  else
    Assembly.refuse (.valueRange index.value.toHex shape.totalBits)

end Gadget

end Plonkish
