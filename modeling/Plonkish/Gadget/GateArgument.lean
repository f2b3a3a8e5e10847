import Plonkish.Gadget.Sizes

namespace Plonkish

/-!
# Gate arguments

The constraints of all gates are combined with consecutive powers of a
challenge, beginning with its zeroth power. The result is the sum over the gates
of the combined constraints of a gate, times its selector.
-/

/-- How many constraints each gate has. -/
structure GateShape where
  sizes : List UInt64
  total : Nat
  deriving DecidableEq

namespace GateShape

/-- The shape, if there is a gate and the number of constraints is a size. -/
def make (sizes : List UInt64) : Except CircuitFailure GateShape :=
  if sizes.isEmpty then
    .error (.shape .noGates)
  else
    match Sizes.total? sizes with
    | some total => .ok { sizes, total }
    | none => .error (.shape .gateSizesOverflow)

end GateShape

/-- The cells of a gate argument. -/
structure GateCells (field : PrimeField) where
  challenge : Cell field
  constraints : List (Cell field)
  selectors : List (Cell field)

namespace Gadget

variable {field : PrimeField}

/-- A cell, and its products with further powers of a challenge. -/
def geometric
    (challenge : Cell field)
    (first : Cell field) :
    Nat → Synthesis field (List (Cell field))
  | 0 => return [first]
  | count + 1 => do
      let next ← Synthesis.mul first challenge
      return first :: (← geometric challenge next count)

/-- As many powers of a challenge as asked for, from its zeroth power on. -/
def powersFromZero (challenge : Cell field) : Nat → Synthesis field (List (Cell field))
  | 0 => return []
  | count + 1 => do geometric challenge (← Synthesis.constant 1) count

/-- The inner product of cells. -/
def innerProductOfCells (left right : List (Cell field)) : Synthesis field (Cell field) :=
  Synthesis.innerProduct ((left.map Source.existing).zip (right.map Source.existing))

/-- The combined constraints of each gate. -/
def combineGates
    (constraints powers : List (Cell field)) :
    List UInt64 → Assembly field (List (Cell field))
  | [] => return []
  | size :: rest => do
      let (ownConstraints, laterConstraints) ← Assembly.split size.toNat constraints
      let (ownPowers, laterPowers) ← Assembly.split size.toNat powers
      let combined ← innerProductOfCells ownConstraints ownPowers
      return combined :: (← combineGates laterConstraints laterPowers rest)

/-- Evaluate a gate argument. -/
def gateArgument (shape : GateShape) (input : GateCells field) : Assembly field (Cell field) := do
  Assembly.checkLength "constraints" shape.total input.constraints
  Assembly.checkLength "selectors" shape.sizes.length input.selectors
  let powers ← powersFromZero input.challenge shape.total
  let combined ← combineGates input.constraints powers shape.sizes
  innerProductOfCells input.selectors combined

end Gadget

end Plonkish
