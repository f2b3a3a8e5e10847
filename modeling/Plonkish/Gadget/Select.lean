import Plonkish.Circuit.Operation

namespace Plonkish

/-!
# Selection

The first of two cells if a condition is not zero, and the second if it is. The
condition may be any element: it is turned into a bit first, and the bit tells
whether it is zero, so the second cell is the one that a set bit selects.
-/

namespace Gadget

variable {field : PrimeField}

/-- Choose between two cells by a condition. -/
def select (condition whenTrue whenFalse : Cell field) : Synthesis field (Cell field) := do
  let isZero ← Synthesis.isZero condition
  Synthesis.select whenFalse whenTrue isZero

end Gadget

end Plonkish
