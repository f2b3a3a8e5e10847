namespace Plonkish

/-!
# Computations that end early

A computation may refuse its input with a report. It may also break one of its
own preconditions, in which case there is no report: nothing about its state is
promised any more, and whoever drives it gives up.
-/

/-- How a computation ends without a result. -/
inductive Stop (ε : Type) where
  | report (error : ε)
  | crash
  deriving DecidableEq

namespace Stop

/-- The same ending with another report. -/
def map (change : ε → δ) : Stop ε → Stop δ
  | .report error => .report (change error)
  | .crash => .crash

end Stop

end Plonkish
