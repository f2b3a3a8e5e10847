namespace Plonkish

/-!
# Failures of circuits

Why a policy, a shape or an input is refused, why a transcript has no layout,
and that a circuit is not satisfied.
-/

/-- What is wrong with a policy. -/
inductive PolicyFault where
  | sizeOutOfRange (k : Nat)
  | noUsableRows (minimumRows : Nat) (k : Nat)
  | noColumns
  deriving DecidableEq

/-- The largest size of a circuit, as the logarithm of its rows. -/
def largestSize : Nat := 26

namespace PolicyFault

def message : PolicyFault → String
  | .sizeOutOfRange k =>
      "k = " ++ toString k ++ " outside 1..=" ++ toString largestSize
  | .noUsableRows minimumRows k =>
      toString minimumRows ++ " reserved rows leave no usable rows at k = " ++ toString k
  | .noColumns => "column limits must be positive"

end PolicyFault

/-- What is wrong with the shape of a gadget. -/
inductive ShapeFault where
  | cosetLengths (resultLength : Nat) (totalBits : Nat)
  | noGates
  | gateSizesOverflow
  | lookupGates (declared : Nat) (found : Nat)
  | lookupTables (declared : Nat) (options : Nat) (columns : Nat)
  | lookupSizesOverflow
  | lookupInputs (constraints : Nat) (found : Nat)
  deriving DecidableEq

namespace ShapeFault

def message : ShapeFault → String
  | .cosetLengths resultLength totalBits =>
      "fri cosets need 1 <= result_length <= total_bits <= 64, got "
        ++ toString resultLength ++ " and " ++ toString totalBits
  | .noGates => "gate argument verifier needs at least one gate"
  | .gateSizesOverflow => "gate sizes overflow"
  | .lookupGates declared found =>
      "lookup gate size " ++ toString declared ++ " but " ++ toString found
        ++ " constraint sizes"
  | .lookupTables declared options columns =>
      "lookup table size " ++ toString declared ++ " but " ++ toString options
        ++ " option sizes and " ++ toString columns ++ " column numbers"
  | .lookupSizesOverflow => "lookup sizes overflow"
  | .lookupInputs constraints found =>
      toString constraints ++ " lookup constraints but " ++ toString found
        ++ " lookup input sizes"

end ShapeFault

/-- Why a circuit is not built or not accepted. -/
inductive CircuitFailure where
  | layout (needed : Nat) (available : Nat)
  | policy (fault : PolicyFault)
  | shape (fault : ShapeFault)
  | inputLength (name : String) (expected : Nat) (found : Nat)
  /-- The digits are those of the bytes of the value, least significant byte first. -/
  | valueRange (digits : String) (bits : Nat)
  | unsatisfied
  deriving DecidableEq

namespace CircuitFailure

/-- The message for readers; that a circuit is not satisfied has none. -/
def message? : CircuitFailure → Option String
  | .layout needed available =>
      some ("circuit needs " ++ toString needed ++ " advice columns, the policy allows "
        ++ toString available)
  | .policy fault => some ("invalid policy: " ++ fault.message)
  | .shape fault => some ("invalid component parameters: " ++ fault.message)
  | .inputLength name expected found =>
      some ("input \x60" ++ name ++ "\x60 has " ++ toString found
        ++ " elements, component expects " ++ toString expected)
  | .valueRange digits bits =>
      some ("value 0x" ++ digits ++ " does not fit in " ++ toString bits ++ " bits")
  | .unsatisfied => none

end CircuitFailure

end Plonkish
