import Plonkish.Circuit.Failure
import Plonkish.Program.Validity

namespace Plonkish

/-!
# Failures of translation

Why an instruction is refused, as causes with their data; the wording of all
messages is in one place for each kind of cause.
-/

/-- What a name of the frame stands for. -/
inductive SlotKind where
  | scalar
  | vector
  deriving DecidableEq

def SlotKind.label : SlotKind → String
  | .scalar => "scalar"
  | .vector => "vector"

/-- Why memory is not accessed. -/
inductive MemoryFault where
  | null
  | outOfBounds
  | uninitialized
  | exhausted
  deriving DecidableEq

def MemoryFault.message : MemoryFault → String
  | .null => "null pointer"
  | .outOfBounds => "out of bounds"
  | .uninitialized => "cell was never stored"
  | .exhausted => "allocation exceeds the memory limit"

/-- Text between backticks. -/
def quoted (text : String) : String :=
  "\x60" ++ text ++ "\x60"

/-- What is wrong with an operand. -/
inductive OperandFault where
  | missing (given : Nat)
  | constantForValue
  | valueForConstant (id : ValueId)
  | notSize (text : String)
  | arrayForSize
  | notArray
  | notDecimal (text : String)
  | arrayForElement
  /-- The digits are those of the bytes of the value, least significant byte first. -/
  | notPointer (digits : String)
  | inputNotDecimal (index : Nat) (text : String)
  | notPoint (type : Option ValueType)
  | otherCurve (found : CurveKind) (expected : CurveKind)
  deriving DecidableEq

namespace OperandFault

def message : OperandFault → String
  | .missing given => "missing, " ++ toString given ++ " operands given"
  | .constantForValue => "expected a value, found a constant"
  | .valueForConstant id => "expected a constant, found " ++ id.label
  | .notSize text => quoted text ++ " is not a size"
  | .arrayForSize => "expected a size, found an array"
  | .notArray => "expected an array constant"
  | .notDecimal text => quoted text ++ " is not a decimal field element"
  | .arrayForElement => "expected a field constant, found an array"
  | .notPointer digits => digits ++ " does not hold a pointer"
  | .inputNotDecimal index text =>
      "input " ++ toString index ++ " holds " ++ quoted text ++ ", not a decimal field element"
  | .notPoint (some type) => "expected a curve point, found Some(" ++ type.description ++ ")"
  | .notPoint none => "expected a curve point, found None"
  | .otherCurve found expected =>
      "cannot add a " ++ found.label ++ " point to a " ++ expected.label ++ " point"

end OperandFault

/-- Which sizes do not agree. -/
inductive SizeFault where
  | vectorLength (opcode : Opcode) (index : Nat) (found : Nat) (expected : Nat)
  | gateSizes (gates : Nat) (sizes : Nat) (constraints : Nat) (sum : Option Nat)
  | tableSizes (first : Nat) (repeated : Nat)
  | lookupConstraints (declared : Nat) (sum : Nat)
  | resultCell (pointer : Nat) (found : Nat) (expected : Nat)
  deriving DecidableEq

namespace SizeFault

def message : SizeFault → String
  | .vectorLength opcode index found expected =>
      opcode.label ++ " operand " ++ toString index ++ " has " ++ toString found
        ++ " elements, expected " ++ toString expected
  | .gateSizes gates sizes constraints sum =>
      let sum :=
        match sum with
        | some sum => toString sum
        | none => "overflow"
      "gates amount " ++ toString gates ++ ", sizes amount " ++ toString sizes
        ++ ", constraints " ++ toString constraints ++ ", sizes sum " ++ sum
  | .tableSizes first repeated =>
      "table size " ++ toString first ++ ", repeated as " ++ toString repeated
  | .lookupConstraints declared sum =>
      toString declared ++ " lookup constraints, gate constraint sizes sum to " ++ toString sum
  | .resultCell pointer found expected =>
      "result cell " ++ toString pointer ++ " holds " ++ toString found
        ++ " bytes, expected " ++ toString expected

end SizeFault

/-- What cannot be translated. -/
inductive Limitation where
  /-- A constant of a field other than that of the circuit. -/
  | foreignConstant (kind : FieldKind)
  /-- Addition on a curve over the field of the circuit, or over another field. -/
  | addition (native : Bool) (kind : CurveKind)
  deriving DecidableEq

namespace Limitation

def message : Limitation → String
  | .foreignConstant kind => "non-native " ++ kind.label ++ " constant"
  | .addition true kind => "native " ++ kind.label ++ " addition"
  | .addition false kind => "non-native " ++ kind.label ++ " addition"

end Limitation

/-- Why a program is not translated. -/
inductive Failure where
  | missingSymbol (id : ValueId)
  | symbolKind (id : ValueId) (expected : SlotKind) (found : SlotKind)
  | operand (opcode : Opcode) (index : Nat) (fault : OperandFault)
  | size (fault : SizeFault)
  | unimplemented (limitation : Limitation)
  | memory (pointer : Nat) (fault : MemoryFault)
  | unknownInput (index : Nat)
  | circuit (failure : CircuitFailure)
  | defect (fault : Defect)
  deriving DecidableEq

namespace Failure

/-- The message for readers; that a circuit is not satisfied has none. -/
def message? : Failure → Option String
  | .missingSymbol id => some ("value " ++ id.label ++ " is not bound in the stack frame")
  | .symbolKind id expected found =>
      some ("value " ++ id.label ++ " is bound as a " ++ found.label ++ ", expected a "
        ++ expected.label)
  | .operand opcode index fault =>
      some (opcode.label ++ " operand " ++ toString index ++ ": " ++ fault.message)
  | .size fault => some ("size mismatch: " ++ fault.message)
  | .unimplemented limitation => some ("not implemented: " ++ limitation.message)
  | .memory pointer fault =>
      some ("memory access at " ++ toString pointer ++ ": " ++ fault.message)
  | .unknownInput index => some ("program has no input " ++ toString index)
  | .circuit failure => failure.message?
  | .defect fault => some fault.message

end Failure

end Plonkish
