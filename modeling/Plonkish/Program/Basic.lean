import Plonkish.Program.Kind

namespace Plonkish

/-!
# Programs

A program is a list of instructions, each of which defines one value, together
with the inputs that its `param` instructions bind. An operand is a value that
an earlier instruction defined, with its declared type, or a constant.
-/

/-- The name of a value: of the result of one instruction. -/
structure ValueId where
  number : UInt32
  deriving DecidableEq

/-- The name as it is written in messages. -/
def ValueId.label (id : ValueId) : String :=
  "%" ++ toString id.number.toNat

/-- A constant operand. -/
inductive Constant where
  /-- A size, a count or an offset. -/
  | integer (value : UInt64)
  /-- An element of a declared field, in decimal. -/
  | field (kind : FieldKind) (digits : String)
  /-- A list of sizes. -/
  | array (values : List UInt64)
  deriving DecidableEq

/-- An operand of an instruction. -/
inductive Operand where
  | value (id : ValueId) (type : ValueType)
  | constant (content : Constant)
  deriving DecidableEq

namespace Operand

/-- The value that an operand refers to. -/
def valueId? : Operand → Option ValueId
  | .value id _ => some id
  | .constant _ => none

/-- The declared type of the value that an operand refers to. -/
def type? : Operand → Option ValueType
  | .value _ type => some type
  | .constant _ => none

end Operand

/-- What an instruction does. -/
inductive Opcode where
  /-- Bind a program input. -/
  | param
  /-- Reserve cells of program memory. -/
  | alloca
  /-- Read a cell of program memory. -/
  | load
  /-- Choose between two values by a condition. -/
  | select
  /-- Add two points of a curve. -/
  | curveAdd
  /-- Compute the cosets of a folding index. -/
  | friCosets
  /-- Evaluate a gate argument. -/
  | gateArgument
  /-- Evaluate a lookup argument. -/
  | lookupArgument
  deriving DecidableEq

namespace Opcode

def all : List Opcode :=
  [.param, .alloca, .load, .select, .curveAdd, .friCosets, .gateArgument, .lookupArgument]

/-- The number of operands, which are told apart by their position. -/
def arity : Opcode → Nat
  | .param | .alloca => 1
  | .load | .curveAdd => 2
  | .select => 3
  | .friCosets => 5
  | .gateArgument => 6
  | .lookupArgument => 33

def label : Opcode → String
  | .param => "param"
  | .alloca => "alloca"
  | .load => "load"
  | .select => "select"
  | .curveAdd => "curve_add"
  | .friCosets => "fri_cosets"
  | .gateArgument => "gate_arg_verifier"
  | .lookupArgument => "lookup_arg_verifier"

end Opcode

/-- An instruction, which defines the value `id`. -/
structure Instruction where
  id : ValueId
  opcode : Opcode
  operands : List Operand
  deriving DecidableEq

/-- A value supplied for `param` instructions; all elements are in decimal. -/
inductive InputValue where
  /-- One element. -/
  | field (element : String)
  /-- A vector of elements, bound as it is. -/
  | vector (elements : List String)
  /-- An affine point. -/
  | curve (x : String) (y : String)
  /-- Elements that are placed in program memory and passed by their address. -/
  | array (elements : List String)
  deriving DecidableEq

/-- The elements of an input in order. -/
def InputValue.elements : InputValue → List String
  | .field element => [element]
  | .vector elements => elements
  | .curve x y => [x, y]
  | .array elements => elements

/-- A complete program. -/
structure Program where
  inputs : List InputValue
  instructions : List Instruction
  deriving DecidableEq

/-- The program without any instruction. -/
def Program.empty : Program := ⟨[], []⟩

end Plonkish
