import Plonkish.Json.Basic

namespace Plonkish

/-!
# Declared types

What a program says about its values: the prime fields and the curves it names,
and the types of operands. A declared field need not be the one in which the
circuit is written; whether it is depends on its modulus alone.
-/

/-- A prime field that a program can name. -/
inductive FieldKind where
  | pallasBase
  | vestaBase
  | bn254Base
  | bn254Scalar
  | secp256k1Base
  | bls12381Base
  | curve25519Base
  deriving DecidableEq

namespace FieldKind

def all : List FieldKind :=
  [.pallasBase, .vestaBase, .bn254Base, .bn254Scalar, .secp256k1Base, .bls12381Base,
    .curve25519Base]

/-- The modulus in hexadecimal, most significant digit first. -/
def modulusText : FieldKind → String
  | .pallasBase => "0x40000000000000000000000000000000224698fc094cf91b992d30ed00000001"
  | .vestaBase => "0x40000000000000000000000000000000224698fc0994a8dd8c46eb2100000001"
  | .bn254Base => "0x30644e72e131a029b85045b68181585d97816a916871ca8d3c208c16d87cfd47"
  | .bn254Scalar => "0x30644e72e131a029b85045b68181585d2833e84879b9709143e1f593f0000001"
  | .secp256k1Base => "0xfffffffffffffffffffffffffffffffffffffffffffffffffffffffefffffc2f"
  | .bls12381Base =>
      "0x1a0111ea397fe69a4b1ba7b6434bacd764774b84f38512bf6730d2a0f6b0f6241eabfffeb153ffffb9feffffffffaaab"
  | .curve25519Base => "0x7fffffffffffffffffffffffffffffffffffffffffffffffffffffffffffffed"

def label : FieldKind → String
  | .pallasBase => "pallas base field"
  | .vestaBase => "vesta base field"
  | .bn254Base => "bn254 base field"
  | .bn254Scalar => "bn254 scalar field"
  | .secp256k1Base => "secp256k1 base field"
  | .bls12381Base => "bls12-381 base field"
  | .curve25519Base => "curve25519 base field"

def code : FieldKind → String
  | .pallasBase => "pallas_base"
  | .vestaBase => "vesta_base"
  | .bn254Base => "bn254_base"
  | .bn254Scalar => "bn254_scalar"
  | .secp256k1Base => "secp256k1_base"
  | .bls12381Base => "bls12381_base"
  | .curve25519Base => "curve25519_base"

/-- The name in diagnostics of declared types. -/
def constructorName : FieldKind → String
  | .pallasBase => "PallasBase"
  | .vestaBase => "VestaBase"
  | .bn254Base => "Bn254Base"
  | .bn254Scalar => "Bn254Scalar"
  | .secp256k1Base => "Secp256k1Base"
  | .bls12381Base => "Bls12381Base"
  | .curve25519Base => "Curve25519Base"

def toJson (kind : FieldKind) : Json :=
  .text kind.code

def ofJson? (document : Json) : Option FieldKind := do
  let (name, payload) ← document.variant?
  let kind ← all.find? (·.code = name)
  payload.unit?
  return kind

end FieldKind

/-- A family of elliptic curves that a program can name. -/
inductive CurveKind where
  | pallas
  | vesta
  | bn254
  | secp256k1
  | bls12381
  | curve25519
  deriving DecidableEq

namespace CurveKind

def all : List CurveKind :=
  [.pallas, .vesta, .bn254, .secp256k1, .bls12381, .curve25519]

/-- The field of the coordinates. -/
def baseField : CurveKind → FieldKind
  | .pallas => .pallasBase
  | .vesta => .vestaBase
  | .bn254 => .bn254Base
  | .secp256k1 => .secp256k1Base
  | .bls12381 => .bls12381Base
  | .curve25519 => .curve25519Base

def label : CurveKind → String
  | .pallas => "pallas"
  | .vesta => "vesta"
  | .bn254 => "bn254"
  | .secp256k1 => "secp256k1"
  | .bls12381 => "bls12381"
  | .curve25519 => "curve25519"

/-- The name in diagnostics of declared types. -/
def constructorName : CurveKind → String
  | .pallas => "Pallas"
  | .vesta => "Vesta"
  | .bn254 => "Bn254"
  | .secp256k1 => "Secp256k1"
  | .bls12381 => "Bls12381"
  | .curve25519 => "Curve25519"

def toJson (kind : CurveKind) : Json :=
  .text kind.label

def ofJson? (document : Json) : Option CurveKind := do
  let (name, payload) ← document.variant?
  let kind ← all.find? (·.label = name)
  payload.unit?
  return kind

end CurveKind

/-- The declared type of an operand. -/
inductive ValueType where
  /-- A single element of a prime field. -/
  | field (kind : FieldKind)
  /-- An affine point, held as the vector of its two coordinates. -/
  | curve (kind : CurveKind)
  /-- An integer of some bit width. -/
  | integer (bits : UInt32)
  /-- An address of program memory. -/
  | pointer
  /-- A vector of elements of the circuit's own field. -/
  | vector (length : UInt64)
  deriving DecidableEq

namespace ValueType

def label : ValueType → String
  | .field kind => "field<" ++ kind.label ++ ">"
  | .curve kind => "curve<" ++ kind.label ++ ">"
  | .integer bits => "i" ++ toString bits.toNat
  | .pointer => "ptr"
  | .vector length => "vector<" ++ toString length.toNat ++ ">"

/-- The name in diagnostics. -/
def description : ValueType → String
  | .field kind => "Field(" ++ kind.constructorName ++ ")"
  | .curve kind => "Curve(" ++ kind.constructorName ++ ")"
  | .integer bits => "Int \x7b bits: " ++ toString bits.toNat ++ " \x7d"
  | .pointer => "Pointer"
  | .vector length => "Vector \x7b len: " ++ toString length.toNat ++ " \x7d"

def toJson : ValueType → Json
  | .field kind => .object [("field", kind.toJson)]
  | .curve kind => .object [("curve", kind.toJson)]
  | .integer bits => .object [("int", .object [("bits", .natural bits.toNat)])]
  | .pointer => .text "pointer"
  | .vector length => .object [("vector", .object [("len", .natural length.toNat)])]

def ofJson? (document : Json) : Option ValueType := do
  let (name, payload) ← document.variant?
  if name = "field" then
    return .field (← FieldKind.ofJson? payload)
  else if name = "curve" then
    return .curve (← CurveKind.ofJson? payload)
  else if name = "int" then
    let [bits] ← payload.fields? ["bits"] | none
    return .integer (← bits.word32?)
  else if name = "pointer" then
    payload.unit?
    return .pointer
  else if name = "vector" then
    let [length] ← payload.fields? ["len"] | none
    return .vector (← length.word64?)
  else
    none

end ValueType

end Plonkish
