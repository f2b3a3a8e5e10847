namespace Plonkish

/-!
# Prime fields

The fields a circuit can be written over, and the arithmetic of their elements.
An element is its canonical value, so equal elements have equal values. The
inverse is a power by the exponent `modulus - 2`, and the inverse of zero is
zero.
-/

/-- A prime field that a circuit can be written over. -/
inductive PrimeField where
  | bn254Scalar
  | bn254Base
  | secp256k1Base
  | secp256k1Scalar
  deriving DecidableEq

namespace PrimeField

/-- The number of elements. -/
def modulus : PrimeField → Nat
  | .bn254Scalar => 0x30644e72e131a029b85045b68181585d2833e84879b9709143e1f593f0000001
  | .bn254Base => 0x30644e72e131a029b85045b68181585d97816a916871ca8d3c208c16d87cfd47
  | .secp256k1Base => 0xfffffffffffffffffffffffffffffffffffffffffffffffffffffffefffffc2f
  | .secp256k1Scalar => 0xfffffffffffffffffffffffffffffffebaaedce6af48a03bbfd25e8cd0364141

/-- The number of bits of the modulus. -/
def bits : PrimeField → Nat
  | .bn254Scalar | .bn254Base => 254
  | .secp256k1Base | .secp256k1Scalar => 256

/-- The number of bytes that hold an element. -/
def elementBytes (field : PrimeField) : Nat :=
  (field.bits + 7) / 8

/-- Every field has more than one element. -/
theorem one_lt_modulus (field : PrimeField) : 1 < field.modulus := by
  cases field <;> decide

/-- Every field has an element. -/
theorem modulus_pos (field : PrimeField) : 0 < field.modulus :=
  Nat.lt_trans Nat.zero_lt_one field.one_lt_modulus

/-- A modulus fits in its number of bits, and in no fewer. -/
theorem modulus_bounds (field : PrimeField) :
    1 <<< (field.bits - 1) ≤ field.modulus ∧ field.modulus < 1 <<< field.bits := by
  cases field <;> decide

end PrimeField

/-- An element of a prime field. -/
structure Element (field : PrimeField) where
  value : Nat
  value_lt : value < field.modulus
  deriving DecidableEq

namespace Element

variable {field : PrimeField}

/-- Elements are equal if their values are. -/
@[ext] theorem ext {left right : Element field} (same : left.value = right.value) :
    left = right := by
  cases left
  cases right
  cases same
  rfl

/-- The residue of a natural number. -/
def ofNat (field : PrimeField) (number : Nat) : Element field :=
  ⟨number % field.modulus, Nat.mod_lt _ field.modulus_pos⟩

instance : Zero (Element field) := ⟨ofNat field 0⟩

instance : One (Element field) := ⟨ofNat field 1⟩

instance : Inhabited (Element field) := ⟨0⟩

instance : Add (Element field) := ⟨fun left right => ofNat field (left.value + right.value)⟩

instance : Mul (Element field) := ⟨fun left right => ofNat field (left.value * right.value)⟩

instance : Neg (Element field) := ⟨fun element => ofNat field (field.modulus - element.value)⟩

instance : Sub (Element field) :=
  ⟨fun left right => ofNat field (left.value + (field.modulus - right.value))⟩

/-- A power, by squaring along the bits of the exponent; those from bit 256 on are ignored. -/
def power (base : Element field) (exponent : Nat) : Element field :=
  (List.range 256).foldr
    (fun position higher =>
      let square := higher * higher
      if exponent.testBit position then square * base else square)
    1

/-- The multiplicative inverse; zero for zero. -/
def inverse (element : Element field) : Element field :=
  element.power (field.modulus - 2)

/-- The quotient; zero if the divisor is zero. -/
def divide (dividend divisor : Element field) : Element field :=
  dividend * divisor.inverse

/-- The value as a number of 64 bits, if it is one. -/
def word? (element : Element field) : Option UInt64 :=
  if element.value < 1 <<< 64 then some (UInt64.ofNat element.value) else none

end Element

end Plonkish
