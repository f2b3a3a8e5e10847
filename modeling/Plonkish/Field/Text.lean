import Plonkish.Field.Basic
import Plonkish.Numeral

namespace Plonkish

/-!
# Elements as text

An element is written as the hexadecimal digits of its bytes, least significant
byte first. Only the text of a canonical value is read back. Program text gives
elements in canonical decimal, which is reduced by the modulus.
-/

namespace Element

variable {field : PrimeField}

/-- The bytes of the value in hexadecimal. -/
def toHex (element : Element field) : String :=
  String.ofList (Numeral.littleEndian field.elementBytes element.value)

/--
The element with a canonical value in hexadecimal.

The bytes of the element are not compared with the ones that were read, since they
are always the same: its text is the one that was read, in lower case
(`toHex_of_ofHex?`).
-/
def ofHex? (field : PrimeField) (text : String) : Option (Element field) :=
  if text.toList.length = 2 * field.elementBytes then
    (Numeral.ofLittleEndian? text.toList).bind fun value =>
      if canonical : value < field.modulus then some ⟨value, canonical⟩ else none
  else
    none

/-- The residue of a number in canonical decimal. -/
def ofDecimal? (field : PrimeField) (text : String) : Option (Element field) :=
  (Numeral.canonicalDecimal? text).map (ofNat field)

end Element

namespace PrimeField

/-- The modulus in hexadecimal, most significant digit first. -/
def modulusText : PrimeField → String
  | .bn254Scalar => "0x30644e72e131a029b85045b68181585d2833e84879b9709143e1f593f0000001"
  | .bn254Base => "0x30644e72e131a029b85045b68181585d97816a916871ca8d3c208c16d87cfd47"
  | .secp256k1Base => "0xfffffffffffffffffffffffffffffffffffffffffffffffffffffffefffffc2f"
  | .secp256k1Scalar => "0xfffffffffffffffffffffffffffffffebaaedce6af48a03bbfd25e8cd0364141"

/-- Whether a text in hexadecimal is the modulus of a field. -/
def isNative (field : PrimeField) (modulusText : String) : Bool :=
  Numeral.normalHex field.modulusText = Numeral.normalHex modulusText

end PrimeField

end Plonkish
