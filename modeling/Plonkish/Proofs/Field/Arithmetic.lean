import Mathlib.Algebra.Ring.InjSurj
import Mathlib.FieldTheory.Finite.Basic
import Mathlib.Tactic.LinearCombination
import Plonkish.Field.Text
import Plonkish.Proofs.Field.Primality

namespace Plonkish

/-!
# Field arithmetic

The elements of a prime field with their operations are a field in the sense of
algebra: they embed in the residues modulo the modulus, which is prime. Powers
by squaring are powers, and the inverse by an exponent is the inverse.
-/

namespace Element

variable {field : PrimeField}

/-- The residue of an element modulo the modulus. -/
def residue (element : Element field) : ZMod field.modulus :=
  (element.value : ZMod field.modulus)

/-- An element is determined by its residue. -/
theorem residue_injective : Function.Injective (residue : Element field → ZMod field.modulus) := by
  intro left right same
  have congruent := (ZMod.natCast_eq_natCast_iff _ _ _).mp same
  exact Element.ext (Nat.ModEq.eq_of_lt_of_lt congruent left.value_lt right.value_lt)

@[simp] theorem residue_ofNat (number : Nat) :
    (ofNat field number).residue = (number : ZMod field.modulus) := by
  simp [residue, ofNat]

instance : NatCast (Element field) := ⟨ofNat field⟩

instance : IntCast (Element field) := ⟨fun number => ofNat field (number % field.modulus).toNat⟩

instance : SMul Nat (Element field) := ⟨fun count element => ofNat field (count * element.value)⟩

instance : SMul Int (Element field) := ⟨fun count element => (count : Element field) * element⟩

instance : Pow (Element field) Nat :=
  ⟨fun base exponent => ofNat field (base.value ^ exponent)⟩

/-- The residue of a sum is the sum of the residues. -/
theorem residue_add (left right : Element field) :
    (left + right).residue = left.residue + right.residue := by
  change (ofNat field (left.value + right.value)).residue = _
  rw [residue_ofNat, Nat.cast_add]
  rfl

/-- The residue of a product is the product of the residues. -/
theorem residue_mul (left right : Element field) :
    (left * right).residue = left.residue * right.residue := by
  change (ofNat field (left.value * right.value)).residue = _
  rw [residue_ofNat, Nat.cast_mul]
  rfl

theorem residue_intCast (number : Int) :
    (number : Element field).residue = (number : ZMod field.modulus) := by
  change (ofNat field (number % field.modulus).toNat).residue = _
  have positive : (field.modulus : Int) ≠ 0 := by
    exact_mod_cast field.modulus_pos.ne'
  rw [residue_ofNat, ← Int.cast_natCast, Int.toNat_of_nonneg (Int.emod_nonneg _ positive)]
  simp

/-- The residue of a difference is the difference of the residues. -/
theorem residue_sub (left right : Element field) :
    (left - right).residue = left.residue - right.residue := by
  change (ofNat field (left.value + (field.modulus - right.value))).residue = _
  rw [residue_ofNat, Nat.cast_add, Nat.cast_sub right.value_lt.le]
  simp [residue, sub_eq_add_neg]

/-- The residue of an opposite is the opposite of the residue. -/
theorem residue_neg (element : Element field) : (-element).residue = -element.residue := by
  change (ofNat field (field.modulus - element.value)).residue = _
  rw [residue_ofNat, Nat.cast_sub element.value_lt.le]
  simp [residue]

instance : CommRing (Element field) :=
  residue_injective.commRing residue
    (by change (ofNat field 0).residue = 0; simp)
    (by change (ofNat field 1).residue = 1; simp)
    residue_add
    residue_mul
    residue_neg
    residue_sub
    (fun count element => by
      change (ofNat field (count * element.value)).residue = _
      rw [residue_ofNat, Nat.cast_mul, nsmul_eq_mul]
      rfl)
    (fun count element => by
      change ((count : Element field) * element).residue = _
      simp [residue_mul, residue_intCast])
    (fun base exponent => by
      change (ofNat field (base.value ^ exponent)).residue = _
      rw [residue_ofNat, Nat.cast_pow]
      rfl)
    residue_ofNat
    residue_intCast

/-- The residue as a homomorphism. -/
def residueHom (field : PrimeField) : Element field →+* ZMod field.modulus where
  toFun := residue
  map_one' := by change (ofNat field 1).residue = 1; simp
  map_mul' := residue_mul
  map_zero' := by change (ofNat field 0).residue = 0; simp
  map_add' := residue_add

instance : IsDomain (Element field) := residue_injective.isDomain (residueHom field)

theorem ofNat_eq_natCast (number : Nat) : ofNat field number = (number : Element field) := rfl

/-- A number below the modulus is the value of its residue. -/
theorem value_natCast {number : Nat} (small : number < field.modulus) :
    (number : Element field).value = number :=
  Nat.mod_eq_of_lt small

@[simp] theorem natCast_value (element : Element field) :
    (element.value : Element field) = element :=
  Element.ext (value_natCast element.value_lt)

/-- The bits of an exponent from a position on, folded by squaring, give that power. -/
theorem foldr_square_eq_pow
    (base : Element field)
    (exponent position count : Nat) :
    (List.range' position count).foldr
        (fun position higher =>
          let square := higher * higher
          if exponent.testBit position then square * base else square)
        1 =
      base ^ (exponent / 2 ^ position % 2 ^ count) := by
  induction count generalizing position with
  | zero => simp [Nat.mod_one]
  | succ count inductionHypothesis =>
      have halved : exponent / 2 ^ (position + 1) = exponent / 2 ^ position / 2 := by
        rw [Nat.pow_succ, Nat.div_div_eq_div_mul]
      have bit : exponent.testBit position = decide (exponent / 2 ^ position % 2 = 1) := by
        rw [Nat.testBit_eq_decide_div_mod_eq]
      have split : exponent / 2 ^ position % 2 ^ (count + 1) =
          2 * (exponent / 2 ^ position / 2 % 2 ^ count) + exponent / 2 ^ position % 2 := by
        rw [Nat.pow_succ', Nat.mod_mul, Nat.add_comm]
      rw [List.range'_succ, List.foldr_cons, inductionHypothesis, halved, bit, split]
      rcases Nat.mod_two_eq_zero_or_one (exponent / 2 ^ position) with even | odd
      · simp only [even, Nat.zero_ne_one, decide_false, Bool.false_eq_true, ↓reduceIte,
          Nat.add_zero]
        rw [← pow_add, two_mul]
      · simp only [odd, decide_true, ↓reduceIte]
        rw [← pow_add, ← two_mul, pow_succ]

/-- Powers by squaring are powers, for exponents of at most 256 bits. -/
theorem power_eq_pow (base : Element field) {exponent : Nat} (fits : exponent < 2 ^ 256) :
    base.power exponent = base ^ exponent := by
  have folded := foldr_square_eq_pow base exponent 0 256
  rw [Nat.pow_zero, Nat.div_one, Nat.mod_eq_of_lt fits, ← List.range_eq_range'] at folded
  exact folded

/-- The exponent of the inverse has at most 256 bits. -/
theorem inverse_eq_pow (element : Element field) :
    element.inverse = element ^ (field.modulus - 2) := by
  have fits : field.modulus - 2 < 2 ^ 256 := by
    cases field <;> decide
  exact element.power_eq_pow fits

/-- An element times its inverse is one, unless the element is zero. -/
theorem mul_inverse_cancel {element : Element field} (nonzero : element ≠ 0) :
    element * element.inverse = 1 := by
  have exponent : field.modulus - 2 + 1 = field.modulus - 1 := by
    have := field.modulus_prime.two_le
    omega
  have residueNonzero : residueHom field element ≠ 0 := by
    intro zero
    exact nonzero (residue_injective (zero.trans (map_zero (residueHom field)).symm))
  rw [inverse_eq_pow, ← pow_succ', exponent]
  apply residue_injective
  change residueHom field (element ^ (field.modulus - 1)) = residueHom field 1
  rw [map_pow, map_one]
  exact ZMod.pow_card_sub_one_eq_one residueNonzero

/-- Zero has no inverse, and the power that stands for it is zero. -/
theorem inverse_zero : (0 : Element field).inverse = 0 := by
  have positive : field.modulus - 2 ≠ 0 := by
    cases field <;> decide
  rw [inverse_eq_pow, zero_pow positive]

instance : Field (Element field) where
  inv := inverse
  div := divide
  div_eq_mul_inv _ _ := rfl
  exists_pair_ne := ⟨0, 1, zero_ne_one⟩
  mul_inv_cancel _ nonzero := mul_inverse_cancel nonzero
  inv_zero := inverse_zero
  nnqsmul := _
  nnqsmul_def _ _ := rfl
  qsmul := _
  qsmul_def _ _ := rfl

/-- A quotient times its divisor is the dividend, unless the divisor is zero. -/
theorem divide_mul_cancel (dividend : Element field) {divisor : Element field}
    (nonzero : divisor ≠ 0) :
    dividend.divide divisor * divisor = dividend := by
  have cancels := mul_inverse_cancel nonzero
  change dividend * divisor.inverse * divisor = dividend
  linear_combination dividend * cancels

end Element

namespace Numeral

/-- Digits in hexadecimal are two for each byte. -/
theorem length_littleEndian (bytes number : Nat) :
    (littleEndian bytes number).length = 2 * bytes := by
  induction bytes generalizing number with
  | zero => rfl
  | succ bytes inductionHypothesis =>
      simp only [littleEndian, byteDigits, List.length_append, List.length_cons,
        List.length_nil, inductionHypothesis]
      omega

/-- The digits of the bytes of a number are read as that number, if it has no more bytes. -/
theorem ofLittleEndian?_littleEndian {bytes number : Nat} (fits : number < 256 ^ bytes) :
    ofLittleEndian? (littleEndian bytes number) = some number := by
  induction bytes generalizing number with
  | zero =>
      obtain rfl : number = 0 := by simpa using fits
      rfl
  | succ bytes inductionHypothesis =>
      have rest : number / 256 < 256 ^ bytes := by
        rw [Nat.div_lt_iff_lt_mul (by decide), ← Nat.pow_succ]
        exact fits
      have high : number % 256 / 16 < 16 := by omega
      have low : number % 256 % 16 < 16 := by omega
      simp only [littleEndian, byteDigits, List.cons_append, List.nil_append, ofLittleEndian?,
        hexDigit?_hexDigit high, hexDigit?_hexDigit low, inductionHypothesis rest,
        Option.bind_eq_bind, Option.bind_some, Option.pure_def, Option.some.injEq]
      omega

end Numeral

namespace Element

variable {field : PrimeField}

/-- The text of an element is read as that element. -/
theorem ofHex?_toHex (element : Element field) : ofHex? field element.toHex = some element := by
  have fits : element.value < 256 ^ field.elementBytes := by
    have below : field.modulus < 256 ^ field.elementBytes := by
      cases field <;> decide
    exact element.value_lt.trans below
  simp [ofHex?, toHex, Numeral.length_littleEndian, Numeral.ofLittleEndian?_littleEndian fits,
    element.value_lt]

end Element

end Plonkish
