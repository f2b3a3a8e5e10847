import Mathlib.Data.Nat.Digits.Defs
import Plonkish.Proofs.Field.Arithmetic

namespace Plonkish

/-!
# Hexadecimal text

Digits in base sixteen are read without regard to their case and written in
lower case. A byte string is read exactly if it spells the bytes of a canonical
value, and writing the element gives that text in lower case. A number with its
most significant digit first may have a base mark and idle zeros; without them,
and in lower case, it is the text of the number that it spells, so two of them
are compared as numbers.
-/

namespace Numeral

/-- The hexadecimal digits of either case. -/
def hexDigits : List Char :=
  ['0', '1', '2', '3', '4', '5', '6', '7', '8', '9', 'a', 'b', 'c', 'd', 'e', 'f',
    'A', 'B', 'C', 'D', 'E', 'F']

/-- The value of a hexadecimal digit, which is its place among the digits in lower case. -/
def hexValue (character : Char) : Nat :=
  hexDigits.idxOf character.toLower

/-- A law of every listed digit is a law of a digit; there are too many characters to try all. -/
theorem of_mem_hexDigits
    (law : Char → Prop)
    [DecidablePred law]
    (holds : hexDigits.all (fun digit => law digit))
    {character : Char}
    (isDigit : character ∈ hexDigits) :
    law character :=
  of_decide_eq_true (List.all_eq_true.mp holds character isDigit)

/-- A digit is read as its value. -/
theorem hexDigit?_of_mem {character : Char} (isDigit : character ∈ hexDigits) :
    hexDigit? character = some (hexValue character) :=
  of_mem_hexDigits (fun digit => hexDigit? digit = some (hexValue digit)) (by decide) isDigit

/-- The characters that are read as digits are the hexadecimal digits. -/
theorem mem_hexDigits_of_hexDigit? {character : Char} {value : Nat}
    (read : hexDigit? character = some value) :
    character ∈ hexDigits := by
  have small : character.toNat < 103 := by
    unfold hexDigit? at read
    split at read
    next inRange =>
      have : character.toNat ≤ 57 := inRange.2
      omega
    next =>
      split at read
      next inRange =>
        have : character.toNat ≤ 102 := inRange.2
        omega
      next =>
        split at read
        next inRange =>
          have : character.toNat ≤ 70 := inRange.2
          omega
        next => cases read
  have all : ∀ code < 103, hexDigit? (Char.ofNat code) ≠ none → Char.ofNat code ∈ hexDigits := by
    decide +kernel
  have isDigit := all character.toNat small
  rw [Char.ofNat_toNat] at isDigit
  exact isDigit (read ▸ Option.some_ne_none value)

/-- A character is read as a value exactly if it is a digit with that value. -/
theorem hexDigit?_eq_some_iff {character : Char} {value : Nat} :
    hexDigit? character = some value ↔ character ∈ hexDigits ∧ value = hexValue character := by
  constructor
  · intro read
    have isDigit := mem_hexDigits_of_hexDigit? read
    exact ⟨isDigit, Option.some.inj (read.symm.trans (hexDigit?_of_mem isDigit))⟩
  · rintro ⟨isDigit, rfl⟩
    exact hexDigit?_of_mem isDigit

/-- A character is read exactly if it is a digit. -/
theorem isSome_hexDigit?_iff {character : Char} :
    (hexDigit? character).isSome ↔ character ∈ hexDigits := by
  simp only [Option.isSome_iff_exists, hexDigit?_eq_some_iff, exists_and_left, exists_eq,
    and_true]

/-- All characters are digits if each of them is read as one. -/
theorem forall_mem_hexDigits_iff {characters : List Char} :
    (∀ character ∈ characters, character ∈ hexDigits) ↔
      characters.all fun character => (hexDigit? character).isSome := by
  simp only [List.all_eq_true, isSome_hexDigit?_iff]

/-- A digit is worth less than sixteen. -/
theorem hexValue_lt {character : Char} (isDigit : character ∈ hexDigits) :
    hexValue character < 16 :=
  of_mem_hexDigits (hexValue · < 16) (by decide) isDigit

/-- The digit that is written for the value of a digit is that digit in lower case. -/
theorem hexDigit_hexValue {character : Char} (isDigit : character ∈ hexDigits) :
    hexDigit (hexValue character) = character.toLower :=
  of_mem_hexDigits (fun digit => hexDigit (hexValue digit) = digit.toLower) (by decide) isDigit

/-- Only zero has the value zero, as it has but one case. -/
theorem hexValue_eq_zero_iff {character : Char} (isDigit : character ∈ hexDigits) :
    hexValue character = 0 ↔ character = '0' :=
  of_mem_hexDigits (fun digit => hexValue digit = 0 ↔ digit = '0') (by decide) isDigit

/-- The digit that is written for a value has that value. -/
theorem hexValue_hexDigit {value : Nat} (small : value < 16) :
    hexValue (hexDigit value) = value := by
  have all : ∀ value < 16, hexValue (hexDigit value) = value := by decide +kernel
  exact all value small

/-- The values of bytes that are spelled by two digits each. -/
def byteValues : List Char → List Nat
  | high :: low :: rest => (16 * hexValue high + hexValue low) :: byteValues rest
  | _ => []

/-- The number whose bytes are spelled least significant first. -/
def littleEndianValue (characters : List Char) : Nat :=
  Nat.ofDigits 256 (byteValues characters)

/-- Two digits are a byte, of which the first digit is the more significant one. -/
theorem littleEndianValue_cons_cons (high low : Char) (rest : List Char) :
    littleEndianValue (high :: low :: rest) =
      16 * hexValue high + hexValue low + 256 * littleEndianValue rest := by
  unfold littleEndianValue
  rw [byteValues, Nat.ofDigits_cons]

/-- Exactly pairs of digits are read as bytes, and they spell their value. -/
theorem ofLittleEndian?_eq_some_iff {characters : List Char} {number : Nat} :
    ofLittleEndian? characters = some number ↔
      characters.length % 2 = 0
        ∧ (∀ character ∈ characters, character ∈ hexDigits)
        ∧ number = littleEndianValue characters := by
  induction characters using ofLittleEndian?.induct generalizing number with
  | case1 =>
      change some 0 = some number ↔ _
      simp [littleEndianValue, byteValues, eq_comm]
  | case2 single => simp [ofLittleEndian?]
  | case3 high low rest inductionHypothesis =>
      rw [ofLittleEndian?, List.forall_mem_cons, List.forall_mem_cons, littleEndianValue_cons_cons]
      simp only [Option.bind_eq_bind, Option.bind_eq_some_iff, Option.pure_def, Option.some.injEq,
        inductionHypothesis, hexDigit?_eq_some_iff, List.length_cons]
      constructor
      · rintro ⟨_, ⟨highDigit, rfl⟩, _, ⟨lowDigit, rfl⟩, _, ⟨even, digits, rfl⟩, rfl⟩
        exact ⟨by omega, ⟨highDigit, lowDigit, digits⟩, rfl⟩
      · rintro ⟨even, ⟨highDigit, lowDigit, digits⟩, rfl⟩
        exact ⟨_, ⟨highDigit, rfl⟩, _, ⟨lowDigit, rfl⟩, _, ⟨by omega, digits, rfl⟩, rfl⟩

/-- The bytes of a number that is spelled by digits are written as those digits in lower case. -/
theorem littleEndian_littleEndianValue
    {bytes : Nat}
    {characters : List Char}
    (length : characters.length = 2 * bytes)
    (digits : ∀ character ∈ characters, character ∈ hexDigits) :
    littleEndian bytes (littleEndianValue characters) = characters.map Char.toLower := by
  induction bytes generalizing characters with
  | zero =>
      obtain rfl := List.eq_nil_of_length_eq_zero length
      rfl
  | succ bytes inductionHypothesis =>
      match characters, length with
      | high :: low :: rest, length =>
          rw [List.forall_mem_cons, List.forall_mem_cons] at digits
          obtain ⟨highDigit, lowDigit, restDigits⟩ := digits
          have restLength : rest.length = 2 * bytes := by
            simp only [List.length_cons] at length
            omega
          have highSmall := hexValue_lt highDigit
          have lowSmall := hexValue_lt lowDigit
          set number := littleEndianValue rest
          have first :
              (16 * hexValue high + hexValue low + 256 * number) % 256 =
                16 * hexValue high + hexValue low := by omega
          have later :
              (16 * hexValue high + hexValue low + 256 * number) / 256 = number := by omega
          have upper : (16 * hexValue high + hexValue low) / 16 = hexValue high := by omega
          have lower : (16 * hexValue high + hexValue low) % 16 = hexValue low := by omega
          rw [littleEndianValue_cons_cons, littleEndian, first, later, byteDigits, upper, lower,
            inductionHypothesis restLength restDigits, hexDigit_hexValue highDigit,
            hexDigit_hexValue lowDigit]
          rfl

/-- The digits of a number behind the one base mark that it may have. -/
def unmarked : List Char → List Char
  | '0' :: 'x' :: digits => digits
  | '0' :: 'X' :: digits => digits
  | digits => digits

/-- A number in hexadecimal: at least one digit, behind at most one base mark. -/
def IsHexNumber (text : String) : Prop :=
  unmarked text.toList ≠ [] ∧ ∀ character ∈ unmarked text.toList, character ∈ hexDigits

instance (text : String) : Decidable (IsHexNumber text) :=
  decidable_of_iff
    (unmarked text.toList ≠ []
      ∧ (unmarked text.toList).all fun character => (hexDigit? character).isSome)
    (and_congr_right fun _ => forall_mem_hexDigits_iff.symm)

/-- The number that digits spell, the last of them being the least significant. -/
def digitsValue (characters : List Char) : Nat :=
  Nat.ofDigits 16 (characters.reverse.map hexValue)

/-- The number that a text in hexadecimal spells. -/
def hexNumber (text : String) : Nat :=
  digitsValue (unmarked text.toList)

/-- A base mark has a second character that is no digit, so that digits have none. -/
theorem dropPairs_of_digits
    {second : Char}
    {characters : List Char}
    (noDigit : second ∉ hexDigits)
    (digits : ∀ character ∈ characters, character ∈ hexDigits)
    (first : Char) :
    dropPairs first second characters = characters := by
  match characters with
  | [] => rfl
  | [_] => rfl
  | left :: right :: rest =>
      refine if_neg ?_
      rintro ⟨-, rfl⟩
      exact noDigit (digits right (List.mem_cons_of_mem left List.mem_cons_self))

/-- Dropping every base mark drops the one that there may be. -/
theorem dropPairs_dropPairs
    {characters : List Char}
    (digits : ∀ character ∈ unmarked characters, character ∈ hexDigits) :
    dropPairs '0' 'X' (dropPairs '0' 'x' characters) = unmarked characters := by
  have lower : 'x' ∉ hexDigits := by decide
  have upper : 'X' ∉ hexDigits := by decide
  unfold unmarked at digits ⊢
  split at digits
  next rest =>
    change dropPairs '0' 'X' (dropPairs '0' 'x' rest) = rest
    rw [dropPairs_of_digits lower digits, dropPairs_of_digits upper digits]
  next rest =>
    change dropPairs '0' 'X' rest = rest
    exact dropPairs_of_digits upper digits '0'
  next =>
    rw [dropPairs_of_digits lower digits, dropPairs_of_digits upper digits]

/-- Digits without idle zeros, in lower case, are the digits of the number that they spell. -/
theorem map_toLower_dropWhile
    {characters : List Char}
    (digits : ∀ character ∈ characters, character ∈ hexDigits) :
    (characters.dropWhile (· = '0')).map Char.toLower =
      (Nat.digits 16 (digitsValue characters)).reverse.map hexDigit := by
  induction characters with
  | nil => rfl
  | cons first rest inductionHypothesis =>
      rw [List.forall_mem_cons] at digits
      by_cases idle : first = '0'
      · have sameValue : digitsValue (first :: rest) = digitsValue rest := by
          subst idle
          unfold digitsValue
          rw [List.reverse_cons, List.map_append]
          exact Nat.ofDigits_append_zero _
        rw [List.dropWhile_cons_of_pos (by simpa using idle), inductionHypothesis digits.2,
          sameValue]
      · -- The most significant digit is not zero, so these are the digits of the number.
        have canonical : Nat.digits 16 (digitsValue (first :: rest)) =
            (first :: rest).reverse.map hexValue := by
          refine Nat.digits_ofDigits 16 (by decide) _ ?_ ?_
          · intro value isValue
            obtain ⟨character, isCharacter, rfl⟩ := List.mem_map.mp isValue
            rw [List.mem_reverse, List.mem_cons] at isCharacter
            rcases isCharacter with rfl | isRest
            · exact hexValue_lt digits.1
            · exact hexValue_lt (digits.2 character isRest)
          · intro nonempty
            simp only [List.reverse_cons, List.map_append, List.map_cons, List.map_nil,
              List.getLast_append_singleton]
            exact idle ∘ (hexValue_eq_zero_iff digits.1).mp
        rw [List.dropWhile_cons_of_neg (by simpa using idle), canonical, ← List.map_reverse,
          List.reverse_reverse, List.map_map]
        refine List.map_congr_left fun character isCharacter => ?_
        rcases List.mem_cons.mp isCharacter with rfl | isRest
        · exact (hexDigit_hexValue digits.1).symm
        · exact (hexDigit_hexValue (digits.2 character isRest)).symm

/-- The normal form of a number in hexadecimal is the text of its digits. -/
theorem normalHex_eq {text : String} (isNumber : IsHexNumber text) :
    normalHex text = (Nat.digits 16 (hexNumber text)).reverse.map hexDigit := by
  unfold normalHex
  rw [dropPairs_dropPairs isNumber.2]
  exact map_toLower_dropWhile isNumber.2

/-- The digits that are written for a number spell it. -/
theorem digitsValue_map_hexDigit (number : Nat) :
    digitsValue ((Nat.digits 16 number).reverse.map hexDigit) = number := by
  have values : (Nat.digits 16 number).map (hexValue ∘ hexDigit) =
      (Nat.digits 16 number).map id :=
    List.map_congr_left fun digit isDigit =>
      hexValue_hexDigit (Nat.digits_lt_base (by decide) isDigit)
  unfold digitsValue
  rw [← List.map_reverse, List.reverse_reverse, List.map_map, values, List.map_id,
    Nat.ofDigits_digits]

/-- Numbers in hexadecimal have one normal form exactly if they are the same number. -/
theorem normalHex_eq_iff {left right : String}
    (leftNumber : IsHexNumber left)
    (rightNumber : IsHexNumber right) :
    normalHex left = normalHex right ↔ hexNumber left = hexNumber right := by
  rw [normalHex_eq leftNumber, normalHex_eq rightNumber]
  constructor
  · intro sameDigits
    have sameValue := congrArg digitsValue sameDigits
    rwa [digitsValue_map_hexDigit, digitsValue_map_hexDigit] at sameValue
  · intro sameNumber
    rw [sameNumber]

end Numeral

namespace PrimeField

variable {field : PrimeField}

/-- The text of a modulus is a number in hexadecimal, which is the modulus. -/
theorem modulusText_spells (field : PrimeField) :
    Numeral.IsHexNumber field.modulusText ∧ Numeral.hexNumber field.modulusText = field.modulus := by
  cases field <;> decide +kernel

/-- A number in hexadecimal is native to a field exactly if it is the modulus. -/
theorem isNative_iff {text : String} (isNumber : Numeral.IsHexNumber text) :
    field.isNative text ↔ Numeral.hexNumber text = field.modulus := by
  obtain ⟨modulusNumber, sameModulus⟩ := field.modulusText_spells
  unfold isNative
  rw [decide_eq_true_iff, Numeral.normalHex_eq_iff modulusNumber isNumber, sameModulus, eq_comm]

end PrimeField

namespace Element

variable {field : PrimeField}

/-- A text is read as an element exactly if it spells the bytes of the value. -/
theorem ofHex?_eq_some_iff {text : String} {element : Element field} :
    ofHex? field text = some element ↔
      text.length = 64
        ∧ (∀ character ∈ text.toList, character ∈ Numeral.hexDigits)
        ∧ Numeral.littleEndianValue text.toList < field.modulus
        ∧ element.value = Numeral.littleEndianValue text.toList := by
  have bytes : 2 * field.elementBytes = 64 := by
    cases field <;> rfl
  unfold ofHex?
  rw [bytes, String.length_toList, Option.ite_none_right_eq_some, Option.bind_eq_some_iff]
  refine and_congr_right fun length => ?_
  have even : text.toList.length % 2 = 0 := by
    rw [String.length_toList, length]
  simp only [Numeral.ofLittleEndian?_eq_some_iff, even, true_and]
  constructor
  · rintro ⟨_, ⟨digits, rfl⟩, read⟩
    split at read
    next canonical =>
      cases read
      exact ⟨digits, canonical, rfl⟩
    next => cases read
  · rintro ⟨digits, canonical, sameValue⟩
    refine ⟨_, ⟨digits, rfl⟩, ?_⟩
    rw [dif_pos canonical]
    exact congrArg some (Element.ext sameValue.symm)

/-- An element is written as the text that it was read from, in lower case. -/
theorem toHex_of_ofHex? {text : String} {element : Element field}
    (read : ofHex? field text = some element) :
    element.toHex = text.toLower := by
  obtain ⟨length, digits, -, sameValue⟩ := ofHex?_eq_some_iff.mp read
  have bytes : text.toList.length = 2 * field.elementBytes := by
    rw [String.length_toList, length]
    cases field <;> rfl
  rw [toHex, sameValue, Numeral.littleEndian_littleEndianValue bytes digits,
    ← String.toList_map, String.ofList_toList]
  rfl

/-- No two elements have the same text. -/
theorem toHex_injective : Function.Injective (toHex : Element field → String) := by
  intro left right same
  have read := ofHex?_toHex left
  rw [same, ofHex?_toHex] at read
  exact (Option.some.inj read).symm

/--
Reading and writing elements in hexadecimal are exact. Every element is read
back from its text. What is read is sixty-four digits of either case with a
canonical value, the first byte being the least significant, and they are
written back in lower case. So texts that are read stand for one element exactly
if they differ in nothing but their case.
-/
theorem hexText_exact (field : PrimeField) :
    (∀ element : Element field, ofHex? field element.toHex = some element)
      ∧ (∀ (text : String) (element : Element field),
          ofHex? field text = some element ↔
            text.length = 64
              ∧ (∀ character ∈ text.toList, character ∈ Numeral.hexDigits)
              ∧ Numeral.littleEndianValue text.toList < field.modulus
              ∧ element.value = Numeral.littleEndianValue text.toList)
      ∧ (∀ (text : String) (element : Element field),
          ofHex? field text = some element → element.toHex = text.toLower)
      ∧ ∀ (left right : String) (leftElement rightElement : Element field),
          ofHex? field left = some leftElement →
          ofHex? field right = some rightElement →
            (leftElement = rightElement ↔ left.toLower = right.toLower) := by
  refine ⟨ofHex?_toHex, fun _ _ => ofHex?_eq_some_iff, fun _ _ => toHex_of_ofHex?, ?_⟩
  intro left right leftElement rightElement leftRead rightRead
  rw [← toHex_of_ofHex? leftRead, ← toHex_of_ofHex? rightRead]
  exact toHex_injective.eq_iff.symm

/--
The largest element is read in either case and written in lower case. The
modulus has as many digits, but is no element.
-/
theorem hexText_exact_largest :
    let upper := "000000F093F5E1439170B97948E833285D588181B64550B829A031E1724E6430"
    let lower := "000000f093f5e1439170b97948e833285d588181b64550b829a031e1724e6430"
    let modulus := "010000f093f5e1439170b97948e833285d588181b64550b829a031e1724e6430"
    ofHex? .bn254Scalar upper = some (-1)
      ∧ ofHex? .bn254Scalar lower = some (-1)
      ∧ upper.toLower = lower.toLower
      ∧ (-1 : Element .bn254Scalar).toHex = upper.toLower
      ∧ ¬∃ element, ofHex? .bn254Scalar modulus = some element := by
  intro upper lower modulus
  obtain ⟨-, reads, writes, sameElement⟩ := hexText_exact .bn254Scalar
  have readUpper : ofHex? .bn254Scalar upper = some (-1) :=
    (reads upper (-1)).mpr
      ⟨by decide, Numeral.forall_mem_hexDigits_iff.mpr (by decide), by decide, by decide⟩
  have readLower : ofHex? .bn254Scalar lower = some (-1) :=
    (reads lower (-1)).mpr
      ⟨by decide, Numeral.forall_mem_hexDigits_iff.mpr (by decide), by decide, by decide⟩
  refine ⟨readUpper, readLower, (sameElement _ _ _ _ readUpper readLower).mp rfl,
    writes upper (-1) readUpper, ?_⟩
  rintro ⟨element, readModulus⟩
  obtain ⟨-, -, canonical, -⟩ := (reads modulus element).mp readModulus
  have tooLarge : ¬Numeral.littleEndianValue modulus.toList < PrimeField.bn254Scalar.modulus := by
    decide
  exact tooLarge canonical

end Element

end Plonkish
