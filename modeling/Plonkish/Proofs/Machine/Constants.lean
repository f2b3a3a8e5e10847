import Plonkish.Proofs.Field.Decimal
import Plonkish.Proofs.Machine.Reading

namespace Plonkish

/-!
# Constants

A constant operand is read as a size or as an element of the field. The two
readers accept different texts, but where both of them accept one they give the
same number.
-/

namespace Constant

/-- The word that a constant is read as. -/
def word? : Constant → Option UInt64
  | .integer value => some value
  | .field _ digits => Numeral.word? digits
  | .array _ => none

/-- The element of a field that a constant is read as. -/
def element? (field : PrimeField) : Constant → Option (Element field)
  | .integer value => some (.ofNat field value.toNat)
  | .field kind digits =>
      if field.isNative kind.modulusText then Element.ofDecimal? field digits else none
  | .array _ => none

variable {field : PrimeField}

/-- A constant that is read as a word and as an element is the same number as both. -/
theorem element_eq_ofNat_word
    {content : Constant}
    {word : UInt64}
    {element : Element field}
    (isWord : content.word? = some word)
    (isElement : content.element? field = some element) :
    element = .ofNat field word.toNat := by
  cases content with
  | integer value =>
      obtain rfl := Option.some.inj isWord
      exact (Option.some.inj isElement).symm
  | field kind digits =>
      obtain ⟨-, isDecimal⟩ := Option.ite_none_right_eq_some.mp isElement
      obtain ⟨canonical, rfl⟩ := Element.ofDecimal?_eq_some_iff_isCanonical.mp isDecimal
      rw [Element.ofDigits_eq, canonical.word?_eq_some_iff.mp isWord]
  | array values => cases isWord

end Constant

namespace Instruction

variable {field : PrimeField} {instruction : Instruction} {index : Nat}

/-- A size is the number of the word that a constant operand is read as. -/
theorem constantSize_eq_ok_iff {size : Nat} :
    instruction.constantSize index = .ok size ↔
      ∃ content word, instruction.constant index = .ok content
        ∧ content.word? = some word ∧ size = word.toNat := by
  constructor
  · intro read
    obtain ⟨content, found, read⟩ := ok_of_bind read
    cases content with
    | integer value =>
        cases read
        exact ⟨_, value, found, rfl, rfl⟩
    | field kind digits =>
        dsimp only at read
        split at read
        next word isWord =>
          cases read
          exact ⟨_, word, found, isWord, rfl⟩
        next => cases read
    | array values => cases read
  · rintro ⟨content, word, found, isWord, rfl⟩
    refine (bind_of_ok found _).trans ?_
    cases content with
    | integer value =>
        obtain rfl := Option.some.inj isWord
        rfl
    | field kind digits =>
        have isWord : Numeral.word? digits = some word := isWord
        dsimp only
        rw [isWord]
    | array values => cases isWord

/-- An element is what a constant operand is read as in the field. -/
theorem constantElement_eq_ok_iff {element : Element field} :
    instruction.constantElement field index = .ok element ↔
      ∃ content, instruction.constant index = .ok content
        ∧ content.element? field = some element := by
  constructor
  · intro read
    obtain ⟨content, found, read⟩ := ok_of_bind read
    refine ⟨content, found, ?_⟩
    cases content with
    | integer value =>
        cases read
        rfl
    | field kind digits =>
        dsimp only at read
        split at read
        next native =>
          split at read
          next isElement =>
            cases read
            exact (if_pos native).trans isElement
          next => cases read
        next => cases read
    | array values => cases read
  · rintro ⟨content, found, isElement⟩
    refine (bind_of_ok found _).trans ?_
    cases content with
    | integer value =>
        obtain rfl := Option.some.inj isElement
        rfl
    | field kind digits =>
        obtain ⟨native, isDecimal⟩ := Option.ite_none_right_eq_some.mp isElement
        dsimp only
        rw [if_pos native, isDecimal]
    | array values => cases isElement

/-- A field constant of the field is read if its text is canonical, as its decimal value. -/
theorem constantElement_eq_ok_iff_of_native
    {kind : FieldKind}
    {digits : String}
    (found : instruction.constant index = .ok (.field kind digits))
    (native : field.isNative kind.modulusText)
    {element : Element field} :
    instruction.constantElement field index = .ok element ↔
      Numeral.IsCanonical digits.toList
        ∧ element = .ofNat field (Numeral.decimalValue digits.toList) := by
  rw [constantElement_eq_ok_iff, ← Element.ofDigits_eq,
    ← Element.ofDecimal?_eq_some_iff_isCanonical]
  constructor
  · rintro ⟨content, read, isElement⟩
    obtain rfl := Except.ok.inj (found.symm.trans read)
    exact (if_pos native).symm.trans isElement
  · intro isDecimal
    exact ⟨_, found, (if_pos native).trans isDecimal⟩

/-- Canonical text with a value below `2 ^ 64` is read as a size. -/
theorem constantSize_of_isCanonical
    {kind : FieldKind}
    {digits : String}
    (found : instruction.constant index = .ok (.field kind digits))
    (canonical : Numeral.IsCanonical digits.toList)
    (inWord : Numeral.decimalValue digits.toList < 2 ^ 64) :
    instruction.constantSize index = .ok (Numeral.decimalValue digits.toList) := by
  have sameNumber := UInt64.toNat_ofNat_of_lt' inWord
  exact constantSize_eq_ok_iff.mpr
    ⟨_, _, found, canonical.word?_eq_some_iff.mpr sameNumber, sameNumber.symm⟩

/--
The readers of constants agree. A size and an element that are read from one
operand are the same number. Of the field constants of the field, exactly the
canonical ones are read as an element, which is the residue of their decimal
value; those with a value below `2 ^ 64` are read as a size, too.
-/
theorem constants_agree (field : PrimeField) (instruction : Instruction) (index : Nat) :
    (∀ size element,
        instruction.constantSize index = .ok size →
        instruction.constantElement field index = .ok element →
          element = .ofNat field size ∧ element.word?.map UInt64.toNat = some size)
      ∧ ∀ kind digits,
          instruction.constant index = .ok (.field kind digits) →
          field.isNative kind.modulusText →
            ((∃ element, instruction.constantElement field index = .ok element) ↔
                Numeral.IsCanonical digits.toList)
            ∧ (∀ element, instruction.constantElement field index = .ok element →
                element.value = Numeral.decimalValue digits.toList % field.modulus)
            ∧ (Numeral.IsCanonical digits.toList →
                Numeral.decimalValue digits.toList < 2 ^ 64 →
                  instruction.constantSize index = .ok (Numeral.decimalValue digits.toList)
                    ∧ instruction.constantElement field index =
                        .ok (.ofNat field (Numeral.decimalValue digits.toList))) := by
  constructor
  · intro size element readSize readElement
    obtain ⟨content, word, found, isWord, rfl⟩ := constantSize_eq_ok_iff.mp readSize
    obtain ⟨other, foundOther, isElement⟩ := constantElement_eq_ok_iff.mp readElement
    obtain rfl := Except.ok.inj (found.symm.trans foundOther)
    obtain rfl := Constant.element_eq_ofNat_word isWord isElement
    refine ⟨rfl, ?_⟩
    rw [Element.word?_ofNat_toNat, Option.map_some]
  · intro kind digits found native
    have reads (element : Element field) :
        instruction.constantElement field index = .ok element ↔
          Numeral.IsCanonical digits.toList
            ∧ element = .ofNat field (Numeral.decimalValue digits.toList) :=
      constantElement_eq_ok_iff_of_native found native
    refine ⟨⟨?_, ?_⟩, ?_, ?_⟩
    · rintro ⟨element, read⟩
      exact ((reads element).mp read).1
    · intro canonical
      exact ⟨_, (reads _).mpr ⟨canonical, rfl⟩⟩
    · intro element read
      rw [((reads element).mp read).2]
      rfl
    · intro canonical inWord
      exact ⟨constantSize_of_isCanonical found canonical inWord,
        (reads _).mpr ⟨canonical, rfl⟩⟩

/-- An instruction with the largest size, and with a number that has an idle zero. -/
def readTwice : Instruction :=
  ⟨⟨1⟩, .alloca, [.constant (.field .bn254Scalar "18446744073709551615"),
    .constant (.field .bn254Scalar "042")]⟩

/-- The largest size is read both ways and back; a number with an idle zero is no element. -/
theorem constants_agree_readTwice :
    PrimeField.bn254Scalar.isNative FieldKind.bn254Scalar.modulusText
      ∧ readTwice.constantSize 0 = .ok 18446744073709551615
      ∧ readTwice.constantElement .bn254Scalar 0 = .ok (.ofNat .bn254Scalar 18446744073709551615)
      ∧ (Element.ofNat .bn254Scalar 18446744073709551615).word?.map UInt64.toNat =
        some 18446744073709551615
      ∧ readTwice.constantSize 1 = .ok 42
      ∧ ¬∃ element, readTwice.constantElement .bn254Scalar 1 = .ok element := by
  have native : PrimeField.bn254Scalar.isNative FieldKind.bn254Scalar.modulusText := by decide
  obtain ⟨largestAgrees, largestReads⟩ := constants_agree .bn254Scalar readTwice 0
  obtain ⟨-, -, reads⟩ := largestReads _ _ rfl native
  obtain ⟨size, element⟩ := reads (by decide) (by decide)
  obtain ⟨canonicalOnly, -⟩ := (constants_agree .bn254Scalar readTwice 1).2 _ _ rfl native
  exact ⟨native, size, element, (largestAgrees _ _ size element).2, rfl,
    canonicalOnly.not.mpr (by decide)⟩

end Instruction

end Plonkish
