import Mathlib.Data.List.Induction
import Mathlib.Data.Nat.Digits.Defs
import Plonkish.Field.Text

namespace Plonkish

/-!
# Canonical decimal text

A number has exactly one text in canonical decimal, which is the one that is
written for it. So the element that a program text stands for is the residue of
the number whose text it is. Read as a word, canonical text gives the same
number, and a word is read back from its residue. Overflow may be tested for,
and the modulus divided out, at each digit as well as once for the number.
-/

namespace Numeral

/-- The digit that is read is the one that is written for its value. -/
theorem digitChar_of_decimalDigit?
    {character : Char}
    {digit : Nat}
    (isDigit : decimalDigit? character = some digit) :
    digit < 10 ∧ Nat.digitChar digit = character := by
  unfold decimalDigit? at isDigit
  split at isDigit
  next inRange =>
    obtain rfl := Option.some.inj isDigit
    have fromZero : 48 ≤ character.toNat := inRange.1
    have toNine : character.toNat ≤ 57 := inRange.2
    have below : character.toNat - '0'.toNat < 10 := by
      change character.toNat - 48 < 10
      omega
    refine ⟨below, Char.toNat_inj.mp ?_⟩
    rw [Nat.toNat_digitChar_of_lt_ten below]
    change 48 + (character.toNat - 48) = character.toNat
    omega
  next => cases isDigit

/-- The digit that is written for a number is read as it. -/
theorem decimalDigit?_digitChar {digit : Nat} (below : digit < 10) :
    decimalDigit? (Nat.digitChar digit) = some digit := by
  have all : ∀ digit < 10, decimalDigit? (Nat.digitChar digit) = some digit := by decide
  exact all digit below

/-- A further digit takes the number before it ten times. -/
theorem decimal?_append_digit {characters : List Char} {last : Char} {number : Nat} :
    decimal? (characters ++ [last]) = some number ↔
      ∃ front digit, decimal? characters = some front ∧ decimalDigit? last = some digit
        ∧ number = 10 * front + digit := by
  have single : [last].mapM decimalDigit? = (decimalDigit? last).map fun digit => [digit] := by
    cases isDigit : decimalDigit? last <;> simp [isDigit]
  unfold decimal?
  rw [List.mapM_append, single]
  cases characters.mapM decimalDigit? with
  | none => simp
  | some digits =>
      cases decimalDigit? last with
      | none => simp
      | some digit => simp [ofDigits, eq_comm]

/-- Digits that do not begin with zero are the text of the number they spell. -/
theorem toDigits_of_decimal?
    {characters : List Char}
    {number : Nat}
    (spelled : decimal? characters = some number)
    (nonempty : characters ≠ [])
    (noZero : characters.head? ≠ some '0') :
    0 < number ∧ Nat.toDigits 10 number = characters := by
  induction characters using List.reverseRecOn generalizing number with
  | nil => exact (nonempty rfl).elim
  | append_singleton characters last inductionHypothesis =>
      obtain ⟨front, digit, frontSpelled, isDigit, rfl⟩ := decimal?_append_digit.mp spelled
      obtain ⟨below, rfl⟩ := digitChar_of_decimalDigit? isDigit
      cases characters with
      | nil =>
          obtain rfl : 0 = front := Option.some.inj frontSpelled
          have positive : 0 < digit := by
            rcases Nat.eq_zero_or_pos digit with rfl | positive
            · exact (noZero rfl).elim
            · exact positive
          rw [Nat.mul_zero, Nat.zero_add]
          exact ⟨positive, Nat.toDigits_of_lt_base below⟩
      | cons first rest =>
          obtain ⟨positive, same⟩ := inductionHypothesis frontSpelled nofun noZero
          have appended := Nat.toDigits_append_toDigits (b := 10) (by decide) positive below
          rw [same, Nat.toDigits_of_lt_base below] at appended
          exact ⟨by omega, appended.symm⟩

/-- The text of a positive number spells it, and does not begin with zero. -/
theorem decimal?_toDigits {number : Nat} (positive : 0 < number) :
    decimal? (Nat.toDigits 10 number) = some number
      ∧ (Nat.toDigits 10 number).head? ≠ some '0' := by
  induction number using Nat.strongRecOn with
  | ind number inductionHypothesis =>
      rcases Nat.lt_or_ge number 10 with single | several
      · rw [Nat.toDigits_of_lt_base single]
        constructor
        · simp [decimal?, decimalDigit?_digitChar single, ofDigits]
        · have nonzero : ∀ digit < 10, 0 < digit → [Nat.digitChar digit].head? ≠ some '0' := by
            decide
          exact nonzero number single positive
      · have fewer : 0 < number / 10 := by omega
        have last : number % 10 < 10 := Nat.mod_lt _ (by decide)
        have split := Nat.toDigits_append_toDigits (b := 10) (by decide) fewer last
        rw [Nat.toDigits_of_lt_base last, Nat.div_add_mod] at split
        obtain ⟨spelled, noZero⟩ := inductionHypothesis (number / 10) (by omega) fewer
        rw [← split]
        constructor
        · exact decimal?_append_digit.mpr ⟨number / 10, number % 10, spelled,
            decimalDigit?_digitChar last, (Nat.div_add_mod number 10).symm⟩
        · rwa [List.head?_append, Option.or_of_isSome]
          exact List.isSome_head?.mpr Nat.toDigits_ne_nil

/-- What is not a character with others after it does not begin with that character. -/
theorem head?_ne_some {characters : List Char} {first : Char}
    (otherwise : ∀ rest, characters = first :: rest → False) :
    characters.head? ≠ some first := by
  intro startsWith
  obtain ⟨rest, sameList⟩ := List.head?_eq_some_iff.mp startsWith
  exact otherwise rest sameList

/-- Canonical decimal text is the text of exactly one number. -/
theorem canonicalDecimal?_eq_some_iff {text : String} {number : Nat} :
    canonicalDecimal? text = some number ↔ text = Nat.repr number := by
  rw [← String.toList_inj, Nat.toList_repr]
  unfold canonicalDecimal?
  constructor
  · intro spelled
    split at spelled
    next => cases spelled
    next isZero =>
      obtain rfl := Option.some.inj spelled
      exact isZero
    next => cases spelled
    next nonempty _ noZero =>
      exact (toDigits_of_decimal? spelled nonempty (head?_ne_some noZero)).2.symm
  · intro same
    rw [same]
    rcases Nat.eq_zero_or_pos number with rfl | positive
    · rfl
    · obtain ⟨spelled, noZero⟩ := decimal?_toDigits positive
      split
      next empty => exact (Nat.toDigits_ne_nil empty).elim
      next single => exact (noZero (by rw [single]; rfl)).elim
      next startsZero => exact (noZero (by rw [startsZero]; rfl)).elim
      next => exact spelled

/-- The number that decimal digits spell, the last of them being the least significant. -/
def decimalValue (characters : List Char) : Nat :=
  Nat.ofDigits 10 (characters.reverse.map fun character => character.toNat - '0'.toNat)

/-- Canonical decimal text is zero, or at least one digit of which the first is not zero. -/
def IsCanonical (characters : List Char) : Prop :=
  characters = ['0']
    ∨ characters ≠ []
      ∧ (∀ character ∈ characters, character.isDigit)
      ∧ characters.head? ≠ some '0'

instance (characters : List Char) : Decidable (IsCanonical characters) :=
  decidable_of_iff
    (characters = ['0']
      ∨ characters ≠ [] ∧ characters.all Char.isDigit ∧ characters.head? ≠ some '0')
    (by rw [List.all_eq_true]; rfl)

/-- A further digit is added to ten times the value before it. -/
theorem decimalValue_append_digit (characters : List Char) (last : Char) :
    decimalValue (characters ++ [last]) =
      10 * decimalValue characters + (last.toNat - '0'.toNat) := by
  unfold decimalValue
  rw [List.reverse_append, List.reverse_singleton, List.singleton_append, List.map_cons,
    Nat.ofDigits_cons, Nat.add_comm]

/-- The characters that are read as digits are the digits of ASCII. -/
theorem decimalDigit?_eq_some_iff {character : Char} {digit : Nat} :
    decimalDigit? character = some digit ↔
      character.isDigit ∧ digit = character.toNat - '0'.toNat := by
  have inRange : '0' ≤ character ∧ character ≤ '9' ↔ character.isDigit := by
    simp only [Char.isDigit, Bool.and_eq_true, decide_eq_true_eq]
    rfl
  unfold decimalDigit?
  rw [Option.ite_none_right_eq_some, Option.some.injEq, inRange, eq_comm (a := digit)]

/-- Digits spell their decimal value, and nothing else spells a number. -/
theorem decimal?_eq_some_iff {characters : List Char} {number : Nat} :
    decimal? characters = some number ↔
      (∀ character ∈ characters, character.isDigit) ∧ number = decimalValue characters := by
  induction characters using List.reverseRecOn generalizing number with
  | nil =>
      change some 0 = some number ↔ _ ∧ number = 0
      rw [Option.some.injEq, eq_comm, and_iff_right (List.forall_mem_nil _)]
  | append_singleton characters last inductionHypothesis =>
      rw [decimal?_append_digit, decimalValue_append_digit, List.forall_mem_append,
        List.forall_mem_singleton]
      simp only [inductionHypothesis, decimalDigit?_eq_some_iff]
      constructor
      · rintro ⟨_, _, ⟨digits, rfl⟩, ⟨isDigit, rfl⟩, same⟩
        exact ⟨⟨digits, isDigit⟩, same⟩
      · rintro ⟨⟨digits, isDigit⟩, same⟩
        exact ⟨_, _, ⟨digits, rfl⟩, ⟨isDigit, rfl⟩, same⟩

namespace IsCanonical

variable {characters : List Char} (canonical : IsCanonical characters)

include canonical

theorem ne_nil : characters ≠ [] := by
  rcases canonical with rfl | ⟨nonempty, -, -⟩
  · exact List.cons_ne_nil _ _
  · exact nonempty

theorem isDigit : ∀ character ∈ characters, character.isDigit := by
  rcases canonical with rfl | ⟨-, digits, -⟩
  · exact List.forall_mem_singleton.mpr rfl
  · exact digits

/-- Canonical text spells its decimal value. -/
theorem decimal?_eq : decimal? characters = some (decimalValue characters) :=
  decimal?_eq_some_iff.mpr ⟨canonical.isDigit, rfl⟩

end IsCanonical

/-- Exactly canonical text is read, and it spells its decimal value. -/
theorem canonicalDecimal?_eq_some_iff_isCanonical {text : String} {number : Nat} :
    canonicalDecimal? text = some number ↔
      IsCanonical text.toList ∧ number = decimalValue text.toList := by
  unfold canonicalDecimal? IsCanonical
  split
  next empty =>
    refine iff_of_false nofun ?_
    rintro ⟨single | ⟨nonempty, -, -⟩, -⟩
    · exact List.cons_ne_nil _ _ (single.symm.trans empty)
    · exact nonempty empty
  next single =>
    rw [single, Option.some.injEq, eq_comm (a := 0)]
    exact (and_iff_right (.inl rfl)).symm
  next rest notSingle startsZero =>
    rw [startsZero]
    refine iff_of_false nofun ?_
    rintro ⟨single | ⟨-, -, noZero⟩, -⟩
    · exact notSingle (List.cons.inj single).2
    · exact noZero rfl
  next nonempty notSingle noZero =>
    rw [decimal?_eq_some_iff, or_iff_right notSingle, and_iff_right nonempty,
      and_iff_left (head?_ne_some noZero)]

/-- A number that is tested for overflow is the number of the word. -/
theorem tested_eq_some_iff {number : Nat} {word : UInt64} :
    (if number < 1 <<< 64 then some (UInt64.ofNat number) else none) = some word ↔
      number = word.toNat := by
  rw [Option.ite_none_right_eq_some, Option.some.injEq]
  constructor
  · rintro ⟨inWord, rfl⟩
    exact (UInt64.toNat_ofNat_of_lt' inWord).symm
  · rintro rfl
    exact ⟨word.toNat_lt, UInt64.ofNat_toNat⟩

/-- The word that a further digit makes of the word before it, tested for overflow. -/
def checkedDigit (front : UInt64) (last : Char) : Option UInt64 :=
  (decimalDigit? last).bind fun digit =>
    let number := 10 * front.toNat + digit
    if number < 1 <<< 64 then some (UInt64.ofNat number) else none

/-- The word that digits spell, with a test for overflow at each digit. -/
def checkedWord? (characters : List Char) : Option UInt64 :=
  characters.foldlM checkedDigit 0

theorem checkedDigit_eq_some_iff {front word : UInt64} {last : Char} :
    checkedDigit front last = some word ↔
      ∃ digit, decimalDigit? last = some digit ∧ 10 * front.toNat + digit = word.toNat := by
  unfold checkedDigit
  simp only [Option.bind_eq_some_iff, tested_eq_some_iff]

/-- One test for overflow of the whole number is as good as one at each digit. -/
theorem checkedWord?_eq_some_iff {characters : List Char} {word : UInt64} :
    checkedWord? characters = some word ↔ decimal? characters = some word.toNat := by
  induction characters using List.reverseRecOn generalizing word with
  | nil =>
      change some 0 = some word ↔ some 0 = some word.toNat
      rw [Option.some.injEq, Option.some.injEq, ← UInt64.toNat_inj]
      rfl
  | append_singleton characters last inductionHypothesis =>
      have next : checkedWord? (characters ++ [last]) =
          (checkedWord? characters).bind fun front => checkedDigit front last := by
        unfold checkedWord?
        rw [List.foldlM_append]
        simp only [List.foldlM_cons, List.foldlM_nil, bind_pure]
        rfl
      rw [next, decimal?_append_digit, Option.bind_eq_some_iff]
      simp only [checkedDigit_eq_some_iff]
      constructor
      · rintro ⟨front, spelled, digit, isDigit, same⟩
        exact ⟨front.toNat, digit, inductionHypothesis.mp spelled, isDigit, same.symm⟩
      · rintro ⟨front, digit, spelled, isDigit, same⟩
        -- The number before the last digit is smaller, so it did not overflow either.
        have smaller : front < 1 <<< 64 := by
          have inWord : word.toNat < 1 <<< 64 := word.toNat_lt
          omega
        have frontFits : (UInt64.ofNat front).toNat = front := UInt64.toNat_ofNat_of_lt' smaller
        refine ⟨.ofNat front, inductionHypothesis.mpr (frontFits.symm ▸ spelled), digit, isDigit, ?_⟩
        rw [frontFits, same]

/-- Text without the one plus sign that a word may have. -/
def unsigned : List Char → List Char
  | '+' :: digits => digits
  | digits => digits

/-- A word is read from at least one digit, each of them tested for overflow. -/
theorem word?_eq_some_iff {text : String} {word : UInt64} :
    word? text = some word ↔
      unsigned text.toList ≠ [] ∧ checkedWord? (unsigned text.toList) = some word := by
  have spelled : word? text =
      if (unsigned text.toList).isEmpty then none
      else (decimal? (unsigned text.toList)).bind fun number =>
        if number < 1 <<< 64 then some (UInt64.ofNat number) else none := rfl
  rw [spelled, checkedWord?_eq_some_iff, Option.ite_none_left_eq_some, List.isEmpty_iff,
    Option.bind_eq_some_iff]
  simp only [tested_eq_some_iff, exists_eq_right, ne_eq]

/-- Canonical text is read as the word that is its decimal value. -/
theorem IsCanonical.word?_eq_some_iff
    {text : String}
    (canonical : IsCanonical text.toList)
    {word : UInt64} :
    word? text = some word ↔ word.toNat = decimalValue text.toList := by
  have noSign : unsigned text.toList = text.toList := by
    unfold unsigned
    split
    next digits signed =>
      have plus : ('+').isDigit := canonical.isDigit '+' (signed ▸ List.mem_cons_self)
      exact absurd plus (by decide)
    next => rfl
  rw [Numeral.word?_eq_some_iff, noSign, and_iff_right canonical.ne_nil, checkedWord?_eq_some_iff,
    canonical.decimal?_eq, Option.some.injEq, eq_comm]

end Numeral

namespace Element

variable {field : PrimeField}

/-- A text stands for an element if it is the text of a number with that residue. -/
theorem ofDecimal?_eq_some_iff {text : String} {element : Element field} :
    ofDecimal? field text = some element ↔
      ∃ number, text = Nat.repr number ∧ element = ofNat field number := by
  rw [ofDecimal?, Option.map_eq_some_iff]
  simp only [Numeral.canonicalDecimal?_eq_some_iff, eq_comm (b := element)]

/-- The element that digits spell, reduced at each digit. -/
def ofDigits (field : PrimeField) (characters : List Char) : Element field :=
  characters.foldl
    (fun front last => ofNat field 10 * front + ofNat field (last.toNat - '0'.toNat)) 0

/-- One reduction of the whole number is as good as one at each digit. -/
theorem ofDigits_eq (characters : List Char) :
    ofDigits field characters = ofNat field (Numeral.decimalValue characters) := by
  induction characters using List.reverseRecOn with
  | nil => rfl
  | append_singleton characters last inductionHypothesis =>
      rw [Numeral.decimalValue_append_digit]
      unfold ofDigits at inductionHypothesis ⊢
      rw [List.foldl_append, List.foldl_cons, List.foldl_nil, inductionHypothesis]
      apply Element.ext
      change ((10 % field.modulus * (_ % field.modulus)) % field.modulus
        + (last.toNat - '0'.toNat) % field.modulus) % field.modulus = _ % field.modulus
      rw [← Nat.mul_mod, ← Nat.add_mod]

/-- Exactly canonical text stands for an element, the one that its digits spell. -/
theorem ofDecimal?_eq_some_iff_isCanonical {text : String} {element : Element field} :
    ofDecimal? field text = some element ↔
      Numeral.IsCanonical text.toList ∧ element = ofDigits field text.toList := by
  rw [ofDecimal?, Option.map_eq_some_iff, ofDigits_eq]
  simp only [Numeral.canonicalDecimal?_eq_some_iff_isCanonical]
  constructor
  · rintro ⟨_, ⟨canonical, rfl⟩, rfl⟩
    exact ⟨canonical, rfl⟩
  · rintro ⟨canonical, rfl⟩
    exact ⟨_, ⟨canonical, rfl⟩, rfl⟩

/-- A word is read back from its residue, as every modulus is larger. -/
theorem word?_ofNat_toNat (field : PrimeField) (word : UInt64) :
    (ofNat field word.toNat).word? = some word := by
  have wordSmall : 1 <<< 64 ≤ field.modulus := by
    cases field <;> decide
  have inWord : word.toNat < 1 <<< 64 := word.toNat_lt
  have sameValue : (ofNat field word.toNat).value = word.toNat :=
    Nat.mod_eq_of_lt (inWord.trans_le wordSmall)
  rw [word?, sameValue, if_pos inWord, UInt64.ofNat_toNat]

end Element

end Plonkish
