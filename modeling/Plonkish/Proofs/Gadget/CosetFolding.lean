import Plonkish.Proofs.Gadget.CosetValues

namespace Plonkish

/-!
# Folding of cosets

If the root has half its order as a power of minus one, the bit of a round picks
the one of two opposite powers whose exponent is below half the order. So the
member of a round depends on the index modulo a power of two only, and that power
is halved from round to round: squaring folds the two members that are opposite
to each other into one.
-/

namespace CosetValues

variable {field : PrimeField} {root : Element field} {totalBits half index round : Nat}

/-- Opposite members have one square. -/
theorem member_ofPower_sq (power : Element field) (set : Bool) :
    (ofPower power set).member ^ 2 = power ^ 2 := by
  cases set with
  | false => rfl
  | true => exact neg_sq power

/-- The member of a power is its representative below half the order. -/
theorem member_ofPower_testBit (halfway : root ^ 2 ^ half = -1) (exponent : Nat) :
    (ofPower (root ^ exponent) (exponent.testBit half)).member = root ^ (exponent % 2 ^ half) := by
  have power : root ^ exponent = (-1) ^ (exponent / 2 ^ half) * root ^ (exponent % 2 ^ half) := by
    rw [← halfway, ← pow_mul, ← pow_add, Nat.div_add_mod]
  rw [ofPower, power, Nat.testBit_eq_decide_div_mod_eq]
  rcases Nat.even_or_odd (exponent / 2 ^ half) with even | odd
  · have clear : exponent / 2 ^ half % 2 ≠ 1 := by simp [Nat.even_iff.mp even]
    simp [clear, even.neg_one_pow]
  · simp [Nat.odd_iff.mp odd, odd.neg_one_pow]

/-- A bit is set if what is left modulo the next power of two is not below its own. -/
theorem testBit_eq_decide_le_mod (number position : Nat) :
    number.testBit position = decide (2 ^ position ≤ number % 2 ^ (position + 1)) := by
  have below : number % 2 ^ position < 2 ^ position := Nat.mod_lt _ (Nat.two_pow_pos position)
  rw [Nat.mod_pow_succ, Nat.testBit_eq_decide_div_mod_eq, decide_eq_decide]
  rcases Nat.mod_two_eq_zero_or_one (number / 2 ^ position) with clear | set
  · simp [clear, below]
  · simp [set]

/-- The bit of a round is the most significant one of the exponent of its power. -/
theorem ofIndex_eq_ofPower (inside : round < half + 1) :
    ofIndex root (half + 1) index round =
      ofPower (root ^ (index * 2 ^ round)) ((index * 2 ^ round).testBit half) := by
  have fromTop : half + 1 - 1 - round = half - round := by omega
  rw [ofIndex, Nat.testBit_mul_two_pow, decide_eq_true (Nat.le_of_lt_succ inside), Bool.true_and,
    fromTop]

/-- Values of rounds by the index alone, of which each folds into the next. -/
structure Canonical
    (root : Element field)
    (resultLength totalBits index : Nat)
    (rounds : List (CosetValues field)) :
    Prop where
  length : rounds.length = resultLength
  /-- The exponent is doubled for each round, and is below half the order. -/
  member : ∀ (round : Nat) (values : CosetValues field), rounds[round]? = some values →
    values.member = root ^ (index * 2 ^ round % 2 ^ (totalBits - 1))
  opposite : ∀ (round : Nat) (values : CosetValues field), rounds[round]? = some values →
    values.opposite = -values.member
  /-- The bit says whether the exponent was in the upper half of the order. -/
  bit : ∀ (round : Nat) (values : CosetValues field), rounds[round]? = some values →
    values.bit = if 2 ^ (totalBits - 1) ≤ index * 2 ^ round % 2 ^ totalBits then 1 else 0
  square : ∀ (round : Nat) (values next : CosetValues field),
    rounds[round]? = some values → rounds[round + 1]? = some next →
      values.member ^ 2 = if next.bit = 1 then -next.member else next.member

/-- The rounds of an index are canonical for a root of the order that its bits ask for. -/
theorem canonical_ofIndex
    (halfway : root ^ 2 ^ half = -1)
    {resultLength : Nat}
    (enough : resultLength ≤ half + 1) :
    Canonical root resultLength (half + 1) index
      ((List.range resultLength).map (ofIndex root (half + 1) index)) := by
  have shown : ∀ round values,
      ((List.range resultLength).map (ofIndex root (half + 1) index))[round]? = some values →
        values =
          ofPower (root ^ (index * 2 ^ round)) ((index * 2 ^ round).testBit half) := by
    intro round values present
    obtain ⟨counted, rfl⟩ := List.getElem?_eq_some_iff.mp present
    have inside : round < resultLength := by simpa using counted
    rw [List.getElem_map, List.getElem_range]
    exact ofIndex_eq_ofPower (inside.trans_le enough)
  constructor
  case length => simp
  case member =>
    intro round values present
    rw [shown round values present, Nat.add_sub_cancel, member_ofPower_testBit halfway]
  case opposite =>
    intro round values present
    rw [shown round values present]
    rfl
  case bit =>
    intro round values present
    rw [shown round values present, ofPower, testBit_eq_decide_le_mod, Nat.add_sub_cancel]
    simp only [Synthesis.bitElement, decide_eq_true_eq]
  case square =>
    intro round values next present nextPresent
    -- Both sides are the square of the power of the round, up to the sign that the bit undoes.
    rw [shown round values present, shown (round + 1) next nextPresent, member_ofPower_sq,
      ← pow_mul, mul_assoc, ← pow_succ]
    cases (index * 2 ^ (round + 1)).testBit half with
    | false => simp [ofPower, Synthesis.bitElement]
    | true => simp [ofPower, Synthesis.bitElement]

namespace Canonical

variable {resultLength other : Nat} {rounds otherRounds : List (CosetValues field)}

/-- A round has the same pair for indices that agree modulo the power of two that it has left. -/
theorem same_pair
    (canonical : Canonical root resultLength totalBits index rounds)
    (otherCanonical : Canonical root resultLength totalBits other otherRounds)
    (enough : resultLength ≤ totalBits)
    (inside : round < resultLength)
    (agree : index ≡ other [MOD 2 ^ (totalBits - 1 - round)]) :
    ∃ values otherValues, rounds[round]? = some values ∧ otherRounds[round]? = some otherValues
      ∧ values.member = otherValues.member ∧ values.opposite = otherValues.opposite := by
  have present : round < rounds.length := canonical.length.symm ▸ inside
  have otherPresent : round < otherRounds.length := otherCanonical.length.symm ▸ inside
  have isValues := List.getElem?_eq_getElem present
  have isOther := List.getElem?_eq_getElem otherPresent
  have sameExponent : index * 2 ^ round % 2 ^ (totalBits - 1) =
      other * 2 ^ round % 2 ^ (totalBits - 1) := by
    have scaled := agree.mul_right' (2 ^ round)
    rwa [← pow_add, Nat.sub_add_cancel (by omega)] at scaled
  have sameMember : rounds[round].member = otherRounds[round].member := by
    rw [canonical.member round _ isValues, otherCanonical.member round _ isOther, sameExponent]
  refine ⟨_, _, isValues, isOther, sameMember, ?_⟩
  rw [canonical.opposite round _ isValues, otherCanonical.opposite round _ isOther, sameMember]

end Canonical

end CosetValues

namespace Gadget

variable {field : PrimeField}

/-- The rounds that were laid out are canonical for the index, which has no more bits. -/
theorem canonical_of_cosets
    {resultLength totalBits : Nat}
    {root : Element field}
    {shape : CosetShape field}
    (made : CosetShape.make resultLength totalBits root = .ok shape)
    (halfway : root ^ 2 ^ (totalBits - 1) = -1)
    {index : Cell field}
    {transcript after : Transcript field}
    {rounds : List (CosetCells field)}
    (gives : (cosets shape index).run transcript = (.ok rounds, after))
    {read : Valuation field}
    (faithful : Valuation.Faithful transcript after read) :
    (read index).value < 2 ^ totalBits
      ∧ CosetValues.Canonical root resultLength totalBits (read index).value
        (rounds.map (CosetCells.readBy read)) := by
  obtain ⟨-, atLeastOne, enough, -⟩ := cosetShape_make_eq_ok_iff.mp made
  obtain ⟨below, areRounds⟩ := (cosets_computes made index).of_ok gives faithful
  obtain ⟨half, rfl⟩ : ∃ half, totalBits = half + 1 := ⟨totalBits - 1, by omega⟩
  rw [areRounds]
  exact ⟨below, CosetValues.canonical_ofIndex halfway enough⟩

/--
For a root of the order that the bits of an index ask for, the rounds of the index
are canonical, in whatever satisfies the constraints that were laid out. Indices
that agree modulo the power of two that a round has left have the same pair in
that round, in the same order.
-/
theorem cosets_canonical
    {resultLength totalBits : Nat}
    {root : Element field}
    (atLeastOne : 0 < resultLength)
    (enough : resultLength ≤ totalBits)
    (inWord : totalBits ≤ 64)
    (halfway : root ^ 2 ^ (totalBits - 1) = -1)
    (transcript otherTranscript : Transcript field)
    {index other : Cell field}
    (fits : index.value.value < 2 ^ totalBits)
    (otherFits : other.value.value < 2 ^ totalBits) :
    ∃ shape, CosetShape.make resultLength totalBits root = .ok shape
      ∧ ∃ rounds after otherRounds otherAfter,
        (cosets shape index).run transcript = (.ok rounds, after)
          ∧ (cosets shape other).run otherTranscript = (.ok otherRounds, otherAfter)
          ∧ ∀ read, Valuation.Faithful transcript after read →
            (read index).value < 2 ^ totalBits
              ∧ CosetValues.Canonical root resultLength totalBits (read index).value
                (rounds.map (CosetCells.readBy read))
              ∧ ∀ otherRead, Valuation.Faithful otherTranscript otherAfter otherRead →
                ∀ round < resultLength,
                  (read index).value ≡ (otherRead other).value [MOD 2 ^ (totalBits - 1 - round)] →
                    ∃ values otherValues,
                      (rounds.map (CosetCells.readBy read))[round]? = some values
                        ∧ (otherRounds.map (CosetCells.readBy otherRead))[round]? =
                          some otherValues
                        ∧ values.member = otherValues.member
                        ∧ values.opposite = otherValues.opposite := by
  have made : CosetShape.make resultLength totalBits root =
      .ok ⟨resultLength, totalBits, root⟩ :=
    cosetShape_make_eq_ok_iff.mpr ⟨rfl, atLeastOne, enough, inWord⟩
  have completes := @cosets_completes _ transcript _ _ _ _ made index ((fitsIn_iff inWord).mpr fits)
  have otherCompletes :=
    @cosets_completes _ otherTranscript _ _ _ _ made other ((fitsIn_iff inWord).mpr otherFits)
  obtain ⟨rounds, after, gives, -⟩ := completes
  obtain ⟨otherRounds, otherAfter, otherGives, -⟩ := otherCompletes
  refine ⟨_, made, rounds, after, otherRounds, otherAfter, gives, otherGives,
    fun read faithful => ?_⟩
  obtain ⟨below, canonical⟩ := canonical_of_cosets made halfway gives faithful
  refine ⟨below, canonical, fun otherRead otherFaithful round inside agree => ?_⟩
  obtain ⟨-, otherCanonical⟩ := canonical_of_cosets made halfway otherGives otherFaithful
  exact canonical.same_pair otherCanonical enough inside agree

/-- The values that were worked out for the rounds of an index satisfy their constraints. -/
theorem faithful_of_cosets
    {shape : CosetShape field}
    (inWord : shape.totalBits ≤ 64)
    {index : Cell field}
    {transcript after : Transcript field}
    {rounds : List (CosetCells field)}
    (gives : (cosets shape index).run transcript = (.ok rounds, after))
    (consistent : transcript.Consistent)
    (recorded : transcript.Records index) :
    Valuation.Faithful transcript after (.ofAssignment after.valueAt)
      ∧ Valuation.ofAssignment after.valueAt index = index.value := by
  have sound := @cosets_sound _ {cell | cell ∈ [index]} shape index inWord (by simp)
  obtain ⟨satisfied, held⟩ := sound.satisfiedSince gives consistent (by simpa using recorded)
  exact ⟨.assigned satisfied, held index (by simp)⟩

/-- A root of which the fourth power is minus one. -/
def eighthRoot : Element .bn254Scalar :=
  .ofNat .bn254Scalar
    19540430494807482326159819597004422086093766032135589407132600596362845576832

/--
The indices 5 and 1 of three bits agree but for their most significant bit, so their
first rounds have one pair.
-/
theorem cosets_canonical_threeBits :
    ∃ rounds after otherRounds otherAfter,
      (cosets ⟨2, 3, eighthRoot⟩ ⟨0, 5⟩).run (.ofValues [5, 1]) = (.ok rounds, after)
        ∧ (cosets ⟨2, 3, eighthRoot⟩ ⟨1, 1⟩).run (.ofValues [5, 1]) = (.ok otherRounds, otherAfter)
        ∧ ∃ values otherValues,
          (rounds.map (CosetCells.readBy (.ofAssignment after.valueAt)))[0]? = some values
            ∧ (otherRounds.map (CosetCells.readBy (.ofAssignment otherAfter.valueAt)))[0]? =
              some otherValues
            ∧ values.member = eighthRoot ∧ values.opposite = -eighthRoot ∧ values.bit = 1
            ∧ otherValues.member = eighthRoot ∧ otherValues.opposite = -eighthRoot := by
  obtain ⟨shape, made, rounds, after, otherRounds, otherAfter, gives, otherGives, forced⟩ :=
    @cosets_canonical .bn254Scalar 2 3 eighthRoot (by decide) (by decide) (by decide)
      (by decide +kernel) (.ofValues [5, 1]) (.ofValues [5, 1]) ⟨0, 5⟩ ⟨1, 1⟩ (by decide +kernel)
      (by decide +kernel)
  obtain rfl : ⟨2, 3, eighthRoot⟩ = shape := (cosetShape_make_eq_ok_iff.mp made).1.symm
  have consistent := Transcript.consistent_ofValues [(5 : Element .bn254Scalar), 1]
  obtain ⟨faithful, isIndex⟩ := faithful_of_cosets (by decide) gives consistent (by decide +kernel)
  obtain ⟨otherFaithful, isOther⟩ :=
    faithful_of_cosets (by decide) otherGives consistent (by decide +kernel)
  obtain ⟨-, canonical, same⟩ := forced _ faithful
  rw [isIndex] at canonical same
  obtain ⟨values, otherValues, present, otherPresent, sameMember, sameOpposite⟩ :=
    same _ otherFaithful 0 (by decide) (by rw [isOther]; decide +kernel)
  have isMember : values.member = eighthRoot :=
    (canonical.member 0 values present).trans (by decide +kernel)
  have isOpposite : values.opposite = -eighthRoot := by
    rw [canonical.opposite 0 values present, isMember]
  have isBit : values.bit = 1 := (canonical.bit 0 values present).trans (by decide +kernel)
  exact ⟨rounds, after, otherRounds, otherAfter, gives, otherGives, values, otherValues, present,
    otherPresent, isMember, isOpposite, isBit, sameMember.symm.trans isMember,
    sameOpposite.symm.trans isOpposite⟩

end Gadget

end Plonkish
