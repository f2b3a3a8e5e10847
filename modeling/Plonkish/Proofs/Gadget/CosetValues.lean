import Plonkish.Proofs.Gadget.Completion
import Plonkish.Proofs.Gadget.Evaluation
import Plonkish.Proofs.Gadget.Soundness

namespace Plonkish

/-!
# Values of cosets

What the rounds of an index hold, as a function of the index alone. The power of
the root is found by squaring and multiplying, most significant bit first, and
is squared once more for each further round. The bits are forced, so an index
that has too many of them satisfies no layout, and such an index is also the one
that is refused.
-/

/-- The values of a round: a member of the coset, its opposite, and a bit. -/
structure CosetValues (field : PrimeField) where
  member : Element field
  opposite : Element field
  bit : Element field
  deriving DecidableEq

/-- The values of a round by its power and its bit, which picks the opposite if it is set. -/
def CosetValues.ofPower
    {field : PrimeField}
    (power : Element field)
    (set : Bool) :
    CosetValues field :=
  let member := if set then -power else power
  { member, opposite := -member, bit := Synthesis.bitElement set }

/-- The values that the cells of a round hold. -/
def CosetCells.readBy
    {field : PrimeField}
    (read : Valuation field)
    (round : CosetCells field) :
    CosetValues field where
  member := read round.member
  opposite := read round.opposite
  bit := read round.bit

/-- The values of a round of an index, where the first round has the most significant bit. -/
def CosetValues.ofIndex
    {field : PrimeField}
    (root : Element field)
    (totalBits index round : Nat) :
    CosetValues field :=
  .ofPower (root ^ (index * 2 ^ round)) (index.testBit (totalBits - 1 - round))

namespace Gadget

variable {field : PrimeField} {read : Valuation field}

/-- With one more bit, a number is twice what it was, and the bit. -/
theorem div_two_pow_eq (number position : Nat) :
    number / 2 ^ position =
      2 * (number / 2 ^ (position + 1)) + (number.testBit position).toNat := by
  have halved : number / 2 ^ (position + 1) = number / 2 ^ position / 2 := by
    rw [Nat.pow_succ, Nat.div_div_eq_div_mul]
  rw [halved, Nat.toNat_testBit]
  exact (Nat.div_add_mod _ 2).symm

/-- The bits of a number below a position, most significant first. -/
def bitsBelow (number position : Nat) : List Bool :=
  (List.range position).reverse.map number.testBit

theorem bitsBelow_succ (number position : Nat) :
    bitsBelow number (position + 1) = number.testBit position :: bitsBelow number position := by
  rw [bitsBelow, List.range_succ, List.reverse_append]
  rfl

/-- A power by the bits of a number that are taken already becomes the power by the number. -/
theorem powerOfRoot_computes
    (root : Element field)
    (power : Cell field)
    (bits : List (Cell field))
    (number : Nat) :
    Synthesis.Computes read (powerOfRoot root power bits) (fun result =>
      bits.map read = (bitsBelow number bits.length).map Synthesis.bitElement →
        read power = root ^ (number / 2 ^ bits.length) → read result = root ^ number) := by
  induction bits generalizing power with
  | nil => exact Synthesis.Computes.pure fun _ isPower => by simpa using isPower
  | cons bit rest inductionHypothesis =>
      refine (Synthesis.mulAdd_computes (by simp) (by simp) (by simp)).bind fun factor => ?_
      refine (Synthesis.mul_computes (by simp) (by simp)).bind fun square => ?_
      refine (Synthesis.mul_computes (by simp) (by simp)).bind fun next => ?_
      refine (inductionHypothesis next).imp ?_
      intro result isResult isNext isSquare isFactor areBits isPower
      rw [List.length_cons, bitsBelow_succ, List.map_cons, List.map_cons,
        List.cons.injEq] at areBits
      obtain ⟨isBit, laterBits⟩ := areBits
      simp only [Source.readBy_existing, Source.readBy_constant] at isNext isSquare isFactor
      refine isResult laterBits ?_
      have factored : read factor = root ^ (number.testBit rest.length).toNat := by
        rw [isFactor, isBit]
        cases number.testBit rest.length <;> simp [Synthesis.bitElement]
      rw [isNext, isSquare, isPower, factored, List.length_cons, ← pow_add, ← pow_add,
        ← two_mul, ← div_two_pow_eq]

theorem cosetRound_computes (power bit : Cell field) :
    Synthesis.Computes read (cosetRound power bit) (fun round =>
      ∀ set, read bit = Synthesis.bitElement set →
        round.readBy read = .ofPower (read power) set) := by
  refine (Synthesis.neg_computes (by simp)).bind fun opposite => ?_
  refine (Synthesis.select_computes (by simp) (by simp) (by simp)).bind fun member => ?_
  refine (Synthesis.neg_computes (by simp)).bind fun memberOpposite => ?_
  refine Synthesis.Computes.pure fun isMemberOpposite isMember isOpposite set isBit => ?_
  simp only [Source.readBy_existing] at isMemberOpposite isMember isOpposite
  rw [isOpposite, isBit, Synthesis.selection_bitElement] at isMember
  simp only [CosetCells.readBy, CosetValues.ofPower, isMemberOpposite, isMember, isBit]

/-- Every round squares the power of the one before. -/
theorem cosetRounds_computes (power : Cell field) (bits : List (Cell field)) :
    Synthesis.Computes read (cosetRounds power bits) (fun rounds =>
      ∀ sets : List Bool, bits.map read = sets.map Synthesis.bitElement →
        rounds.map (CosetCells.readBy read) =
          sets.mapIdx fun round set => .ofPower (read power ^ 2 ^ round) set) := by
  induction bits generalizing power with
  | nil =>
      refine Synthesis.Computes.pure fun sets areBits => ?_
      obtain rfl : sets = [] := List.map_eq_nil_iff.mp areBits.symm
      rfl
  | cons bit rest inductionHypothesis =>
      cases rest with
      | nil =>
          refine (cosetRound_computes power bit).bind fun round => ?_
          refine Synthesis.Computes.pure fun isRound sets areBits => ?_
          obtain ⟨set, later, rfl, isBit, noMore⟩ := List.map_eq_cons_iff.mp areBits.symm
          obtain rfl : later = [] := List.map_eq_nil_iff.mp noMore
          simp [isRound set isBit.symm]
      | cons nextBit rest =>
          refine (cosetRound_computes power bit).bind fun round => ?_
          refine (Synthesis.mul_computes (by simp) (by simp)).bind fun square => ?_
          refine (inductionHypothesis square).bind fun rounds => ?_
          refine Synthesis.Computes.pure fun areRounds isSquare isRound sets areBits => ?_
          obtain ⟨set, later, rfl, isBit, laterBits⟩ := List.map_eq_cons_iff.mp areBits.symm
          rw [Source.readBy_existing] at isSquare
          have squared : ∀ round, read square ^ 2 ^ round = read power ^ 2 ^ (round + 1) := by
            intro round
            rw [isSquare, ← pow_two, ← pow_mul, ← pow_succ']
          rw [List.map_cons, isRound set isBit.symm, areRounds later laterBits.symm,
            List.mapIdx_cons, pow_zero, pow_one]
          simp only [squared]

/-- The rounds of an index take its bits from the most significant one on. -/
theorem take_bitsBelow {number count position : Nat} (enough : count ≤ position) :
    (bitsBelow number position).take count =
      (List.range count).map fun round => number.testBit (position - 1 - round) := by
  refine List.ext_getElem (by simp [bitsBelow, enough]) fun round _ inside => ?_
  simp [bitsBelow]

section Cosets

variable {resultLength totalBits : Nat} {root : Element field} {shape : CosetShape field}

/-- The rounds of an index hold its values, and the index has no more bits than its shape. -/
theorem cosets_computes
    (made : CosetShape.make resultLength totalBits root = .ok shape)
    (index : Cell field) :
    Assembly.Computes read (cosets shape index) (fun rounds =>
      (read index).value < 2 ^ totalBits
        ∧ rounds.map (CosetCells.readBy read) =
          (List.range resultLength).map (.ofIndex root totalBits (read index).value)) := by
  obtain ⟨rfl, -, enough, inWord⟩ := cosetShape_make_eq_ok_iff.mp made
  unfold cosets
  split
  next fits =>
    have small : index.value.value < 2 ^ totalBits := (fitsIn_iff inWord).mp fits
    refine (Assembly.toBits_computes small (field.two_pow_le_modulus inWord)).bind fun bits => ?_
    refine (Assembly.Computes.lift (Synthesis.constant_computes 1)).bind fun one => ?_
    refine (Assembly.Computes.lift (powerOfRoot_computes root one bits.reverse
      (read index).value)).bind fun power => ?_
    refine (Assembly.Computes.lift (cosetRounds_computes power
      (bits.reverse.take resultLength))).imp ?_
    rintro rounds areRounds isPower isOne ⟨below, areBits⟩
    refine ⟨below, ?_⟩
    have counted : bits.length = totalBits := by
      simpa [Synthesis.bitElements] using congrArg List.length areBits
    have reversed : bits.reverse.map read =
        (bitsBelow (read index).value totalBits).map Synthesis.bitElement := by
      rw [List.map_reverse, areBits, Synthesis.bitElements, bitsBelow, List.map_map,
        ← List.map_reverse]
      rfl
    have powered : read power = root ^ (read index).value := by
      rw [List.length_reverse, counted] at isPower
      refine isPower reversed ?_
      rw [isOne, Nat.div_eq_of_lt below, pow_zero]
    rw [areRounds _ (by rw [List.map_take, reversed, ← List.map_take]), take_bitsBelow enough,
      powered]
    refine List.ext_getElem (by simp) fun round _ _ => ?_
    simp [CosetValues.ofIndex, pow_mul]
  next => exact Assembly.Computes.refuse

/--
An index has its rounds exactly if it has no more bits than its shape, and is
refused otherwise before anything is laid out. Whatever satisfies the
constraints that were laid out gives the index no more bits either, and gives
the rounds the values of the index that it chose.
-/
theorem cosets_values
    (made : CosetShape.make resultLength totalBits root = .ok shape)
    (index : Cell field)
    (transcript : Transcript field) :
    (index.value.value < 2 ^ totalBits →
      ∃ rounds after, (cosets shape index).run transcript = (.ok rounds, after)
        ∧ ∀ read, Valuation.Faithful transcript after read →
          (read index).value < 2 ^ totalBits
            ∧ rounds.map (CosetCells.readBy read) =
              (List.range resultLength).map (.ofIndex root totalBits (read index).value))
      ∧ (2 ^ totalBits ≤ index.value.value →
        (cosets shape index).run transcript =
          (.error (.report (.valueRange index.value.toHex totalBits)), transcript)) := by
  obtain ⟨-, -, -, inWord⟩ := cosetShape_make_eq_ok_iff.mp made
  constructor
  · intro small
    have completes : Completes (fun rounds => rounds.length = resultLength) (cosets shape index)
        transcript := cosets_completes made ((fitsIn_iff inWord).mpr small)
    obtain ⟨rounds, after, gives, -⟩ := completes
    exact ⟨rounds, after, gives, fun read faithful =>
      (cosets_computes made index).of_ok gives faithful⟩
  · intro large
    exact run_cosets_of_not_fitsIn made fun fits =>
      Nat.not_lt.mpr large ((fitsIn_iff inWord).mp fits)

/-- Two rounds of an index of three bits; with a fourth bit, the index is refused. -/
theorem cosets_values_threeBits :
    (∃ rounds after,
      (cosets ⟨2, 3, 7⟩ ⟨0, 5⟩).run (.ofValues [5] : Transcript .bn254Scalar) =
          (.ok rounds, after)
        ∧ Valuation.Faithful (.ofValues [5]) after (.ofAssignment after.valueAt)
        ∧ rounds.map (CosetCells.readBy (.ofAssignment after.valueAt)) =
          [.ofPower (7 ^ 5) true, .ofPower (7 ^ 10) false])
      ∧ (cosets ⟨2, 3, 7⟩ ⟨0, 8⟩).run (.ofValues [8] : Transcript .bn254Scalar) =
        (.error (.report (.valueRange (8 : Element .bn254Scalar).toHex 3)), .ofValues [8]) := by
  have made : CosetShape.make 2 3 7 = .ok (⟨2, 3, 7⟩ : CosetShape .bn254Scalar) := rfl
  constructor
  · obtain ⟨rounds, after, gives, forced⟩ :=
      (cosets_values made ⟨0, 5⟩ (.ofValues [5])).1 (by decide +kernel)
    have sound := @cosets_sound .bn254Scalar {cell | cell ∈ [⟨0, 5⟩]} ⟨2, 3, 7⟩ ⟨0, 5⟩
      (by decide) (by simp)
    obtain ⟨satisfied, held⟩ :=
      sound.satisfiedSince gives (Transcript.consistent_ofValues _) (by decide +kernel)
    refine ⟨rounds, after, gives, .assigned satisfied, ?_⟩
    have isIndex : Valuation.ofAssignment after.valueAt ⟨0, 5⟩ = 5 := held _ (by simp)
    rw [(forced _ (.assigned satisfied)).2, isIndex]
    decide +kernel
  · exact (cosets_values made ⟨0, 8⟩ (.ofValues [8])).2 (by decide +kernel)

end Cosets

end Gadget

end Plonkish
