import Plonkish.Gadget.Cosets
import Plonkish.Gadget.PointAddition
import Plonkish.Gadget.Select
import Plonkish.Gadget.Sizes
import Plonkish.Proofs.Circuit.Bits

namespace Plonkish

/-!
# Sound gadgets

Every gadget is put together from sound operations, so wherever its inputs are
settled, so are its results. A quotient is only computed where the divisor is
not zero, and a value is only taken apart into bits where it has no more of
them, which is what the operations ask for.
-/

/-- The numbers of a word stay below every modulus. -/
theorem PrimeField.two_pow_le_modulus
    (field : PrimeField)
    {bits : Nat}
    (atMostWord : bits ≤ 64) :
    2 ^ bits ≤ field.modulus := by
  have wordSmall : 2 ^ 64 ≤ field.modulus := by
    cases field <;> decide
  exact (Nat.pow_le_pow_right (by decide) atMostWord).trans wordSmall

namespace Assembly

variable {field : PrimeField} {known : Set (Cell field)}

/-- A quotient is settled; a divisor that is zero crashes. -/
theorem divide_sound
    {dividend divisor : Source field}
    (dividendKnown : dividend.KnownTo known)
    (divisorKnown : divisor.KnownTo known) :
    Sound known (divide dividend divisor) ({·}) := by
  unfold divide
  split
  next => exact Sound.crash
  next nonzero => exact Sound.lift (Synthesis.quotient_sound dividendKnown divisorKnown nonzero)

/-- The bits of a value are settled, if it has no more bits and these stay below the modulus. -/
theorem toBits_sound
    {cell : Cell field}
    (cellKnown : cell ∈ known)
    {width : Nat}
    (fits : cell.value.value < 2 ^ width)
    (small : 2 ^ width ≤ field.modulus) :
    Sound known (toBits cell width) (fun bits => {bit | bit ∈ bits}) := by
  unfold toBits
  split
  next => exact Sound.crash
  next inRange =>
    have positive : width ≠ 0 := fun zero => inRange (.inl zero)
    exact Sound.lift (Synthesis.bits_sound cellKnown positive fits small)

/-- The parts of a list of settled cells are settled. -/
theorem split_sound
    {count : Nat}
    {cells : List (Cell field)}
    (cellsKnown : ∀ cell ∈ cells, cell ∈ known) :
    Sound known (split count cells) (fun parts => {cell | cell ∈ parts.1 ∨ cell ∈ parts.2}) := by
  unfold split
  split
  next parts cut =>
    obtain ⟨front, back⟩ := parts
    obtain ⟨rfl, -⟩ := Sizes.split?_eq_some_iff.mp cut
    refine Sound.pure fun cell member => cellsKnown cell ?_
    exact List.mem_append.mpr member
  next => exact Sound.crash

theorem checkLength_sound
    {name : String}
    {expected : Nat}
    {cells : List (Cell field)} :
    Sound known (checkLength name expected cells) (fun _ => ∅) := by
  unfold checkLength
  split
  next => exact Sound.pure (Set.empty_subset known)
  next => exact Sound.refuse CircuitFailure.noConfusion

end Assembly

namespace Gadget

variable {field : PrimeField} {known : Set (Cell field)}

/-- A selection of settled cells is settled, whatever the inverse of the condition. -/
theorem select_sound
    {condition whenTrue whenFalse : Cell field}
    (conditionKnown : condition ∈ known)
    (trueKnown : whenTrue ∈ known)
    (falseKnown : whenFalse ∈ known) :
    Synthesis.Sound known (select condition whenTrue whenFalse) ({·}) := by
  refine (Synthesis.isZero_sound (by simp [conditionKnown])).bind fun isZero => ?_
  refine Synthesis.select_sound ?_ ?_ ?_
  · simp [falseKnown]
  · simp [trueKnown]
  · simp

/-- The cells of a point. -/
def pointCells (point : PointCells field) : Set (Cell field) :=
  {point.x, point.y}

/-- The bits that tell the cases of an addition apart. -/
def caseCells (cases : AdditionCase field) : Set (Cell field) :=
  {cases.leftInfinity, cases.rightInfinity, cases.sameAbscissa, cases.cancels, cases.degenerate}

/-- A test for infinity is settled if the point is. -/
theorem isInfinity_sound
    {point : PointCells field}
    (xKnown : point.x ∈ known)
    (yKnown : point.y ∈ known) :
    Synthesis.Sound known (isInfinity point) ({·}) := by
  refine (Synthesis.isZero_sound (by simp [xKnown])).bind fun xZero => ?_
  refine (Synthesis.isZero_sound (by simp [yKnown])).bind fun yZero => ?_
  exact Synthesis.and_sound (by simp) (by simp)

/-- The bits of all cases are settled if both points are. -/
theorem additionCase_sound
    {left right : PointCells field}
    (leftX : left.x ∈ known)
    (leftY : left.y ∈ known)
    (rightX : right.x ∈ known)
    (rightY : right.y ∈ known) :
    Synthesis.Sound known (additionCase left right) caseCells := by
  refine (isInfinity_sound leftX leftY).bind fun leftInfinity => ?_
  refine (isInfinity_sound (by simp [rightX]) (by simp [rightY])).bind fun rightInfinity => ?_
  refine (Synthesis.isEqual_sound (by simp [leftX]) (by simp [rightX])).bind fun sameAbscissa => ?_
  refine (Synthesis.isEqual_sound (by simp [leftY]) (by simp [rightY])).bind fun sameOrdinate => ?_
  refine (Synthesis.isZero_sound (by simp [leftY])).bind fun zeroOrdinate => ?_
  refine (Synthesis.not_sound (by simp)).bind fun otherOrdinate => ?_
  refine (Synthesis.or_sound (by simp) (by simp)).bind fun opposite => ?_
  refine (Synthesis.and_sound (by simp) (by simp)).bind fun cancels => ?_
  refine (Synthesis.or_sound (by simp) (by simp)).bind fun anyInfinity => ?_
  refine (Synthesis.or_sound (by simp) (by simp)).bind fun degenerate => ?_
  refine Synthesis.Sound.pure ?_
  rintro cell (rfl | rfl | rfl | rfl | rfl) <;> simp

/-- Both parts of the slope are settled. -/
theorem slopeFraction_sound
    {left right : PointCells field}
    {cases : AdditionCase field}
    (leftX : left.x ∈ known)
    (leftY : left.y ∈ known)
    (rightX : right.x ∈ known)
    (rightY : right.y ∈ known)
    (same : cases.sameAbscissa ∈ known)
    (degenerate : cases.degenerate ∈ known) :
    Synthesis.Sound known (slopeFraction left right cases)
      (fun fraction => {fraction.1, fraction.2}) := by
  refine (Synthesis.mul_sound (by simp [leftX]) (by simp [leftX])).bind fun square => ?_
  refine (Synthesis.mul_sound (by simp) (by simp)).bind fun tangentRise => ?_
  refine (Synthesis.add_sound (by simp [leftY]) (by simp [leftY])).bind fun tangentRun => ?_
  refine (Synthesis.sub_sound (by simp [rightY]) (by simp [leftY])).bind fun chordRise => ?_
  refine (Synthesis.sub_sound (by simp [rightX]) (by simp [leftX])).bind fun chordRun => ?_
  refine (Synthesis.select_sound (by simp) (by simp) (by simp [same])).bind fun rise => ?_
  refine (Synthesis.select_sound (by simp) (by simp) (by simp [same])).bind fun run => ?_
  refine (Synthesis.select_sound (by simp) (by simp)
    (by simp [degenerate])).bind fun safeRise => ?_
  refine (Synthesis.select_sound (by simp) (by simp)
    (by simp [degenerate])).bind fun safeRun => ?_
  refine Synthesis.Sound.pure ?_
  rintro cell (rfl | rfl) <;> simp

/-- The third point is settled if the slope is. -/
theorem thirdPoint_sound
    {left right : PointCells field}
    {slope : Cell field}
    (leftX : left.x ∈ known)
    (leftY : left.y ∈ known)
    (rightX : right.x ∈ known)
    (slopeKnown : slope ∈ known) :
    Synthesis.Sound known (thirdPoint left right slope) pointCells := by
  refine (Synthesis.mul_sound (by simp [slopeKnown]) (by simp [slopeKnown])).bind fun square => ?_
  refine (Synthesis.sub_sound (by simp) (by simp [leftX])).bind fun firstDifference => ?_
  refine (Synthesis.sub_sound (by simp) (by simp [rightX])).bind fun x => ?_
  refine (Synthesis.sub_sound (by simp [leftX]) (by simp)).bind fun run => ?_
  refine (Synthesis.mul_sound (by simp [slopeKnown]) (by simp)).bind fun rise => ?_
  refine (Synthesis.sub_sound (by simp) (by simp [leftY])).bind fun y => ?_
  refine Synthesis.Sound.pure ?_
  rintro cell (rfl | rfl) <;> simp

/-- A coordinate of the sum is settled. -/
theorem selectCoordinate_sound
    {cases : AdditionCase field}
    {computed left right : Cell field}
    (casesKnown : caseCells cases ⊆ known)
    (computedKnown : computed ∈ known)
    (leftKnown : left ∈ known)
    (rightKnown : right ∈ known) :
    Synthesis.Sound known (selectCoordinate cases computed left right) ({·}) := by
  have cancels : cases.cancels ∈ known := casesKnown (by simp [caseCells])
  have leftInfinity : cases.leftInfinity ∈ known := casesKnown (by simp [caseCells])
  have rightInfinity : cases.rightInfinity ∈ known := casesKnown (by simp [caseCells])
  refine (Synthesis.select_sound (by simp) (by simp [computedKnown])
    (by simp [cancels])).bind fun finite => ?_
  refine (Synthesis.select_sound (by simp [leftKnown]) (by simp)
    (by simp [rightInfinity])).bind fun unlessRight => ?_
  exact Synthesis.select_sound (by simp [rightKnown]) (by simp) (by simp [leftInfinity])

/-- The sum of two points is settled, in every case of the group law. -/
theorem addPoints_sound
    {left right : PointCells field}
    (leftX : left.x ∈ known)
    (leftY : left.y ∈ known)
    (rightX : right.x ∈ known)
    (rightY : right.y ∈ known) :
    Assembly.Sound known (addPoints left right) pointCells := by
  refine (Assembly.Sound.lift (additionCase_sound leftX leftY rightX rightY)).bind fun cases => ?_
  refine (Assembly.Sound.lift (slopeFraction_sound (by simp [leftX]) (by simp [leftY])
    (by simp [rightX]) (by simp [rightY]) (by simp [caseCells])
    (by simp [caseCells]))).bind fun fraction => ?_
  refine (Assembly.divide_sound (by simp) (by simp)).bind fun slope => ?_
  refine (Assembly.Sound.lift (thirdPoint_sound (by simp [leftX]) (by simp [leftY])
    (by simp [rightX]) (by simp))).bind fun third => ?_
  refine (Assembly.Sound.lift (selectCoordinate_sound (by grind) (by simp [pointCells])
    (by simp [leftX]) (by simp [rightX]))).bind fun x => ?_
  refine (Assembly.Sound.lift (selectCoordinate_sound (by grind) (by simp [pointCells])
    (by simp [leftY]) (by simp [rightY]))).bind fun y => ?_
  refine Assembly.Sound.pure ?_
  rintro cell (rfl | rfl) <;> simp

/-- The power of a root is settled by its bits. -/
theorem powerOfRoot_sound
    {root : Element field}
    {power : Cell field}
    {bits : List (Cell field)}
    (powerKnown : power ∈ known)
    (bitsKnown : ∀ bit ∈ bits, bit ∈ known) :
    Synthesis.Sound known (powerOfRoot root power bits) ({·}) := by
  induction bits generalizing power known with
  | nil =>
      refine Synthesis.Sound.pure ?_
      rintro cell rfl
      exact powerKnown
  | cons bit rest inductionHypothesis =>
      have bitKnown := bitsKnown bit List.mem_cons_self
      refine (Synthesis.mulAdd_sound (by simp [bitKnown]) (by simp) (by simp)).bind
        fun factor => ?_
      refine (Synthesis.mul_sound (by simp [powerKnown]) (by simp [powerKnown])).bind
        fun square => ?_
      refine (Synthesis.mul_sound (by simp) (by simp)).bind fun next => ?_
      refine inductionHypothesis (by simp) fun later member => ?_
      simp [bitsKnown later (List.mem_cons_of_mem _ member)]

/-- A round is settled by its power and its bit. -/
theorem cosetRound_sound
    {power bit : Cell field}
    (powerKnown : power ∈ known)
    (bitKnown : bit ∈ known) :
    Synthesis.Sound known (cosetRound power bit) (fun round => {cell | cell ∈ round.toList}) := by
  refine (Synthesis.neg_sound (by simp [powerKnown])).bind fun opposite => ?_
  refine (Synthesis.select_sound (by simp) (by simp [powerKnown])
    (by simp [bitKnown])).bind fun member => ?_
  refine (Synthesis.neg_sound (by simp)).bind fun opposite => ?_
  refine Synthesis.Sound.pure fun cell isOutput => ?_
  simp only [CosetCells.toList, Set.mem_ofPred_eq, List.mem_cons, List.not_mem_nil, or_false]
    at isOutput
  rcases isOutput with rfl | rfl | rfl
  · simp
  · simp
  · simp [bitKnown]

/-- All rounds are settled by the first power and the bits. -/
theorem cosetRounds_sound
    {power : Cell field}
    {bits : List (Cell field)}
    (powerKnown : power ∈ known)
    (bitsKnown : ∀ bit ∈ bits, bit ∈ known) :
    Synthesis.Sound known (cosetRounds power bits)
      (fun rounds => {cell | cell ∈ rounds.flatMap CosetCells.toList}) := by
  induction bits generalizing power known with
  | nil => exact Synthesis.Sound.pure (by simp)
  | cons bit rest inductionHypothesis =>
      have bitKnown := bitsKnown bit List.mem_cons_self
      have laterKnown : ∀ later ∈ rest, later ∈ known :=
        fun later member => bitsKnown later (List.mem_cons_of_mem _ member)
      cases rest with
      | nil =>
          refine (cosetRound_sound powerKnown bitKnown).bind fun round => ?_
          exact Synthesis.Sound.pure (by simp)
      | cons second rest =>
          refine (cosetRound_sound powerKnown bitKnown).bind fun round => ?_
          refine (Synthesis.mul_sound (by simp [powerKnown]) (by simp [powerKnown])).bind
            fun square => ?_
          refine (inductionHypothesis (by simp)
            fun later member => by simp [laterKnown later member]).bind fun rounds => ?_
          refine Synthesis.Sound.pure fun cell isOutput => ?_
          simp only [List.flatMap_cons, List.mem_append, Set.mem_ofPred_eq] at isOutput
          rcases isOutput with ofRound | ofLater
          · simp [ofRound]
          · exact .inr ofLater

/-- A value passes the check exactly if it has no more bits. -/
theorem fitsIn_iff
    {value : Element field}
    {bits : Nat}
    (atMostWord : bits ≤ 64) :
    fitsIn value bits = true ↔ value.value < 2 ^ bits := by
  have isWord : value.value < 2 ^ bits → value.value < 2 ^ 64 := fun small =>
    small.trans_le (Nat.pow_le_pow_right (by decide) atMostWord)
  simp only [fitsIn, Nat.one_shiftLeft, Bool.and_eq_true, decide_eq_true_eq, Bool.or_eq_true,
    Nat.shiftRight_eq_div_pow, Nat.div_eq_zero_iff_lt (Nat.two_pow_pos bits)]
  constructor
  · rintro ⟨word, rfl | small⟩
    · exact word
    · exact small
  · exact fun small => ⟨isWord small, .inr small⟩

/-- The cosets of an index are settled; an index that has more bits is refused. -/
theorem cosets_sound
    {shape : CosetShape field}
    {index : Cell field}
    (atMostWord : shape.totalBits ≤ 64)
    (indexKnown : index ∈ known) :
    Assembly.Sound known (cosets shape index)
      (fun rounds => {cell | cell ∈ rounds.flatMap CosetCells.toList}) := by
  unfold cosets
  split
  next fits =>
    refine (Assembly.toBits_sound indexKnown ((fitsIn_iff atMostWord).mp fits)
      (field.two_pow_le_modulus atMostWord)).bind fun bits => ?_
    refine (Assembly.Sound.lift (Synthesis.constant_sound 1)).bind fun one => ?_
    refine (Assembly.Sound.lift (powerOfRoot_sound (by simp)
      fun bit member => by simp [List.mem_reverse.mp member])).bind fun power => ?_
    refine Assembly.Sound.lift (cosetRounds_sound (by simp) fun bit member => ?_)
    have isBit : bit ∈ bits := List.mem_reverse.mp (List.mem_of_mem_take member)
    simp [isBit]
  next => exact Assembly.Sound.refuse CircuitFailure.noConfusion

end Gadget

end Plonkish
