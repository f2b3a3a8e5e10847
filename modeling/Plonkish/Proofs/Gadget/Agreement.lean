import Plonkish.Gadget.Cosets
import Plonkish.Gadget.PointAddition
import Plonkish.Gadget.Select
import Plonkish.Gadget.Sizes
import Plonkish.Proofs.Circuit.OperationAgreement

namespace Plonkish

/-!
# Agreeing gadgets

Conditions, points at infinity, points that cancel and the bits of an index
decide what cells hold, and never which cells are laid out. Where a gadget does
look at a value, it refuses the input or crashes, and gives no circuit.
-/

variable {field : PrimeField} {aligned : Prop}

namespace Assembly

/-- A quotient is laid out alike in two runs; one that has no value ends its run. -/
theorem divide_alike
    {dividend otherDividend divisor otherDivisor : Source field}
    (dividends : dividend.Agrees aligned otherDividend)
    (divisors : divisor.Agrees aligned otherDivisor) :
    Alike aligned (divide dividend divisor) (divide otherDividend otherDivisor)
      (Cell.Agrees aligned) := by
  unfold divide
  by_cases zero : divisor.value = 0
  · rw [if_pos zero]
    exact SucceedAlike.throw
  by_cases otherZero : otherDivisor.value = 0
  · rw [if_pos otherZero]
    exact SucceedAlike.throwRight
  rw [if_neg zero, if_neg otherZero]
  exact Alike.lift (Synthesis.quotient_alike dividends divisors)

/-- The bits of agreeing cells are as many, and sit at the same offsets. -/
theorem toBits_alike
    {cell otherCell : Cell field}
    (cells : cell.Agrees aligned otherCell)
    (width : Nat) :
    Alike aligned (toBits cell width) (toBits otherCell width) (Cell.AllAgree aligned) := by
  unfold toBits
  by_cases refused : width = 0 ∨ field.bits < width
  · rw [if_pos refused]
    exact SucceedAlike.throw
  · rw [if_neg refused, if_neg refused]
    exact Alike.lift (Synthesis.bits_alike cells width)

/-- Lists that agree are cut at the same place. -/
theorem split_alike
    {cells otherCells : List (Cell field)}
    (agree : Cell.AllAgree aligned cells otherCells)
    (count : Nat) :
    Alike aligned (split count cells : Assembly field _) (split count otherCells)
      (fun parts others => Cell.AllAgree aligned parts.1 others.1
        ∧ Cell.AllAgree aligned parts.2 others.2) := by
  unfold split Sizes.split?
  rw [agree.length_eq]
  by_cases enough : count ≤ otherCells.length
  · rw [if_pos enough, if_pos enough]
    apply SucceedAlike.pure
    rw [List.splitAt_eq, List.splitAt_eq]
    exact ⟨List.forall₂_take count agree, List.forall₂_drop count agree⟩
  · rw [if_neg enough]
    exact SucceedAlike.throw

/-- A check of lengths lays out nothing that could differ. -/
theorem checkLength_alike
    {name : String}
    {expected : Nat}
    {cells otherCells : List (Cell field)} :
    Alike aligned (checkLength name expected cells) (checkLength name expected otherCells)
      (fun _ _ => True) := by
  unfold checkLength
  by_cases asExpected : cells.length = expected
  · by_cases otherAsExpected : otherCells.length = expected
    · rw [if_pos asExpected, if_pos otherAsExpected]
      exact SucceedAlike.pure trivial
    · rw [if_neg otherAsExpected]
      exact SucceedAlike.throwRight
  · rw [if_neg asExpected]
    exact SucceedAlike.throw

end Assembly

/-- Two points agree coordinate by coordinate. -/
structure PointCells.Agrees (aligned : Prop) (left right : PointCells field) : Prop where
  x : left.x.Agrees aligned right.x
  y : left.y.Agrees aligned right.y

/-- The bits of two additions agree one by one. -/
structure Gadget.AdditionCase.Agrees
    (aligned : Prop)
    (left right : Gadget.AdditionCase field) :
    Prop where
  leftInfinity : left.leftInfinity.Agrees aligned right.leftInfinity
  rightInfinity : left.rightInfinity.Agrees aligned right.rightInfinity
  sameAbscissa : left.sameAbscissa.Agrees aligned right.sameAbscissa
  cancels : left.cancels.Agrees aligned right.cancels
  degenerate : left.degenerate.Agrees aligned right.degenerate

/-- The cells of two rounds agree one by one. -/
structure CosetCells.Agrees (aligned : Prop) (left right : CosetCells field) : Prop where
  member : left.member.Agrees aligned right.member
  opposite : left.opposite.Agrees aligned right.opposite
  bit : left.bit.Agrees aligned right.bit

/-- The cells of rounds that agree, in order. -/
theorem CosetCells.allAgree_flatMap
    {rounds otherRounds : List (CosetCells field)}
    (agree : List.Forall₂ (CosetCells.Agrees aligned) rounds otherRounds) :
    Cell.AllAgree aligned (rounds.flatMap CosetCells.toList)
      (otherRounds.flatMap CosetCells.toList) := by
  induction agree with
  | nil => exact .nil
  | cons head _ inductionHypothesis =>
      exact .cons head.member (.cons head.opposite (.cons head.bit inductionHypothesis))

namespace Gadget

/-- A selection is laid out alike, whichever value it picks. -/
theorem select_alike
    {condition otherCondition whenTrue otherTrue whenFalse otherFalse : Cell field}
    (conditions : condition.Agrees aligned otherCondition)
    (trues : whenTrue.Agrees aligned otherTrue)
    (falses : whenFalse.Agrees aligned otherFalse) :
    Synthesis.Alike aligned (select condition whenTrue whenFalse)
      (select otherCondition otherTrue otherFalse) (Cell.Agrees aligned) := by
  apply (Synthesis.isZero_alike conditions.source).bind
  intro isZero otherIsZero bits
  exact Synthesis.select_alike falses trues bits

/-! ## Point addition -/

variable {left otherLeft right otherRight : PointCells field}

/-- A test for infinity is laid out alike, whatever its outcome. -/
theorem isInfinity_alike (points : left.Agrees aligned otherLeft) :
    Synthesis.Alike aligned (isInfinity left) (isInfinity otherLeft) (Cell.Agrees aligned) := by
  apply (Synthesis.isZero_alike points.x.source).bind
  intro xZero otherXZero xBits
  apply (Synthesis.isZero_alike points.y.source).bind
  intro yZero otherYZero yBits
  exact Synthesis.and_alike xBits yBits

/-- Which case an addition falls into is computed, and never branched on. -/
theorem additionCase_alike
    (lefts : left.Agrees aligned otherLeft)
    (rights : right.Agrees aligned otherRight) :
    Synthesis.Alike aligned (additionCase left right) (additionCase otherLeft otherRight)
      (AdditionCase.Agrees aligned) := by
  apply (isInfinity_alike lefts).bind
  intro leftInfinity _ leftBits
  apply (isInfinity_alike rights).bind
  intro rightInfinity _ rightBits
  apply (Synthesis.isEqual_alike lefts.x.source rights.x.source).bind
  intro sameAbscissa _ abscissaBits
  apply (Synthesis.isEqual_alike lefts.y.source rights.y.source).bind
  intro sameOrdinate _ ordinateBits
  apply (Synthesis.isZero_alike lefts.y.source).bind
  intro zeroOrdinate _ zeroBits
  apply (Synthesis.not_alike ordinateBits.source).bind
  intro otherOrdinate _ otherBits
  apply (Synthesis.or_alike otherBits.source zeroBits.source).bind
  intro opposite _ oppositeBits
  apply (Synthesis.and_alike abscissaBits.source oppositeBits.source).bind
  intro cancels _ cancelBits
  apply (Synthesis.or_alike leftBits.source rightBits.source).bind
  intro anyInfinity _ infinityBits
  apply (Synthesis.or_alike infinityBits.source cancelBits.source).bind
  intro degenerate _ degenerateBits
  exact Synthesis.Alike.pure ⟨leftBits, rightBits, abscissaBits, cancelBits, degenerateBits⟩

/-- Both parts of the slope are laid out alike, whichever case applies. -/
theorem slopeFraction_alike
    (lefts : left.Agrees aligned otherLeft)
    (rights : right.Agrees aligned otherRight)
    {cases otherCases : AdditionCase field}
    (bits : cases.Agrees aligned otherCases) :
    Synthesis.Alike aligned (slopeFraction left right cases)
      (slopeFraction otherLeft otherRight otherCases)
      (fun parts others =>
        parts.1.Agrees aligned others.1 ∧ parts.2.Agrees aligned others.2) := by
  have zeros : (Source.constant (0 : Element field)).Agrees aligned (.constant 0) := rfl
  have ones : (Source.constant (1 : Element field)).Agrees aligned (.constant 1) := rfl
  apply (Synthesis.mul_alike lefts.x.source lefts.x.source).bind
  intro square _ squares
  apply (Synthesis.mul_alike squares.source (Source.agrees_constant.mpr rfl)).bind
  intro tangentRise _ tangentRises
  apply (Synthesis.add_alike lefts.y.source lefts.y.source).bind
  intro tangentRun _ tangentRuns
  apply (Synthesis.sub_alike rights.y.source lefts.y.source).bind
  intro chordRise _ chordRises
  apply (Synthesis.sub_alike rights.x.source lefts.x.source).bind
  intro chordRun _ chordRuns
  apply (Synthesis.select_alike tangentRises.source chordRises.source bits.sameAbscissa.source).bind
  intro rise _ rises
  apply (Synthesis.select_alike tangentRuns.source chordRuns.source bits.sameAbscissa.source).bind
  intro run _ runs
  apply (Synthesis.select_alike zeros rises.source bits.degenerate.source).bind
  intro finalRise _ finalRises
  apply (Synthesis.select_alike ones runs.source bits.degenerate.source).bind
  intro finalRun _ finalRuns
  exact Synthesis.Alike.pure ⟨finalRises, finalRuns⟩

/-- The third point is laid out alike, whatever the slope. -/
theorem thirdPoint_alike
    (lefts : left.Agrees aligned otherLeft)
    (rights : right.Agrees aligned otherRight)
    {slope otherSlope : Cell field}
    (slopes : slope.Agrees aligned otherSlope) :
    Synthesis.Alike aligned (thirdPoint left right slope)
      (thirdPoint otherLeft otherRight otherSlope) (PointCells.Agrees aligned) := by
  apply (Synthesis.mul_alike slopes.source slopes.source).bind
  intro square _ squares
  apply (Synthesis.sub_alike squares.source lefts.x.source).bind
  intro firstDifference _ differences
  apply (Synthesis.sub_alike differences.source rights.x.source).bind
  intro x _ abscissas
  apply (Synthesis.sub_alike lefts.x.source abscissas.source).bind
  intro run _ runs
  apply (Synthesis.mul_alike slopes.source runs.source).bind
  intro rise _ rises
  apply (Synthesis.sub_alike rises.source lefts.y.source).bind
  intro y _ ordinates
  exact Synthesis.Alike.pure ⟨abscissas, ordinates⟩

/-- A coordinate of the sum is laid out alike, whichever case applies. -/
theorem selectCoordinate_alike
    {cases otherCases : AdditionCase field}
    (bits : cases.Agrees aligned otherCases)
    {computed otherComputed first otherFirst second otherSecond : Cell field}
    (computeds : computed.Agrees aligned otherComputed)
    (firsts : first.Agrees aligned otherFirst)
    (seconds : second.Agrees aligned otherSecond) :
    Synthesis.Alike aligned (selectCoordinate cases computed first second)
      (selectCoordinate otherCases otherComputed otherFirst otherSecond)
      (Cell.Agrees aligned) := by
  have zeros : (Source.constant (0 : Element field)).Agrees aligned (.constant 0) := rfl
  apply (Synthesis.select_alike zeros computeds.source bits.cancels.source).bind
  intro finite _ finites
  apply (Synthesis.select_alike firsts.source finites.source bits.rightInfinity.source).bind
  intro unlessRight _ unlessRights
  exact Synthesis.select_alike seconds unlessRights bits.leftInfinity

/-- Additions of points are laid out alike in every case of the group law. -/
theorem addPoints_alike
    (lefts : left.Agrees aligned otherLeft)
    (rights : right.Agrees aligned otherRight) :
    Assembly.Alike aligned (addPoints left right) (addPoints otherLeft otherRight)
      (PointCells.Agrees aligned) := by
  apply (Assembly.Alike.lift (additionCase_alike lefts rights)).bind
  intro cases otherCases bits
  apply (Assembly.Alike.lift (slopeFraction_alike lefts rights bits)).bind
  intro fraction otherFraction fractions
  apply (Assembly.divide_alike fractions.1.source fractions.2.source).bind
  intro slope otherSlope slopes
  apply (Assembly.Alike.lift (thirdPoint_alike lefts rights slopes)).bind
  intro third otherThird thirds
  apply (Assembly.Alike.lift (selectCoordinate_alike bits thirds.x lefts.x rights.x)).bind
  intro x otherX abscissas
  apply (Assembly.Alike.lift (selectCoordinate_alike bits thirds.y lefts.y rights.y)).bind
  intro y otherY ordinates
  exact SucceedAlike.pure ⟨abscissas, ordinates⟩

/-! ## Cosets -/

/-- The power of a root is laid out alike for as many bits, whatever they are. -/
theorem powerOfRoot_alike
    (root : Element field)
    {bits otherBits : List (Cell field)}
    (bitsAgree : Cell.AllAgree aligned bits otherBits)
    {power otherPower : Cell field}
    (powers : power.Agrees aligned otherPower) :
    Synthesis.Alike aligned (powerOfRoot root power bits) (powerOfRoot root otherPower otherBits)
      (Cell.Agrees aligned) := by
  induction bitsAgree generalizing power otherPower with
  | nil => exact Synthesis.Alike.pure powers
  | cons head _ inductionHypothesis =>
      unfold powerOfRoot
      apply (Synthesis.mulAdd_alike head.source
        (Source.agrees_constant.mpr rfl) (Source.agrees_constant.mpr rfl)).bind
      intro factor _ factors
      apply (Synthesis.mul_alike powers.source     powers.source).bind
      intro square _ squares
      apply (Synthesis.mul_alike squares.source     factors.source).bind
      intro next _ nexts
      exact inductionHypothesis nexts

/-- A round is laid out alike, whatever its bit. -/
theorem cosetRound_alike
    {power otherPower bit otherBit : Cell field}
    (powers : power.Agrees aligned otherPower)
    (bits : bit.Agrees aligned otherBit) :
    Synthesis.Alike aligned (cosetRound power bit) (cosetRound otherPower otherBit)
      (CosetCells.Agrees aligned) := by
  apply (Synthesis.neg_alike powers.source).bind
  intro opposite _ opposites
  apply (Synthesis.select_alike opposites.source powers.source bits.source).bind
  intro member _ members
  apply (Synthesis.neg_alike members.source).bind
  intro newOpposite _ newOpposites
  exact Synthesis.Alike.pure ⟨members, newOpposites, bits⟩

/-- Rounds are laid out alike for as many bits, whatever they are. -/
theorem cosetRounds_alike
    {bits otherBits : List (Cell field)}
    (bitsAgree : Cell.AllAgree aligned bits otherBits)
    {power otherPower : Cell field}
    (powers : power.Agrees aligned otherPower) :
    Synthesis.Alike aligned (cosetRounds power bits) (cosetRounds otherPower otherBits)
      (List.Forall₂ (CosetCells.Agrees aligned)) := by
  induction bitsAgree generalizing power otherPower with
  | nil => exact Synthesis.Alike.pure .nil
  | cons head tail inductionHypothesis =>
      cases tail with
      | nil =>
          unfold cosetRounds
          apply (cosetRound_alike powers head).bind
          intro round _ rounds
          exact Synthesis.Alike.pure (.cons rounds .nil)
      | cons second rest =>
          unfold cosetRounds
          apply (cosetRound_alike powers head).bind
          intro round _ rounds
          apply (Synthesis.mul_alike powers.source         powers.source).bind
          intro square _ squares
          apply (inductionHypothesis squares).bind
          intro later _ laters
          exact Synthesis.Alike.pure (.cons rounds laters)

/-- Cosets are laid out alike for every index that is not refused. -/
theorem cosets_alike
    (shape : CosetShape field)
    {index otherIndex : Cell field}
    (indices : index.Agrees aligned otherIndex) :
    Assembly.Alike aligned (cosets shape index) (cosets shape otherIndex)
      (List.Forall₂ (CosetCells.Agrees aligned)) := by
  unfold cosets
  by_cases fits : fitsIn index.value shape.totalBits = true
  swap
  · rw [if_neg fits]
    exact SucceedAlike.throw
  by_cases otherFits : fitsIn otherIndex.value shape.totalBits = true
  swap
  · rw [if_neg otherFits]
    exact SucceedAlike.throwRight
  rw [if_pos fits, if_pos otherFits]
  apply (Assembly.toBits_alike indices shape.totalBits).bind
  intro bits otherBits bitsAgree
  have reversed : Cell.AllAgree aligned bits.reverse otherBits.reverse :=
    List.forall₂_reverse_iff.mpr bitsAgree
  apply (Assembly.Alike.lift (Synthesis.constant_alike 1)).bind
  intro one otherOne ones
  apply (Assembly.Alike.lift (powerOfRoot_alike shape.root reversed ones)).bind
  intro power otherPower powers
  exact Assembly.Alike.lift
    (cosetRounds_alike (List.forall₂_take shape.resultLength reversed) powers)

end Gadget

end Plonkish
