import Plonkish.Gadget.PointAddition
import Plonkish.Proofs.Circuit.Completion
import Plonkish.Proofs.Gadget.Evaluation
import Plonkish.Proofs.Gadget.Soundness

namespace Plonkish

/-!
# The group law

The sum of two points by the cases of the affine group law, and the addition of
points as what computes it. The cases are told apart by bits, and each bit is
forced by the coordinates. So no prover can choose the case, and the divisor of
the slope is never zero, on the curve or off it.
-/

/-- A point by the values of its coordinates. -/
@[ext]
structure Point (field : PrimeField) where
  x : Element field
  y : Element field
  deriving DecidableEq

namespace Point

variable {field : PrimeField}

/-- The point at infinity. -/
instance : Zero (Point field) := ⟨⟨0, 0⟩⟩

/-- The line through two points is vertical; at a single point, this is the tangent. -/
def Opposite (left right : Point field) : Prop :=
  left.x = right.x ∧ (left.y ≠ right.y ∨ left.y = 0)

instance (left right : Point field) : Decidable (left.Opposite right) :=
  inferInstanceAs (Decidable (_ ∧ _))

/-- The slope of the tangent at a point, or of the chord through two points. -/
def slope (left right : Point field) : Element field :=
  if left = right then 3 * left.x ^ 2 / (2 * left.y)
  else (right.y - left.y) / (right.x - left.x)

/-- The third point of the curve on a line of some slope through two points, reflected. -/
def third (left right : Point field) (slope : Element field) : Point field :=
  let x := slope ^ 2 - left.x - right.x
  ⟨x, slope * (left.x - x) - left.y⟩

/-- The sum by the cases of the affine group law. -/
instance : Add (Point field) where
  add left right :=
    if left = 0 then right
    else if right = 0 then left
    else if left.Opposite right then 0
    else left.third right (left.slope right)

/-- The sum by cases, in the order in which the layout tells them apart. -/
theorem add_eq (left right : Point field) :
    left + right =
      if left = 0 then right
      else if right = 0 then left
      else if left.Opposite right then 0
      else left.third right (left.slope right) :=
  rfl

/-- There is no slope where a point is at infinity or the line is vertical. -/
def Degenerate (left right : Point field) : Prop :=
  (left = 0 ∨ right = 0) ∨ left.Opposite right

instance (left right : Point field) : Decidable (left.Degenerate right) :=
  inferInstanceAs (Decidable (_ ∨ _))

/-- Points are opposite if their abscissas are equal, and their ordinates differ or are zero. -/
theorem decide_opposite (left right : Point field) :
    decide (left.Opposite right) =
      (decide (left.x = right.x) && (!decide (left.y = right.y) || decide (left.y = 0))) := by
  rw [Bool.eq_iff_iff, decide_eq_true_iff]
  simp [Opposite]

/-- There is no slope if a point is at infinity or the points are opposite. -/
theorem decide_degenerate (left right : Point field) :
    decide (left.Degenerate right) =
      (decide (left = 0) || decide (right = 0) || decide (left.Opposite right)) := by
  rw [Bool.eq_iff_iff, decide_eq_true_iff]
  simp [Degenerate]

/-- The point at infinity is the one whose coordinates are both zero. -/
theorem eq_zero_iff {point : Point field} : point = 0 ↔ point.x = 0 ∧ point.y = 0 :=
  Point.ext_iff

/-- Points of one abscissa that are not opposite are equal. -/
theorem eq_of_not_opposite
    {left right : Point field}
    (notOpposite : ¬ left.Opposite right)
    (same : left.x = right.x) :
    left = right := by
  refine Point.ext same ?_
  by_contra other
  exact notOpposite ⟨same, .inl other⟩

end Point

/-- Twice an element is zero for zero only. -/
theorem Element.add_self_ne_zero
    {field : PrimeField}
    {element : Element field}
    (nonzero : element ≠ 0) :
    element + element ≠ 0 := by
  have two : ((2 : Nat) : Element field) ≠ 0 := by
    intro vanishes
    have value : ((2 : Nat) : Element field).value = 2 :=
      Element.value_natCast (by cases field <;> decide)
    rw [vanishes] at value
    cases value
  rw [← two_mul]
  exact mul_ne_zero (by exact_mod_cast two) nonzero

namespace Point

variable {field : PrimeField} (left right : Point field)

/-- The dividend that gives the slope; where there is none, it is zero. -/
def rise : Element field :=
  if left.Degenerate right then 0
  else if left.x = right.x then left.x * left.x * Element.ofNat field 3
  else right.y - left.y

/-- The divisor that gives the slope; where there is none, it is one. -/
def run : Element field :=
  if left.Degenerate right then 1
  else if left.x = right.x then left.y + left.y
  else right.x - left.x

/-- No divisor of a slope is zero, whichever coordinates the points have. -/
theorem run_ne_zero : left.run right ≠ 0 := by
  unfold run
  split
  next => exact one_ne_zero
  next hasSlope =>
    have notOpposite : ¬ left.Opposite right := fun opposite => hasSlope (.inr opposite)
    split
    next same =>
      -- The points are equal, and the tangent at them is not vertical.
      have nonzero : left.y ≠ 0 := fun vertical => notOpposite ⟨same, .inr vertical⟩
      exact Element.add_self_ne_zero nonzero
    next other => exact sub_ne_zero.mpr (Ne.symm other)

variable {left right}

/-- The quotient is the slope, where there is one. -/
theorem slope_eq_rise_div_run (hasSlope : ¬ left.Degenerate right) :
    left.slope right = left.rise right / left.run right := by
  have notOpposite : ¬ left.Opposite right := fun opposite => hasSlope (.inr opposite)
  unfold slope rise run
  rw [if_neg hasSlope, if_neg hasSlope]
  by_cases same : left.x = right.x
  · have equal := eq_of_not_opposite notOpposite same
    rw [if_pos equal, if_pos same, if_pos same, Element.ofNat_eq_natCast, Nat.cast_ofNat]
    ring
  · have notEqual : left ≠ right := fun equal => same (congrArg x equal)
    rw [if_neg notEqual, if_neg same, if_neg same]

end Point

/-- The point whose coordinates two cells hold. -/
def PointCells.readBy
    {field : PrimeField}
    (read : Valuation field)
    (point : PointCells field) :
    Point field :=
  ⟨read point.x, read point.y⟩

namespace Gadget

variable {field : PrimeField} {read : Valuation field}

/-- A test for infinity tells whether the point is at infinity. -/
theorem isInfinity_computes (point : PointCells field) :
    Synthesis.Computes read (isInfinity point) (fun bit =>
      read bit = Synthesis.bitElement (decide (point.readBy read = 0))) := by
  refine (Synthesis.isZero_computes (by simp)).bind fun xZero => ?_
  refine (Synthesis.isZero_computes (by simp)).bind fun yZero => ?_
  refine (Synthesis.and_computes (by simp) (by simp)).imp fun bit isProduct isYZero isXZero => ?_
  rw [isProduct, Source.readBy_existing, Source.readBy_existing, isXZero, isYZero,
    Synthesis.bitElement_mul, ← Bool.decide_and]
  simp only [Point.eq_zero_iff]
  rfl

/-- The bits tell the cases of two points apart. -/
structure AdditionCase.Tells
    (cases : AdditionCase field)
    (read : Valuation field)
    (left right : Point field) :
    Prop where
  leftInfinity : read cases.leftInfinity = Synthesis.bitElement (decide (left = 0))
  rightInfinity : read cases.rightInfinity = Synthesis.bitElement (decide (right = 0))
  sameAbscissa : read cases.sameAbscissa = Synthesis.bitElement (decide (left.x = right.x))
  cancels : read cases.cancels = Synthesis.bitElement (decide (left.Opposite right))
  degenerate : read cases.degenerate = Synthesis.bitElement (decide (left.Degenerate right))

/-- The bits of the cases tell which cases apply. -/
theorem additionCase_computes (left right : PointCells field) :
    Synthesis.Computes read (additionCase left right) (fun cases =>
      cases.Tells read (left.readBy read) (right.readBy read)) := by
  refine (isInfinity_computes left).bind fun leftInfinity => ?_
  refine (isInfinity_computes right).bind fun rightInfinity => ?_
  refine (Synthesis.isEqual_computes (by simp) (by simp)).bind fun sameAbscissa => ?_
  refine (Synthesis.isEqual_computes (by simp) (by simp)).bind fun sameOrdinate => ?_
  refine (Synthesis.isZero_computes (by simp)).bind fun zeroOrdinate => ?_
  refine (Synthesis.not_computes (by simp)).bind fun otherOrdinate => ?_
  refine (Synthesis.or_computes (by simp) (by simp)).bind fun opposite => ?_
  refine (Synthesis.and_computes (by simp) (by simp)).bind fun cancels => ?_
  refine (Synthesis.or_computes (by simp) (by simp)).bind fun anyInfinity => ?_
  refine (Synthesis.or_computes (by simp) (by simp)).bind fun degenerate => ?_
  refine Synthesis.Computes.pure ?_
  intro isDegenerate isAnyInfinity isCancels isOpposite isOtherOrdinate isZeroOrdinate
    isSameOrdinate isSameAbscissa isRightInfinity isLeftInfinity
  simp only [Source.readBy_existing] at *
  rw [isSameOrdinate, Synthesis.one_sub_bitElement] at isOtherOrdinate
  rw [isOtherOrdinate, isZeroOrdinate, Synthesis.bitElement_mul,
    Synthesis.bitElement_add_sub_and] at isOpposite
  rw [isSameAbscissa, isOpposite, Synthesis.bitElement_mul] at isCancels
  rw [isLeftInfinity, isRightInfinity, Synthesis.bitElement_mul,
    Synthesis.bitElement_add_sub_and] at isAnyInfinity
  rw [isAnyInfinity, isCancels, Synthesis.bitElement_mul,
    Synthesis.bitElement_add_sub_and] at isDegenerate
  exact {
    leftInfinity := isLeftInfinity
    rightInfinity := isRightInfinity
    sameAbscissa := isSameAbscissa
    cancels := by
      rw [isCancels, Point.decide_opposite]
      rfl
    degenerate := by
      rw [isDegenerate, Point.decide_degenerate, Point.decide_opposite]
      rfl
  }

/-- Both parts of the slope are those of the tangent or of the chord, or zero and one. -/
theorem slopeFraction_computes (left right : PointCells field) (cases : AdditionCase field) :
    Synthesis.Computes read (slopeFraction left right cases) (fun fraction =>
      cases.Tells read (left.readBy read) (right.readBy read) →
        read fraction.1 = (left.readBy read).rise (right.readBy read)
          ∧ read fraction.2 = (left.readBy read).run (right.readBy read)) := by
  refine (Synthesis.mul_computes (by simp) (by simp)).bind fun square => ?_
  refine (Synthesis.mul_computes (by simp) (by simp)).bind fun tangentRise => ?_
  refine (Synthesis.add_computes (by simp) (by simp)).bind fun tangentRun => ?_
  refine (Synthesis.sub_computes (by simp) (by simp)).bind fun chordRise => ?_
  refine (Synthesis.sub_computes (by simp) (by simp)).bind fun chordRun => ?_
  refine (Synthesis.select_computes (by simp) (by simp) (by simp)).bind fun rise => ?_
  refine (Synthesis.select_computes (by simp) (by simp) (by simp)).bind fun run => ?_
  refine (Synthesis.select_computes (by simp) (by simp) (by simp)).bind fun safeRise => ?_
  refine (Synthesis.select_computes (by simp) (by simp) (by simp)).bind fun safeRun => ?_
  refine Synthesis.Computes.pure ?_
  intro isSafeRun isSafeRise isRun isRise isChordRun isChordRise isTangentRun isTangentRise
    isSquare tells
  simp only [Source.readBy_existing, Source.readBy_constant, tells.sameAbscissa,
    tells.degenerate, Synthesis.selection_bitElement, decide_eq_true_eq]
    at isSafeRun isSafeRise isRun isRise isChordRun isChordRise isTangentRun isTangentRise isSquare
  constructor
  · rw [isSafeRise, isRise, isTangentRise, isSquare, isChordRise]
    rfl
  · rw [isSafeRun, isRun, isTangentRun, isChordRun]
    rfl

/-- The third point is the one that a line with the slope meets, reflected. -/
theorem thirdPoint_computes (left right : PointCells field) (slope : Cell field) :
    Synthesis.Computes read (thirdPoint left right slope) (fun point =>
      point.readBy read = (left.readBy read).third (right.readBy read) (read slope)) := by
  refine (Synthesis.mul_computes (by simp) (by simp)).bind fun square => ?_
  refine (Synthesis.sub_computes (by simp) (by simp)).bind fun firstDifference => ?_
  refine (Synthesis.sub_computes (by simp) (by simp)).bind fun x => ?_
  refine (Synthesis.sub_computes (by simp) (by simp)).bind fun run => ?_
  refine (Synthesis.mul_computes (by simp) (by simp)).bind fun rise => ?_
  refine (Synthesis.sub_computes (by simp) (by simp)).bind fun y => ?_
  refine Synthesis.Computes.pure ?_
  intro isY isRise isRun isX isDifference isSquare
  simp only [Source.readBy_existing] at isY isRise isRun isX isDifference isSquare
  rw [isDifference, isSquare, ← pow_two] at isX
  rw [isRise, isRun, isX] at isY
  exact Point.ext isX isY

/-- A coordinate of the sum is that of the case which the bits tell. -/
theorem selectCoordinate_computes
    (left right : Point field)
    (cases : AdditionCase field)
    (computed fromLeft fromRight : Cell field) :
    Synthesis.Computes read (selectCoordinate cases computed fromLeft fromRight) (fun result =>
      cases.Tells read left right → read result =
        if left = 0 then read fromRight
        else if right = 0 then read fromLeft
        else if left.Opposite right then 0
        else read computed) := by
  refine (Synthesis.select_computes (by simp) (by simp) (by simp)).bind fun finite => ?_
  refine (Synthesis.select_computes (by simp) (by simp) (by simp)).bind fun unlessRight => ?_
  refine (Synthesis.select_computes (by simp) (by simp) (by simp)).imp ?_
  intro result isResult isUnlessRight isFinite tells
  simp only [Source.readBy_existing, Source.readBy_constant, tells.leftInfinity,
    tells.rightInfinity, tells.cancels, Synthesis.selection_bitElement, decide_eq_true_eq]
    at isResult isUnlessRight isFinite
  rw [isResult, isUnlessRight, isFinite]

/-- The bits of the cases, and the dividend and the divisor of the slope. -/
def slopeParts
    (left right : PointCells field) :
    Synthesis field (AdditionCase field × Cell field × Cell field) := do
  let cases ← additionCase left right
  let fraction ← slopeFraction left right cases
  return (cases, fraction)

/-- The cases and both parts of the slope are computed before there is any quotient. -/
theorem slopeParts_computes (left right : PointCells field) :
    Synthesis.Computes read (slopeParts left right) (fun parts =>
      parts.1.Tells read (left.readBy read) (right.readBy read)
        ∧ read parts.2.1 = (left.readBy read).rise (right.readBy read)
        ∧ read parts.2.2 = (left.readBy read).run (right.readBy read)) := by
  refine (additionCase_computes left right).bind fun cases => ?_
  refine (slopeFraction_computes left right cases).bind fun fraction => ?_
  exact Synthesis.Computes.pure fun isFraction tells => ⟨tells, isFraction tells⟩

/-- What is left of an addition once the slope has its dividend and its divisor. -/
def addWithParts
    (left right : PointCells field)
    (parts : AdditionCase field × Cell field × Cell field) :
    Assembly field (PointCells field) := do
  let slope ← Assembly.divide parts.2.1 parts.2.2
  let third ← thirdPoint left right slope
  let x ← selectCoordinate parts.1 third.x left.x right.x
  let y ← selectCoordinate parts.1 third.y left.y right.y
  return { x, y }

/-- An addition is its slope, and what follows from it. -/
theorem run_addPoints (left right : PointCells field) (transcript : Transcript field) :
    (addPoints left right).run transcript =
      (addWithParts left right (slopeParts left right transcript).1).run
        (slopeParts left right transcript).2 := by
  rw [addPoints, run_lift_bind, run_lift_bind, slopeParts, Synthesis.bind_apply,
    Synthesis.bind_apply]
  rfl

/-- What follows from the slope is the sum, for whatever satisfies the quotient. -/
theorem addWithParts_computes
    (left right : PointCells field)
    (parts : AdditionCase field × Cell field × Cell field) :
    Assembly.Computes read (addWithParts left right parts) (fun sum =>
      parts.1.Tells read (left.readBy read) (right.readBy read)
          ∧ read parts.2.1 = (left.readBy read).rise (right.readBy read)
          ∧ read parts.2.2 = (left.readBy read).run (right.readBy read) →
        sum.readBy read = left.readBy read + right.readBy read) := by
  refine (Assembly.divide_computes (by simp) (by simp)).bind fun slope => ?_
  refine (Assembly.Computes.lift (thirdPoint_computes left right slope)).bind fun third => ?_
  refine (Assembly.Computes.lift (selectCoordinate_computes (left.readBy read)
    (right.readBy read) parts.1 third.x left.x right.x)).bind fun x => ?_
  refine (Assembly.Computes.lift (selectCoordinate_computes (left.readBy read)
    (right.readBy read) parts.1 third.y left.y right.y)).bind fun y => ?_
  refine Assembly.Computes.pure fun isY isX isThird isQuotient => ?_
  rintro ⟨tells, isRise, isRun⟩
  have chosen : (PointCells.mk x y).readBy read =
      if left.readBy read = 0 then right.readBy read
      else if right.readBy read = 0 then left.readBy read
      else if (left.readBy read).Opposite (right.readBy read) then 0
      else third.readBy read := by
    apply Point.ext
    · simp only [apply_ite Point.x]
      exact isX tells
    · simp only [apply_ite Point.y]
      exact isY tells
  rw [chosen, Point.add_eq]
  split_ifs with leftInfinity rightInfinity vertical
  · rfl
  · rfl
  · rfl
  · have hasSlope : ¬ (left.readBy read).Degenerate (right.readBy read) := by
      rintro ((infinity | infinity) | opposite)
      · exact leftInfinity infinity
      · exact rightInfinity infinity
      · exact vertical opposite
    have nonzero := Point.run_ne_zero (left.readBy read) (right.readBy read)
    rw [Source.readBy_existing, Source.readBy_existing, isRise, isRun] at isQuotient
    rw [isThird, Point.slope_eq_rise_div_run hasSlope,
      eq_div_of_mul_eq nonzero (isQuotient nonzero)]

/-- The result of an addition is read as the sum of what its points are read as. -/
theorem addPoints_computes (left right : PointCells field) :
    Assembly.Computes read (addPoints left right) (fun sum =>
      sum.readBy read = left.readBy read + right.readBy read) := by
  refine (Assembly.Computes.lift (additionCase_computes left right)).bind fun cases => ?_
  refine (Assembly.Computes.lift (slopeFraction_computes left right cases)).bind
    fun ⟨rise, run⟩ => ?_
  refine (addWithParts_computes left right (cases, rise, run)).imp ?_
  exact fun sum isSum isFraction tells => isSum ⟨tells, isFraction tells⟩

/-- Any two points have a sum, also if they are on no curve. -/
theorem addPoints_completes {transcript : Transcript field} (left right : PointCells field) :
    Completes (fun _ => True) (addPoints left right) transcript := by
  unfold Completes
  rw [run_addPoints]
  apply Completes.bind
  · apply Assembly.divide_completes
    have parts := (slopeParts_computes left right).holds transcript .handles
    exact parts.2.2.trans_ne (Point.run_ne_zero _ _)
  · intro slope _ _
    iterate 3 apply Completes.bind_lift
    exact Completes.pure trivial

/-- The cell by which an addition divides to get the slope. -/
def slopeDivisor
    (left right : PointCells field)
    (transcript : Transcript field) :
    Cell field :=
  (slopeParts left right transcript).1.2.2

/--
An addition has a result, whichever coordinates its points have. Whatever
satisfies the constraints that it laid out gives its cells the sum of the points
by the group law, and the divisor of the slope another value than zero.
-/
theorem addPoints_groupLaw (transcript : Transcript field) (left right : PointCells field) :
    ∃ sum after, (addPoints left right).run transcript = (.ok sum, after)
      ∧ ∀ read, Valuation.Faithful transcript after read →
          read (slopeDivisor left right transcript) ≠ 0
            ∧ sum.readBy read = left.readBy read + right.readBy read := by
  have completes : Completes (fun _ => True) (addPoints left right) transcript :=
    addPoints_completes left right
  obtain ⟨sum, after, gives, -⟩ := completes
  refine ⟨sum, after, gives, fun read faithful => ?_⟩
  have first := @slopeParts_computes _ read left right
  have second := @addWithParts_computes _ read left right (slopeParts left right transcript).1
  have resumed : (addWithParts left right (slopeParts left right transcript).1).run
      (slopeParts left right transcript).2 = (.ok sum, after) := by
    rw [← run_addPoints, gives]
  have extended := second.extended (slopeParts left right transcript).2
  rw [resumed] at extended
  have parts := first.holds transcript (faithful.before extended)
  constructor
  · exact parts.2.2.trans_ne (Point.run_ne_zero _ _)
  · exact second.of_ok resumed (faithful.after (first.extended transcript)) parts

/-- A finite point whose abscissa is zero. -/
def doubledPoint : PointCells .bn254Scalar :=
  ⟨⟨0, 0⟩, ⟨1, Element.ofNat .bn254Scalar 5⟩⟩

/-- A point is doubled by its tangent, also if its abscissa is zero. -/
theorem addPoints_groupLaw_doubled :
    ∃ sum after, (addPoints doubledPoint doubledPoint).run (.ofValues [0, 5]) = (.ok sum, after)
      ∧ Valuation.Faithful (.ofValues [0, 5]) after (.ofAssignment after.valueAt)
      ∧ sum.readBy (.ofAssignment after.valueAt) = ⟨0, -5⟩ := by
  obtain ⟨sum, after, gives, forced⟩ :=
    addPoints_groupLaw (.ofValues [0, 5]) doubledPoint doubledPoint
  have sound := @addPoints_sound _ {cell | cell ∈ [doubledPoint.x, doubledPoint.y]}
    doubledPoint doubledPoint (by simp) (by simp) (by simp) (by simp)
  obtain ⟨satisfied, held⟩ :=
    sound.satisfiedSince gives (Transcript.consistent_ofValues _) (by decide)
  refine ⟨sum, after, gives, .assigned satisfied, (forced _ (.assigned satisfied)).2.trans ?_⟩
  have isPoint : doubledPoint.readBy (.ofAssignment after.valueAt) = ⟨0, 5⟩ :=
    Point.ext (held _ (by simp)) (held _ (by simp))
  rw [isPoint]
  decide +kernel

end Gadget

end Plonkish
