import Mathlib.AlgebraicGeometry.EllipticCurve.Affine.Formula
import Plonkish.Proofs.Gadget.GroupLaw

namespace Plonkish

/-!
# Sums of points of a curve

The group law adds points in either order, and a point at infinity changes
nothing, whichever coordinates the other point has. Points of a curve
`y² = x³ + b` add up to points of that curve. If `b` is not zero, then `(0, 0)` is
no solution of the equation, so a sum is encoded as the point at infinity only
where its points are opposite. All of this is forced on whoever chooses the
values of an addition.
-/

namespace Point

variable {field : PrimeField} {left right point : Point field} {constant : Element field}

/-! ## The order of the points -/

theorem Opposite.symm (opposite : left.Opposite right) : right.Opposite left := by
  obtain ⟨same, other | vertical⟩ := opposite
  · exact ⟨same.symm, .inl other.symm⟩
  · by_cases equal : right.y = left.y
    · exact ⟨same.symm, .inr (equal.trans vertical)⟩
    · exact ⟨same.symm, .inl equal⟩

theorem slope_comm (left right : Point field) : left.slope right = right.slope left := by
  by_cases equal : left = right
  · rw [equal]
  · rw [slope, slope, if_neg equal, if_neg (Ne.symm equal), ← neg_sub left.y, ← neg_sub left.x,
      neg_div_neg_eq]

/-- The line with the slope of two points goes through both of them, unless it is vertical. -/
theorem slope_mul_eq (notOpposite : ¬ left.Opposite right) :
    left.slope right * (right.x - left.x) = right.y - left.y := by
  by_cases equal : left = right
  · rw [equal, sub_self, sub_self, mul_zero]
  · have otherAbscissa : left.x ≠ right.x :=
      fun same => equal (eq_of_not_opposite notOpposite same)
    rw [slope, if_neg equal]
    exact div_mul_cancel₀ _ (sub_ne_zero.mpr otherAbscissa.symm)

/-- A line through two points has the same third point from either of them. -/
theorem third_comm
    {slope : Element field}
    (line : slope * (right.x - left.x) = right.y - left.y) :
    left.third right slope = right.third left slope := by
  apply Point.ext
  · exact sub_right_comm _ _ _
  · simp only [third]
    linear_combination -line

instance : AddZeroClass (Point field) where
  zero_add point := if_pos rfl
  add_zero point := by
    by_cases infinite : point = 0
    · rw [infinite]
      exact if_pos rfl
    · rw [add_eq, if_neg infinite, if_pos rfl]

instance : AddCommMagma (Point field) where
  add_comm left right := by
    by_cases leftInfinite : left = 0
    · rw [leftInfinite, zero_add, add_zero]
    by_cases rightInfinite : right = 0
    · rw [rightInfinite, zero_add, add_zero]
    rw [add_eq, add_eq, if_neg leftInfinite, if_neg rightInfinite, if_neg rightInfinite,
      if_neg leftInfinite]
    by_cases opposite : left.Opposite right
    · rw [if_pos opposite, if_pos opposite.symm]
    · rw [if_neg opposite, if_neg fun swapped => opposite swapped.symm, slope_comm right left,
        third_comm (slope_mul_eq opposite)]

/-! ## Points of a curve -/

/-- A point is at infinity or satisfies the equation `y² = x³ + b`. -/
def OnCurve (point : Point field) (constant : Element field) : Prop :=
  point = 0 ∨ point.y ^ 2 = point.x ^ 3 + constant

instance (point : Point field) (constant : Element field) : Decidable (point.OnCurve constant) :=
  inferInstanceAs (Decidable (_ ∨ _))

/-- The other point with the same abscissa. -/
instance : Neg (Point field) := ⟨fun point => ⟨point.x, -point.y⟩⟩

instance : NegZeroClass (Point field) where
  neg_zero := Point.ext rfl neg_zero

theorem neg_eq_zero_iff : -point = 0 ↔ point = 0 := by
  rw [eq_zero_iff, eq_zero_iff]
  exact and_congr_right fun _ => neg_eq_zero

/-- No finite point of a curve is encoded as the point at infinity is. -/
theorem ne_zero_of_equation
    (nonzero : constant ≠ 0)
    (equation : point.y ^ 2 = point.x ^ 3 + constant) :
    point ≠ 0 := by
  intro infinite
  obtain ⟨xZero, yZero⟩ := eq_zero_iff.mp infinite
  rw [xZero, yZero, zero_pow two_ne_zero, zero_pow three_ne_zero, zero_add] at equation
  exact nonzero equation.symm

/-- On a curve, a line is vertical exactly if it goes through a point and its negative. -/
theorem opposite_iff_eq_neg
    (leftEquation : left.y ^ 2 = left.x ^ 3 + constant)
    (rightEquation : right.y ^ 2 = right.x ^ 3 + constant) :
    left.Opposite right ↔ right = -left := by
  constructor
  · rintro ⟨same, cases⟩
    have squares : right.y ^ 2 = left.y ^ 2 := by
      rw [rightEquation, leftEquation, same]
    refine Point.ext same.symm ?_
    rcases sq_eq_sq_iff_eq_or_eq_neg.mp squares with equal | negated
    · have vertical : left.y = 0 := cases.resolve_left fun other => other equal.symm
      change right.y = -left.y
      rw [equal, vertical, neg_zero]
    · exact negated
  · rintro rfl
    refine ⟨rfl, ?_⟩
    by_cases vertical : left.y = 0
    · exact .inr vertical
    · refine .inl fun same => Element.add_self_ne_zero vertical ?_
      exact add_eq_zero_iff_eq_neg.mpr same

/-- The curve with the equation `y² = x³ + b`. -/
def curve (constant : Element field) : WeierstrassCurve.Affine (Element field) :=
  { a₁ := 0, a₂ := 0, a₃ := 0, a₄ := 0, a₆ := constant }

theorem curve_equation_iff :
    (curve constant).Equation point.x point.y ↔ point.y ^ 2 = point.x ^ 3 + constant := by
  rw [WeierstrassCurve.Affine.equation_iff]
  simp [curve]

theorem curve_negY (x y : Element field) : (curve constant).negY x y = -y := by
  simp [curve, WeierstrassCurve.Affine.negY]

/-- The slope of two points is that of a line through a curve, unless it is vertical. -/
theorem curve_slope (notOpposite : ¬ left.Opposite right) :
    (curve constant).slope left.x right.x left.y right.y = left.slope right := by
  by_cases equal : left = right
  · subst equal
    have notVertical : left.y ≠ (curve constant).negY left.x left.y := by
      intro vertical
      rw [curve_negY] at vertical
      refine Element.add_self_ne_zero (fun zero => notOpposite ⟨rfl, .inr zero⟩) ?_
      exact add_eq_zero_iff_eq_neg.mpr vertical
    rw [WeierstrassCurve.Affine.slope_of_Y_ne rfl notVertical, curve_negY, slope, if_pos rfl]
    simp [curve, two_mul]
  · have otherAbscissa : left.x ≠ right.x :=
      fun same => equal (eq_of_not_opposite notOpposite same)
    rw [WeierstrassCurve.Affine.slope_of_X_ne otherAbscissa, slope_comm, slope,
      if_neg (Ne.symm equal)]

/-- A line that is not vertical meets a curve in a third point. -/
theorem third_equation
    (leftEquation : left.y ^ 2 = left.x ^ 3 + constant)
    (rightEquation : right.y ^ 2 = right.x ^ 3 + constant)
    (notOpposite : ¬ left.Opposite right) :
    (left.third right (left.slope right)).y ^ 2 =
      (left.third right (left.slope right)).x ^ 3 + constant := by
  have notVertical : ¬(left.x = right.x ∧ left.y = (curve constant).negY right.x right.y) := by
    rintro ⟨same, negated⟩
    rw [curve_negY] at negated
    refine notOpposite ((opposite_iff_eq_neg rightEquation leftEquation).mpr ?_).symm
    exact Point.ext same negated
  have added := WeierstrassCurve.Affine.equation_add (curve_equation_iff.mpr leftEquation)
    (curve_equation_iff.mpr rightEquation) notVertical
  rw [curve_slope notOpposite] at added
  refine curve_equation_iff.mp (Eq.mp ?_ added)
  congr 1
  · simp [curve, third]
  · rw [WeierstrassCurve.Affine.addY, curve_negY]
    simp [curve, third]
    ring

namespace OnCurve

/-- Points of a curve add up to points of the curve. -/
theorem add (leftOn : left.OnCurve constant) (rightOn : right.OnCurve constant) :
    (left + right).OnCurve constant := by
  rw [add_eq]
  split_ifs with leftInfinite rightInfinite opposite
  · exact rightOn
  · exact leftOn
  · exact .inl rfl
  · exact .inr (third_equation (leftOn.resolve_left leftInfinite)
      (rightOn.resolve_left rightInfinite) opposite)

/-- Points of a curve cancel exactly if one is the negative of the other. -/
theorem add_eq_zero_iff
    (nonzero : constant ≠ 0)
    (leftOn : left.OnCurve constant)
    (rightOn : right.OnCurve constant) :
    left + right = 0 ↔ right = -left := by
  by_cases leftInfinite : left = 0
  · rw [leftInfinite, zero_add, neg_zero]
  by_cases rightInfinite : right = 0
  · rw [rightInfinite, add_zero, eq_comm (a := 0), neg_eq_zero_iff]
  have leftEquation := leftOn.resolve_left leftInfinite
  have rightEquation := rightOn.resolve_left rightInfinite
  rw [← opposite_iff_eq_neg leftEquation rightEquation, add_eq, if_neg leftInfinite,
    if_neg rightInfinite]
  by_cases opposite : left.Opposite right
  · exact iff_of_true (if_pos opposite) opposite
  · rw [if_neg opposite]
    have equation := third_equation leftEquation rightEquation opposite
    exact iff_of_false (ne_zero_of_equation nonzero equation) opposite

end OnCurve

end Point

namespace Gadget

variable {field : PrimeField}

/-- The values that were worked out for an addition satisfy its constraints. -/
theorem faithful_of_addPoints
    {left right sum : PointCells field}
    {transcript after : Transcript field}
    (gives : (addPoints left right).run transcript = (.ok sum, after))
    (consistent : transcript.Consistent)
    (recorded : ∀ cell ∈ [left.x, left.y, right.x, right.y], transcript.Records cell) :
    Valuation.Faithful transcript after (.ofAssignment after.valueAt)
      ∧ left.readBy (.ofAssignment after.valueAt) = left.readBy Cell.value
      ∧ right.readBy (.ofAssignment after.valueAt) = right.readBy Cell.value := by
  have sound := @addPoints_sound _ {cell | cell ∈ [left.x, left.y, right.x, right.y]}
    left right (by simp) (by simp) (by simp) (by simp)
  obtain ⟨satisfied, held⟩ := sound.satisfiedSince gives consistent recorded
  exact ⟨.assigned satisfied, Point.ext (held _ (by simp)) (held _ (by simp)),
    Point.ext (held _ (by simp)) (held _ (by simp))⟩

/-- An addition has a result, which every faithful valuation reads as the sum. -/
theorem exists_addPoints (left right : PointCells field) (transcript : Transcript field) :
    ∃ sum after, (addPoints left right).run transcript = (.ok sum, after)
      ∧ ∀ read, Valuation.Faithful transcript after read →
          sum.readBy read = left.readBy read + right.readBy read := by
  have completes : Completes (fun _ => True) (addPoints left right) transcript :=
    addPoints_completes left right
  obtain ⟨sum, after, gives, -⟩ := completes
  exact ⟨sum, after, gives, fun read faithful =>
    (addPoints_computes left right).of_ok gives faithful⟩

/--
An addition respects the curve of its points.

Two additions of the same points have results of the same value, whichever point
comes first, and whoever chose the values of all other cells. If the points are
on a curve `y² = x³ + b` where `b` is not zero, so is their sum, and it is at
infinity exactly if one point is the negative of the other. A point at infinity
leaves the other point as it is.
-/
theorem addPoints_respectsCurve
    (transcript other : Transcript field)
    (left right : PointCells field) :
    ∃ sum after swapped later,
      (addPoints left right).run transcript = (.ok sum, after)
        ∧ (addPoints right left).run other = (.ok swapped, later)
        ∧ ∀ read, Valuation.Faithful transcript after read →
            (∀ otherRead, Valuation.Faithful other later otherRead →
              left.readBy otherRead = left.readBy read →
                right.readBy otherRead = right.readBy read →
                  swapped.readBy otherRead = sum.readBy read)
              ∧ (∀ constant, constant ≠ 0 →
                (left.readBy read).OnCurve constant → (right.readBy read).OnCurve constant →
                  (sum.readBy read).OnCurve constant
                    ∧ (sum.readBy read = 0 ↔ right.readBy read = -left.readBy read))
              ∧ (left.readBy read = 0 → sum.readBy read = right.readBy read)
              ∧ (right.readBy read = 0 → sum.readBy read = left.readBy read) := by
  obtain ⟨sum, after, gives, isSum⟩ := exists_addPoints left right transcript
  obtain ⟨swapped, later, swaps, isSwapped⟩ := exists_addPoints right left other
  refine ⟨sum, after, swapped, later, gives, swaps, fun read faithful => ?_⟩
  rw [isSum read faithful]
  refine ⟨?_, ?_, ?_, ?_⟩
  · intro otherRead otherFaithful sameLeft sameRight
    rw [isSwapped otherRead otherFaithful, sameLeft, sameRight, add_comm]
  · intro constant nonzero leftOn rightOn
    exact ⟨leftOn.add rightOn, leftOn.add_eq_zero_iff nonzero rightOn⟩
  · intro infinite
    rw [infinite, zero_add]
  · intro infinite
    rw [infinite, add_zero]

/-- The values of two points of the curve `y² = x³ + 8`, and zero. -/
def curveValues : List (Element .bn254Scalar) :=
  [1, 3, 2, 4, 0].map (Element.ofNat .bn254Scalar)

/-- A cell that holds a coordinate. -/
def curveCell (offset : Nat) : Cell .bn254Scalar :=
  ⟨offset, curveValues.getD offset 0⟩

/-- The points of which the sum is `(-2, 0)`. -/
def chordPoints : PointCells .bn254Scalar × PointCells .bn254Scalar :=
  (⟨curveCell 0, curveCell 1⟩, ⟨curveCell 2, curveCell 3⟩)

/-- The point at infinity, whose coordinates are one cell. -/
def infinitePoint : PointCells .bn254Scalar :=
  ⟨curveCell 4, curveCell 4⟩

/-- Finite points of which one coordinate is zero. -/
def axisPoints : PointCells .bn254Scalar × PointCells .bn254Scalar :=
  (⟨curveCell 4, curveCell 1⟩, ⟨curveCell 0, curveCell 4⟩)

/--
A chord gives the same finite point of its curve in both orders, and the point at
infinity is added to points on the axes without an effect.
-/
theorem addPoints_respectsCurve_chord :
    (∃ sum after swapped later,
      (addPoints chordPoints.1 chordPoints.2).run (.ofValues curveValues) = (.ok sum, after)
        ∧ (addPoints chordPoints.2 chordPoints.1).run (.ofValues curveValues) =
          (.ok swapped, later)
        ∧ swapped.readBy (.ofAssignment later.valueAt) = sum.readBy (.ofAssignment after.valueAt)
        ∧ (sum.readBy (.ofAssignment after.valueAt)).OnCurve 8
        ∧ sum.readBy (.ofAssignment after.valueAt) ≠ 0)
      ∧ (∃ sum after,
        (addPoints infinitePoint axisPoints.1).run (.ofValues curveValues) = (.ok sum, after)
          ∧ sum.readBy (.ofAssignment after.valueAt) = ⟨0, 3⟩)
      ∧ ∃ sum after,
        (addPoints axisPoints.2 infinitePoint).run (.ofValues curveValues) = (.ok sum, after)
          ∧ sum.readBy (.ofAssignment after.valueAt) = ⟨1, 0⟩ := by
  have consistent := Transcript.consistent_ofValues curveValues
  refine ⟨?_, ?_, ?_⟩
  · obtain ⟨sum, after, swapped, later, gives, swaps, forced⟩ := addPoints_respectsCurve
      (.ofValues curveValues) (.ofValues curveValues) chordPoints.1 chordPoints.2
    obtain ⟨faithful, isLeft, isRight⟩ :=
      faithful_of_addPoints gives consistent (by decide +kernel)
    obtain ⟨otherFaithful, otherRight, otherLeft⟩ :=
      faithful_of_addPoints swaps consistent (by decide +kernel)
    obtain ⟨commutes, staysOnCurve, -, -⟩ := forced _ faithful
    have nonzero : (8 : Element .bn254Scalar) ≠ 0 := by decide +kernel
    have leftOn : (chordPoints.1.readBy (.ofAssignment after.valueAt)).OnCurve 8 := by
      rw [isLeft]
      decide +kernel
    have rightOn : (chordPoints.2.readBy (.ofAssignment after.valueAt)).OnCurve 8 := by
      rw [isRight]
      decide +kernel
    obtain ⟨onCurve, infinite⟩ := staysOnCurve 8 nonzero leftOn rightOn
    refine ⟨sum, after, swapped, later, gives, swaps, ?_, onCurve, fun zero => ?_⟩
    · exact commutes _ otherFaithful (otherLeft.trans isLeft.symm) (otherRight.trans isRight.symm)
    · have opposite := infinite.mp zero
      rw [isLeft, isRight] at opposite
      exact absurd opposite (by decide +kernel)
  · obtain ⟨sum, after, swapped, later, gives, -, forced⟩ := addPoints_respectsCurve
      (.ofValues curveValues) (.ofValues curveValues) infinitePoint axisPoints.1
    obtain ⟨faithful, isLeft, isRight⟩ :=
      faithful_of_addPoints gives consistent (by decide +kernel)
    obtain ⟨-, -, leavesRight, -⟩ := forced _ faithful
    exact ⟨sum, after, gives, (leavesRight (isLeft.trans rfl)).trans isRight⟩
  · obtain ⟨sum, after, swapped, later, gives, -, forced⟩ := addPoints_respectsCurve
      (.ofValues curveValues) (.ofValues curveValues) axisPoints.2 infinitePoint
    obtain ⟨faithful, isLeft, isRight⟩ :=
      faithful_of_addPoints gives consistent (by decide +kernel)
    obtain ⟨-, -, -, leavesLeft⟩ := forced _ faithful
    exact ⟨sum, after, gives, (leavesLeft (isRight.trans rfl)).trans isLeft⟩

end Gadget

end Plonkish
