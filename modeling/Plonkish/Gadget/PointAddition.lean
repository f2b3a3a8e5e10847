import Plonkish.Circuit.Operation

namespace Plonkish

/-!
# Point addition

The sum of two points of a curve `y² = x³ + b`, where the point at infinity is
`(0, 0)`. One layout serves every case of the group law. The slope is that of
the tangent if the abscissas are equal, and of the chord if not. Where there is
no slope, because a point is at infinity or the points cancel, the quotient is
`0 / 1`, and the result is selected instead of computed.
-/

/-- A point by its affine coordinates. -/
structure PointCells (field : PrimeField) where
  x : Cell field
  y : Cell field
  deriving DecidableEq

namespace Gadget

variable {field : PrimeField}

/-- Whether a point is at infinity, as a bit. -/
def isInfinity (point : PointCells field) : Synthesis field (Cell field) := do
  let xZero ← Synthesis.isZero point.x
  let yZero ← Synthesis.isZero point.y
  Synthesis.and xZero yZero

/-- The bits that tell the cases of an addition apart. -/
structure AdditionCase (field : PrimeField) where
  leftInfinity : Cell field
  rightInfinity : Cell field
  sameAbscissa : Cell field
  /-- The points are opposite. -/
  cancels : Cell field
  /-- There is no slope. -/
  degenerate : Cell field

/-- Tell the cases of an addition apart. -/
def additionCase (left right : PointCells field) : Synthesis field (AdditionCase field) := do
  let leftInfinity ← isInfinity left
  let rightInfinity ← isInfinity right
  let sameAbscissa ← Synthesis.isEqual left.x right.x
  let sameOrdinate ← Synthesis.isEqual left.y right.y
  let zeroOrdinate ← Synthesis.isZero left.y
  let otherOrdinate ← Synthesis.not sameOrdinate
  let opposite ← Synthesis.or otherOrdinate zeroOrdinate
  let cancels ← Synthesis.and sameAbscissa opposite
  let anyInfinity ← Synthesis.or leftInfinity rightInfinity
  let degenerate ← Synthesis.or anyInfinity cancels
  return { leftInfinity, rightInfinity, sameAbscissa, cancels, degenerate }

/-- The numerator and the denominator of the slope. -/
def slopeFraction
    (left right : PointCells field)
    (cases : AdditionCase field) :
    Synthesis field (Cell field × Cell field) := do
  let square ← Synthesis.mul left.x left.x
  let tangentRise ← Synthesis.mul square (.constant (Element.ofNat field 3))
  let tangentRun ← Synthesis.add left.y left.y
  let chordRise ← Synthesis.sub right.y left.y
  let chordRun ← Synthesis.sub right.x left.x
  let rise ← Synthesis.select tangentRise chordRise cases.sameAbscissa
  let run ← Synthesis.select tangentRun chordRun cases.sameAbscissa
  let rise ← Synthesis.select (.constant 0) rise cases.degenerate
  let run ← Synthesis.select (.constant 1) run cases.degenerate
  return (rise, run)

/-- The third point on the line with a slope, reflected. -/
def thirdPoint
    (left right : PointCells field)
    (slope : Cell field) :
    Synthesis field (PointCells field) := do
  let square ← Synthesis.mul slope slope
  let firstDifference ← Synthesis.sub square left.x
  let x ← Synthesis.sub firstDifference right.x
  let run ← Synthesis.sub left.x x
  let rise ← Synthesis.mul slope run
  let y ← Synthesis.sub rise left.y
  return { x, y }

/-- One coordinate of the sum. -/
def selectCoordinate
    (cases : AdditionCase field)
    (computed left right : Cell field) :
    Synthesis field (Cell field) := do
  let finite ← Synthesis.select (.constant 0) computed cases.cancels
  let unlessRight ← Synthesis.select left finite cases.rightInfinity
  Synthesis.select right unlessRight cases.leftInfinity

/-- The sum of two points. -/
def addPoints (left right : PointCells field) : Assembly field (PointCells field) := do
  let cases ← additionCase left right
  let (rise, run) ← slopeFraction left right cases
  let slope ← Assembly.divide rise run
  let third ← thirdPoint left right slope
  let x ← selectCoordinate cases third.x left.x right.x
  let y ← selectCoordinate cases third.y left.y right.y
  return { x, y }

end Gadget

end Plonkish
