import Mathlib.Data.List.Induction
import Plonkish.Gadget.Cosets
import Plonkish.Gadget.LookupArgument
import Plonkish.Gadget.PointAddition
import Plonkish.Gadget.Select
import Plonkish.Proofs.Circuit.Spacing

namespace Plonkish

/-!
# Spacing in gadgets

The gadgets only lay out cells by operations, so they keep gates apart, whether
they have a result or not.
-/

namespace Assembly

variable {field : PrimeField}

/-- Cutting a list lays out no cell. -/
theorem split_spaced (count : Nat) (items : List α) :
    Preserves Transcript.Spaced (split count items : Assembly field _).run := by
  unfold split
  split
  · exact Preserves.run_pure _
  · exact crash_spaced

/-- Comparing a length lays out no cell. -/
theorem checkLength_spaced (name : String) (expected : Nat) (cells : List (Cell field)) :
    Preserves Transcript.Spaced (checkLength name expected cells).run := by
  unfold checkLength
  split
  · exact Preserves.run_pure ()
  · exact refuse_spaced _

end Assembly

namespace Gadget

variable {field : PrimeField}

/-- A selection is a test for zero and a choice. -/
theorem select_spaced (condition whenTrue whenFalse : Cell field) :
    Preserves Transcript.Spaced (select condition whenTrue whenFalse) := by
  apply Preserves.bind (Synthesis.isZero_spaced _)
  intro isZero
  exact Synthesis.select_spaced _ _ _

/-- Both coordinates are tested for zero. -/
theorem isInfinity_spaced (point : PointCells field) :
    Preserves Transcript.Spaced (isInfinity point) := by
  apply Preserves.bind (Synthesis.isZero_spaced _)
  intro xZero
  apply Preserves.bind (Synthesis.isZero_spaced _)
  intro yZero
  exact Synthesis.and_spaced _ _

/-- The cases of an addition are tests and their conjunctions. -/
theorem additionCase_spaced (left right : PointCells field) :
    Preserves Transcript.Spaced (additionCase left right) := by
  apply Preserves.bind (isInfinity_spaced left)
  intro leftInfinity
  apply Preserves.bind (isInfinity_spaced right)
  intro rightInfinity
  apply Preserves.bind (Synthesis.isEqual_spaced _ _)
  intro sameAbscissa
  apply Preserves.bind (Synthesis.isEqual_spaced _ _)
  intro sameOrdinate
  apply Preserves.bind (Synthesis.isZero_spaced _)
  intro zeroOrdinate
  apply Preserves.bind (Synthesis.not_spaced _)
  intro otherOrdinate
  apply Preserves.bind (Synthesis.or_spaced _ _)
  intro opposite
  apply Preserves.bind (Synthesis.and_spaced _ _)
  intro cancels
  apply Preserves.bind (Synthesis.or_spaced _ _)
  intro anyInfinity
  apply Preserves.bind (Synthesis.or_spaced _ _)
  intro degenerate
  exact Preserves.pure _

/-- Both fractions are computed, whichever of them is chosen. -/
theorem slopeFraction_spaced (left right : PointCells field) (cases : AdditionCase field) :
    Preserves Transcript.Spaced (slopeFraction left right cases) := by
  apply Preserves.bind (Synthesis.mul_spaced _ _)
  intro square
  apply Preserves.bind (Synthesis.mul_spaced _ _)
  intro tangentRise
  apply Preserves.bind (Synthesis.add_spaced _ _)
  intro tangentRun
  apply Preserves.bind (Synthesis.sub_spaced _ _)
  intro chordRise
  apply Preserves.bind (Synthesis.sub_spaced _ _)
  intro chordRun
  apply Preserves.bind (Synthesis.select_spaced _ _ _)
  intro slopeRise
  apply Preserves.bind (Synthesis.select_spaced _ _ _)
  intro slopeRun
  apply Preserves.bind (Synthesis.select_spaced _ _ _)
  intro rise
  apply Preserves.bind (Synthesis.select_spaced _ _ _)
  intro run
  exact Preserves.pure _

/-- The third point takes three products and some differences. -/
theorem thirdPoint_spaced (left right : PointCells field) (slope : Cell field) :
    Preserves Transcript.Spaced (thirdPoint left right slope) := by
  apply Preserves.bind (Synthesis.mul_spaced _ _)
  intro square
  apply Preserves.bind (Synthesis.sub_spaced _ _)
  intro firstDifference
  apply Preserves.bind (Synthesis.sub_spaced _ _)
  intro x
  apply Preserves.bind (Synthesis.sub_spaced _ _)
  intro run
  apply Preserves.bind (Synthesis.mul_spaced _ _)
  intro rise
  apply Preserves.bind (Synthesis.sub_spaced _ _)
  intro y
  exact Preserves.pure _

/-- A coordinate is chosen three times, by one case after the other. -/
theorem selectCoordinate_spaced
    (cases : AdditionCase field)
    (computed left right : Cell field) :
    Preserves Transcript.Spaced (selectCoordinate cases computed left right) := by
  apply Preserves.bind (Synthesis.select_spaced _ _ _)
  intro finite
  apply Preserves.bind (Synthesis.select_spaced _ _ _)
  intro unlessRight
  exact Synthesis.select_spaced _ _ _

/-- Spaced after an addition of points, also if the slope has no value. -/
theorem addPoints_spaced (left right : PointCells field) :
    Preserves Transcript.Spaced (addPoints left right).run := by
  apply Preserves.run_bind (Preserves.run_lift (additionCase_spaced left right))
  intro cases
  apply Preserves.run_bind (Preserves.run_lift (slopeFraction_spaced left right cases))
  intro fraction
  apply Preserves.run_bind (Assembly.divide_spaced _ _)
  intro slope
  apply Preserves.run_bind (Preserves.run_lift (thirdPoint_spaced left right slope))
  intro third
  apply Preserves.run_bind (Preserves.run_lift (selectCoordinate_spaced cases _ _ _))
  intro x
  apply Preserves.run_bind (Preserves.run_lift (selectCoordinate_spaced cases _ _ _))
  intro y
  exact Preserves.run_pure _

/-- Each bit of the index squares the power, and multiplies it by the root or by one. -/
theorem powerOfRoot_spaced
    (root : Element field)
    (power : Cell field)
    (bits : List (Cell field)) :
    Preserves Transcript.Spaced (powerOfRoot root power bits) := by
  induction bits generalizing power with
  | nil => exact Preserves.pure power
  | cons bit rest inductionHypothesis =>
      apply Preserves.bind (Synthesis.mulAdd_spaced _ _ _)
      intro factor
      apply Preserves.bind (Synthesis.mul_spaced _ _)
      intro square
      apply Preserves.bind (Synthesis.mul_spaced _ _)
      intro next
      exact inductionHypothesis next

/-- A round negates the power, chooses between both and negates what it chose. -/
theorem cosetRound_spaced (power bit : Cell field) :
    Preserves Transcript.Spaced (cosetRound power bit) := by
  apply Preserves.bind (Synthesis.neg_spaced _)
  intro opposite
  apply Preserves.bind (Synthesis.select_spaced _ _ _)
  intro member
  apply Preserves.bind (Synthesis.neg_spaced _)
  intro memberOpposite
  exact Preserves.pure _

/-- Rounds are laid out one after the other, so their gates are apart as in each of them. -/
theorem cosetRounds_spaced (power : Cell field) (bits : List (Cell field)) :
    Preserves Transcript.Spaced (cosetRounds power bits) := by
  induction bits generalizing power with
  | nil => exact Preserves.pure []
  | cons bit rest inductionHypothesis =>
      cases rest with
      | nil =>
          apply Preserves.bind (cosetRound_spaced power bit)
          intro round
          exact Preserves.pure _
      | cons nextBit rest =>
          apply Preserves.bind (cosetRound_spaced power bit)
          intro round
          apply Preserves.bind (Synthesis.mul_spaced _ _)
          intro square
          apply Preserves.bind (inductionHypothesis square)
          intro rounds
          exact Preserves.pure _

/-- Spaced after the cosets of an index, also if the index does not fit. -/
theorem cosets_spaced (shape : CosetShape field) (index : Cell field) :
    Preserves Transcript.Spaced (cosets shape index).run := by
  unfold cosets
  split
  · apply Preserves.run_bind (Assembly.toBits_spaced index shape.totalBits)
    intro bits
    apply Preserves.run_bind (Preserves.run_lift (Synthesis.constant_spaced _))
    intro one
    apply Preserves.run_bind (Preserves.run_lift (powerOfRoot_spaced _ _ _))
    intro power
    exact Preserves.run_lift (cosetRounds_spaced _ _)
  · exact Assembly.refuse_spaced _

/-- A geometric sequence is laid out as a product for each item but the first. -/
theorem geometric_spaced (challenge first : Cell field) (count : Nat) :
    Preserves Transcript.Spaced (geometric challenge first count) := by
  induction count generalizing first with
  | zero => exact Preserves.pure [first]
  | succ count inductionHypothesis =>
      apply Preserves.bind (Synthesis.mul_spaced _ _)
      intro next
      apply Preserves.bind (inductionHypothesis next)
      intro further
      exact Preserves.pure _

/-- Powers from the zeroth on begin with a constant. -/
theorem powersFromZero_spaced (challenge : Cell field) (count : Nat) :
    Preserves Transcript.Spaced (powersFromZero challenge count) := by
  cases count with
  | zero => exact Preserves.pure []
  | succ count =>
      apply Preserves.bind (Synthesis.constant_spaced _)
      intro one
      exact geometric_spaced challenge one count

/-- The products of cells are those of their sources. -/
theorem innerProductOfCells_spaced (left right : List (Cell field)) :
    Preserves Transcript.Spaced (innerProductOfCells left right) :=
  Synthesis.innerProduct_spaced _

/-- Gates are laid out as an inner product for each slice of constraints. -/
theorem combineGates_spaced (constraints powers : List (Cell field)) (sizes : List UInt64) :
    Preserves Transcript.Spaced (combineGates constraints powers sizes).run := by
  induction sizes generalizing constraints powers with
  | nil => exact Preserves.run_pure []
  | cons size rest inductionHypothesis =>
      apply Preserves.run_bind (Assembly.split_spaced _ _)
      intro ownConstraints
      apply Preserves.run_bind (Assembly.split_spaced _ _)
      intro ownPowers
      apply Preserves.run_bind (Preserves.run_lift (innerProductOfCells_spaced _ _))
      intro combined
      apply Preserves.run_bind (inductionHypothesis ownConstraints.2 ownPowers.2)
      intro later
      exact Preserves.run_pure _

/-- Spaced after a gate argument, also if a length is refused. -/
theorem gateArgument_spaced (shape : GateShape) (input : GateCells field) :
    Preserves Transcript.Spaced (gateArgument shape input).run := by
  apply Preserves.run_bind (Assembly.checkLength_spaced _ _ _)
  intro _
  apply Preserves.run_bind (Assembly.checkLength_spaced _ _ _)
  intro _
  apply Preserves.run_bind (Preserves.run_lift (powersFromZero_spaced _ _))
  intro powers
  apply Preserves.run_bind (combineGates_spaced _ _ _)
  intro combined
  exact Preserves.run_lift (innerProductOfCells_spaced _ _)

/-- Powers from the first on are none or begin with the challenge itself. -/
theorem powersFromOne_spaced (challenge : Cell field) (count : Nat) :
    Preserves Transcript.Spaced (powersFromOne challenge count).run := by
  unfold powersFromOne
  split
  · exact Assembly.crash_spaced
  · cases count with
    | zero => exact Preserves.run_pure []
    | succ further => exact Preserves.run_lift (geometric_spaced _ _ further)

/-- A compression is one inner product. -/
theorem compress_spaced (base : Cell field) (powers values : List (Cell field)) :
    Preserves Transcript.Spaced (compress base powers values) :=
  Synthesis.innerProduct_spaced _

/-- The lengths are compared before any cell is laid out. -/
theorem checkLookup_spaced (shape : LookupShape) (input : LookupCells field) :
    Preserves Transcript.Spaced (checkLookup shape input).run := by
  unfold checkLookup
  iterate 8
    apply Preserves.run_bind (Assembly.checkLength_spaced _ _ _)
    intro _
  exact Assembly.checkLength_spaced _ _ _

/-- The weights of the factors are derived by an operation each. -/
theorem deriveChallenges_spaced
    (input : LookupCells field)
    (one : Cell field)
    (powers : List (Cell field)) :
    Preserves Transcript.Spaced (deriveChallenges input one powers) := by
  apply Preserves.bind (Synthesis.add_spaced _ _)
  intro onePlusBeta
  apply Preserves.bind (Synthesis.mul_spaced _ _)
  intro gammaBeta
  exact Preserves.pure _

variable (challenges : LookupChallenges field)

/-- The factor of a lookup constraint is compressed, selected and multiplied. -/
theorem multiplyConstraint_spaced
    (product selector tableId : Cell field)
    (values : List (Cell field)) :
    Preserves Transcript.Spaced
      (multiplyConstraint challenges product selector tableId values) := by
  apply Preserves.bind (compress_spaced _ _ _)
  intro compressed
  apply Preserves.bind (Synthesis.mul_spaced _ _)
  intro selected
  apply Preserves.bind (Synthesis.add_spaced _ _)
  intro shifted
  apply Preserves.bind (Synthesis.mul_spaced _ _)
  intro factor
  exact Synthesis.mul_spaced _ _

/-- All lookup constraints are multiplied in turn, or their inputs run out. -/
theorem multiplyConstraints_spaced
    (product : Cell field)
    (selectors : List (Cell field))
    (widths : List UInt64)
    (tableIds inputs : List (Cell field)) :
    Preserves Transcript.Spaced
      (multiplyConstraints challenges product selectors widths tableIds inputs).run := by
  induction selectors generalizing product widths tableIds inputs with
  | nil => exact Preserves.run_pure product
  | cons selector rest inductionHypothesis =>
      cases widths with
      | nil => exact Assembly.crash_spaced
      | cons width widths =>
          cases tableIds with
          | nil => exact Assembly.crash_spaced
          | cons tableId tableIds =>
              apply Preserves.run_bind (Assembly.split_spaced _ _)
              intro parts
              apply Preserves.run_bind
                (Preserves.run_lift (multiplyConstraint_spaced challenges _ _ _ _))
              intro next
              exact inductionHypothesis next widths tableIds parts.2

/-- The factor of a value and its shifted value is a sum of products. -/
theorem multiplyPair_spaced (product value shifted : Cell field) :
    Preserves Transcript.Spaced (multiplyPair challenges product value shifted) := by
  apply Preserves.bind (Synthesis.add_spaced _ _)
  intro sum
  apply Preserves.bind (Synthesis.mulAdd_spaced _ _ _)
  intro factor
  exact Synthesis.mul_spaced _ _

/-- An option and its shifted option are compressed before they are multiplied. -/
theorem multiplyOption_spaced
    (table : LookupTable field)
    (product : Cell field)
    (option shiftedOption : List (Cell field)) :
    Preserves Transcript.Spaced
      (multiplyOption challenges table product option shiftedOption) := by
  apply Preserves.bind (compress_spaced _ _ _)
  intro row
  apply Preserves.bind (compress_spaced _ _ _)
  intro shiftedRow
  apply Preserves.bind (Synthesis.mul_spaced _ _)
  intro value
  apply Preserves.bind (Synthesis.mul_spaced _ _)
  intro shifted
  exact multiplyPair_spaced challenges product value shifted

/-- The options of a table are multiplied in turn, or their cells run out. -/
theorem multiplyOptions_spaced
    (table : LookupTable field)
    (product : Cell field)
    (count : Nat)
    (options shiftedOptions : List (Cell field)) :
    Preserves Transcript.Spaced
      (multiplyOptions challenges table product count options shiftedOptions).run := by
  induction count generalizing product options shiftedOptions with
  | zero => exact Preserves.run_pure _
  | succ count inductionHypothesis =>
      apply Preserves.run_bind (Assembly.split_spaced _ _)
      intro parts
      apply Preserves.run_bind (Assembly.split_spaced _ _)
      intro shiftedParts
      apply Preserves.run_bind (Preserves.run_lift (multiplyOption_spaced challenges table _ _ _))
      intro next
      exact inductionHypothesis next parts.2 shiftedParts.2

/-- The tables are multiplied in turn, each with its own number of options. -/
theorem multiplyTables_spaced
    (product : Cell field)
    (number : Nat)
    (sizes : List (UInt64 × UInt64))
    (selectors shiftedSelectors options shiftedOptions : List (Cell field)) :
    Preserves Transcript.Spaced
      (multiplyTables challenges product number sizes selectors shiftedSelectors options
        shiftedOptions).run := by
  induction sizes generalizing product number selectors shiftedSelectors options shiftedOptions with
  | nil => exact Preserves.run_pure product
  | cons size sizes inductionHypothesis =>
      obtain ⟨count, columns⟩ := size
      cases selectors with
      | nil => exact Assembly.crash_spaced
      | cons selector selectors =>
          cases shiftedSelectors with
          | nil => exact Assembly.crash_spaced
          | cons shiftedSelector shiftedSelectors =>
              apply Preserves.run_bind (Preserves.run_lift (Synthesis.constant_spaced _))
              intro id
              apply Preserves.run_bind (multiplyOptions_spaced challenges _ _ _ _ _)
              intro rest
              exact inductionHypothesis rest.1 (number + 1) selectors shiftedSelectors
                rest.2.1 rest.2.2

/-- The sorted pairs are multiplied in turn. -/
theorem multiplySorted_spaced (product : Cell field) (sorted : List (Cell field)) :
    Preserves Transcript.Spaced (multiplySorted challenges product sorted) := by
  induction sorted using List.twoStepInduction generalizing product with
  | nil => exact Preserves.pure product
  | singleton value => exact Preserves.pure product
  | cons_cons value shifted rest inductionHypothesis _ =>
      apply Preserves.bind (multiplyPair_spaced challenges product value shifted)
      intro next
      exact inductionHypothesis next

/-- The differences between linked pairs are laid out one after the other. -/
theorem linkDifferences_spaced (sorted : List (Cell field)) :
    Preserves Transcript.Spaced (linkDifferences sorted) := by
  induction sorted using linkDifferences.induct with
  | case1 _ shifted value rest inductionHypothesis =>
      apply Preserves.bind (Synthesis.sub_spaced _ _)
      intro difference
      apply Preserves.bind (inductionHypothesis)
      intro later
      exact Preserves.pure _
  | case2 sorted tooShort =>
      unfold linkDifferences
      split
      · exact (tooShort _ _ _ _ rfl).elim
      · exact Preserves.pure []

/-- The four results are laid out one after the other. -/
theorem lookupResult_spaced
    (input : LookupCells field)
    (one numerator denominator : Cell field) :
    Preserves Transcript.Spaced (lookupResult input one numerator denominator) := by
  apply Preserves.bind (Synthesis.sub_spaced _ _)
  intro notOne
  apply Preserves.bind (Synthesis.mul_spaced _ _)
  intro first
  apply Preserves.bind (Synthesis.mul_spaced _ _)
  intro square
  apply Preserves.bind (Synthesis.sub_spaced _ _)
  intro notBit
  apply Preserves.bind (Synthesis.mul_spaced _ _)
  intro last
  apply Preserves.bind (Synthesis.add_spaced _ _)
  intro inactive
  apply Preserves.bind (Synthesis.sub_spaced _ _)
  intro active
  apply Preserves.bind (Synthesis.mul_spaced _ _)
  intro next
  apply Preserves.bind (Synthesis.mul_spaced _ _)
  intro current
  apply Preserves.bind (Synthesis.sub_spaced _ _)
  intro change
  apply Preserves.bind (Synthesis.mul_spaced _ _)
  intro step
  apply Preserves.bind (linkDifferences_spaced input.sorted)
  intro differences
  apply Preserves.bind (innerProductOfCells_spaced input.alphas differences)
  intro linked
  apply Preserves.bind (Synthesis.mul_spaced _ _)
  intro links
  exact Preserves.pure _

/-- Spaced after a lookup argument, also if a length is refused or a list runs out. -/
theorem lookupArgument_spaced (shape : LookupShape) (input : LookupCells field) :
    Preserves Transcript.Spaced (lookupArgument shape input).run := by
  apply Preserves.run_bind (checkLookup_spaced shape input)
  intro _
  apply Preserves.run_bind (Preserves.run_lift (Synthesis.constant_spaced _))
  intro one
  apply Preserves.run_bind (powersFromOne_spaced input.theta shape.sizes.widest)
  intro powers
  apply Preserves.run_bind (Preserves.run_lift (deriveChallenges_spaced input one powers))
  intro challenges
  apply Preserves.run_bind (multiplyConstraints_spaced challenges _ _ _ _ _)
  intro lookedUp
  apply Preserves.run_bind (multiplyTables_spaced challenges _ _ _ _ _ _ _)
  intro numerator
  apply Preserves.run_bind (Preserves.run_lift (multiplySorted_spaced challenges one input.sorted))
  intro denominator
  exact Preserves.run_lift (lookupResult_spaced input one numerator denominator)

end Gadget

end Plonkish
