import Plonkish.Proofs.Gadget.Completion

namespace Plonkish

/-!
# Completion of lookup arguments

The loops of a lookup argument run over lists that are cut as the sizes of its
shape say. In an exact shape the cuts use up the lists exactly, and there is a
selector, a width and a table for each constraint. The only thing that can go
wrong after the lengths are checked is that the powers for the widest values are
more than can be held.
-/

/-- The numbers of cells are those that a shape asks for. -/
structure LookupCells.Fits
    {field : PrimeField}
    (input : LookupCells field)
    (shape : LookupShape) :
    Prop where
  sorted : input.sorted.length = 2 * max (input.sorted.length / 2) 1
  alphas : input.alphas.length = max (input.sorted.length / 2) 1 - 1
  gateSelectors : input.gateSelectors.length = shape.sizes.gateConstraints.length
  tableIds : input.tableIds.length = shape.constraints
  lookupInputs : input.lookupInputs.length = shape.inputs
  tableSelectors : input.tableSelectors.length = shape.sizes.tableOptions.length
  shiftedTableSelectors : input.shiftedTableSelectors.length = shape.sizes.tableOptions.length
  options : input.options.length = shape.options
  shiftedOptions : input.shiftedOptions.length = shape.options

namespace Gadget

variable {field : PrimeField} {transcript : Transcript field}

/-- A check is refused, or it passes without a trace and something holds. -/
def Checks (holds : Prop) (check : Assembly field Unit) (transcript : Transcript field) : Prop :=
  (∃ failure, check.run transcript = (.error (.report failure), transcript))
    ∨ (holds ∧ check.run transcript = (.ok (), transcript))

theorem checkLength_checks (name : String) (expected : Nat) (cells : List (Cell field)) :
    Checks (cells.length = expected) (Assembly.checkLength name expected cells) transcript := by
  unfold Checks Assembly.checkLength
  split
  next same => exact .inr ⟨same, rfl⟩
  next => exact .inl ⟨_, rfl⟩

/-- What follows a check of a length may rely on the length. -/
theorem Checks.bind_checkLength
    {holds : Prop}
    {name : String}
    {expected : Nat}
    {cells : List (Cell field)}
    {next : Unit → Assembly field Unit}
    (nextChecks : cells.length = expected → Checks holds (next ()) transcript) :
    Checks holds (Assembly.checkLength name expected cells >>= next) transcript := by
  unfold Checks
  rw [Assembly.run_checkLength_bind]
  split
  next same => exact nextChecks same
  next => exact .inl ⟨_, rfl⟩

/-- The cells of a lookup argument are refused, or they fit its shape. -/
theorem checkLookup_checks (shape : LookupShape) (input : LookupCells field) :
    Checks (input.Fits shape) (checkLookup shape input) transcript := by
  apply Checks.bind_checkLength
  intro sorted
  apply Checks.bind_checkLength
  intro alphas
  apply Checks.bind_checkLength
  intro gateSelectors
  apply Checks.bind_checkLength
  intro tableIds
  apply Checks.bind_checkLength
  intro lookupInputs
  apply Checks.bind_checkLength
  intro tableSelectors
  apply Checks.bind_checkLength
  intro shiftedTableSelectors
  apply Checks.bind_checkLength
  intro options
  apply (checkLength_checks _ _ _).imp_right
  rintro ⟨shiftedOptions, passes⟩
  exact ⟨⟨sorted, alphas, gateSelectors, tableIds, lookupInputs, tableSelectors,
    shiftedTableSelectors, options, shiftedOptions⟩, passes⟩

/-- Cells that pass the check fit the shape. -/
theorem fits_of_accepted
    {shape : LookupShape}
    {input : LookupCells field}
    (accepted : (checkLookup shape input).run transcript = (.ok (), transcript)) :
    input.Fits shape := by
  have checks : Checks (input.Fits shape) (checkLookup shape input) transcript :=
    checkLookup_checks shape input
  rcases checks with ⟨failure, refused⟩ | ⟨fits, -⟩
  · rw [refused] at accepted
    cases accepted
  · exact fits

/-- The cells of an argument that has values fit its shape. -/
theorem fits_of_lookupArgument
    {shape : LookupShape}
    {input : LookupCells field}
    {transcript after : Transcript field}
    {result : LookupResult field}
    (gives : (lookupArgument shape input).run transcript = (.ok result, after)) :
    input.Fits shape := by
  have checks : Checks (input.Fits shape) (checkLookup shape input) transcript :=
    checkLookup_checks shape input
  rcases checks with ⟨failure, refused⟩ | ⟨fits, -⟩
  · rw [lookupArgument, run_bind, refused] at gives
    cases gives
  · exact fits

/-- So many powers complete as can be held. -/
theorem powersFromOne_completes
    {challenge : Cell field}
    {count : Nat}
    (holdable : count ≤ largestReserve) :
    Completes (fun powers => powers.length = count) (powersFromOne challenge count)
      transcript := by
  unfold powersFromOne
  rw [if_neg (Nat.not_lt.mpr holdable)]
  cases count with
  | zero => exact Completes.pure rfl
  | succ further => exact Completes.lift (length_geometric challenge challenge further)

/-- Every constraint gets the selector of its gate. -/
theorem length_constraintSelectors
    {sizes : LookupSizes}
    {selectors : List (Cell field)}
    (counted : selectors.length = sizes.gateConstraints.length) :
    (constraintSelectors sizes selectors).length =
      (sizes.gateConstraints.map UInt64.toNat).sum := by
  unfold constraintSelectors
  generalize sizes.gateConstraints = counts at counted
  induction selectors generalizing counts with
  | nil =>
      obtain rfl : counts = [] := List.eq_nil_of_length_eq_zero counted.symm
      rfl
  | cons selector rest inductionHypothesis =>
      cases counts with
      | nil => cases counted
      | cons count counts =>
          have later := inductionHypothesis counts (Nat.succ.inj counted)
          simp only [List.zip_cons_cons, List.flatMap_cons, List.length_append,
            List.length_replicate, List.map_cons, List.sum_cons, later]

/-- The constraints are multiplied if each has a width and an identifier, and all their inputs. -/
theorem multiplyConstraints_completes
    {challenges : LookupChallenges field}
    {product : Cell field}
    {selectors tableIds inputs : List (Cell field)}
    {widths : List UInt64}
    (eachWidth : widths.length = selectors.length)
    (eachTable : tableIds.length = selectors.length)
    (enoughInputs : inputs.length = (widths.map UInt64.toNat).sum) :
    Completes (fun _ => True)
      (multiplyConstraints challenges product selectors widths tableIds inputs) transcript := by
  induction selectors generalizing product widths tableIds inputs transcript with
  | nil => exact Completes.pure trivial
  | cons selector selectors inductionHypothesis =>
      obtain ⟨width, widths, rfl⟩ := List.exists_cons_of_length_eq_add_one eachWidth
      obtain ⟨tableId, tableIds, rfl⟩ := List.exists_cons_of_length_eq_add_one eachTable
      rw [List.map_cons, List.sum_cons] at enoughInputs
      apply Completes.bind (Assembly.split_completes (by omega))
      rintro ⟨values, laterInputs⟩ _ ⟨rfl, width⟩
      apply Completes.bind_lift
      apply inductionHypothesis
      · exact Nat.succ.inj eachWidth
      · exact Nat.succ.inj eachTable
      · simp only [List.length_append] at enoughInputs width
        omega

/-- The options of one table are multiplied, and those of the later tables are left. -/
theorem multiplyOptions_completes
    {challenges : LookupChallenges field}
    {table : LookupTable field}
    {product : Cell field}
    {count later : Nat}
    {options shiftedOptions : List (Cell field)}
    (enoughOptions : options.length = count * table.columns + later)
    (enoughShifted : shiftedOptions.length = count * table.columns + later) :
    Completes (fun result => result.2.1.length = later ∧ result.2.2.length = later)
      (multiplyOptions challenges table product count options shiftedOptions) transcript := by
  induction count generalizing product options shiftedOptions transcript with
  | zero =>
      rw [Nat.zero_mul, Nat.zero_add] at enoughOptions enoughShifted
      exact Completes.pure ⟨enoughOptions, enoughShifted⟩
  | succ count inductionHypothesis =>
      rw [Nat.succ_mul] at enoughOptions enoughShifted
      apply Completes.bind (Assembly.split_completes (by omega))
      rintro ⟨option, laterOptions⟩ _ ⟨rfl, columns⟩
      apply Completes.bind (Assembly.split_completes (by omega))
      rintro ⟨shiftedOption, laterShifted⟩ _ ⟨rfl, shiftedColumns⟩
      simp only [List.length_append] at enoughOptions enoughShifted columns shiftedColumns
      apply Completes.bind_lift
      apply inductionHypothesis
      · omega
      · omega

/-- The tables are multiplied if each has two selectors, and all their options. -/
theorem multiplyTables_completes
    {challenges : LookupChallenges field}
    {product : Cell field}
    {number : Nat}
    {sizes : List (UInt64 × UInt64)}
    {selectors shiftedSelectors options shiftedOptions : List (Cell field)}
    (eachSelector : selectors.length = sizes.length)
    (eachShifted : shiftedSelectors.length = sizes.length)
    (enoughOptions : options.length =
      (sizes.map fun pair => pair.1.toNat * pair.2.toNat).sum)
    (enoughShifted : shiftedOptions.length =
      (sizes.map fun pair => pair.1.toNat * pair.2.toNat).sum) :
    Completes (fun _ => True)
      (multiplyTables challenges product number sizes selectors shiftedSelectors options
        shiftedOptions) transcript := by
  induction sizes generalizing product number selectors shiftedSelectors options shiftedOptions
    transcript with
  | nil => exact Completes.pure trivial
  | cons size sizes inductionHypothesis =>
      obtain ⟨count, columns⟩ := size
      obtain ⟨selector, selectors, rfl⟩ := List.exists_cons_of_length_eq_add_one eachSelector
      obtain ⟨shifted, shiftedSelectors, rfl⟩ := List.exists_cons_of_length_eq_add_one eachShifted
      rw [List.map_cons, List.sum_cons] at enoughOptions enoughShifted
      apply Completes.bind_lift
      apply Completes.bind (multiplyOptions_completes enoughOptions enoughShifted)
      rintro ⟨next, laterOptions, laterShifted⟩ _ ⟨leftOptions, leftShifted⟩
      apply inductionHypothesis
      · exact Nat.succ.inj eachSelector
      · exact Nat.succ.inj eachShifted
      · exact leftOptions
      · exact leftShifted

/-- A lookup argument has its values if its cells pass the check and its powers can be held. -/
theorem lookupArgument_completes
    {shape : LookupShape}
    (exact : shape.Exact)
    {input : LookupCells field}
    (fits : input.Fits shape)
    (checked : (checkLookup shape input).run transcript = (.ok (), transcript))
    (holdable : shape.sizes.widest ≤ largestReserve) :
    Completes (fun _ => True) (lookupArgument shape input) transcript := by
  have passes : Completes (fun _ => True) (checkLookup shape input) transcript :=
    ⟨(), transcript, checked, trivial⟩
  apply passes.bind
  intro _ between _
  apply Completes.bind_lift
  apply Completes.bind (powersFromOne_completes holdable)
  intro powers _ _
  apply Completes.bind_lift
  apply Completes.bind
  · have eachConstraint := length_constraintSelectors fits.gateSelectors
    apply multiplyConstraints_completes
    · rw [eachConstraint, exact.widths, exact.constraints]
    · rw [eachConstraint, fits.tableIds, exact.constraints]
    · rw [fits.lookupInputs, exact.inputs]
  intro lookedUp _ _
  apply Completes.bind
  · have eachTable : (shape.sizes.tableOptions.zip shape.sizes.tableColumns).length =
        shape.sizes.tableOptions.length := by
      rw [List.length_zip, exact.tables, Nat.min_self]
    apply multiplyTables_completes
    · rw [eachTable, fits.tableSelectors]
    · rw [eachTable, fits.shiftedTableSelectors]
    · rw [fits.options, exact.options]
    · rw [fits.shiftedOptions, exact.options]
  intro numerator _ _
  apply Completes.bind_lift
  exact Completes.lift trivial

/-- More powers than can be held crash a lookup argument whose cells pass the check. -/
theorem lookupArgument_crashes
    {shape : LookupShape}
    {input : LookupCells field}
    (checked : (checkLookup shape input).run transcript = (.ok (), transcript))
    (tooMany : largestReserve < shape.sizes.widest) :
    ∃ after, (lookupArgument shape input).run transcript = (.error .crash, after) := by
  have crashes : ∀ between : Transcript field,
      (powersFromOne input.theta shape.sizes.widest).run between = (.error .crash, between) := by
    intro between
    unfold powersFromOne
    rw [if_pos tooMany]
    rfl
  refine ⟨(Synthesis.constant (1 : Element field) transcript).2, ?_⟩
  rw [lookupArgument, run_bind, checked]
  dsimp only
  rw [run_bind]
  change ((powersFromOne input.theta shape.sizes.widest >>= _).run
    (Synthesis.constant (1 : Element field) transcript).2) = _
  rw [run_bind, crashes]

/--
A lookup argument has its values, or its cells are refused before any is laid
out, or it crashes for powers that cannot be held.
-/
theorem lookupArgument_cases
    {shape : LookupShape}
    (exact : shape.Exact)
    (input : LookupCells field)
    (transcript : Transcript field) :
    (∃ failure, (lookupArgument shape input).run transcript =
        (.error (.report failure), transcript))
      ∨ Completes (fun _ => True) (lookupArgument shape input) transcript
      ∨ largestReserve < shape.sizes.widest
        ∧ ∃ after, (lookupArgument shape input).run transcript = (.error .crash, after) := by
  rcases checkLookup_checks shape input with ⟨failure, refused⟩ | ⟨fits, checked⟩
  · refine .inl ⟨failure, ?_⟩
    rw [lookupArgument, run_bind, refused]
  refine .inr ?_
  by_cases holdable : shape.sizes.widest ≤ largestReserve
  · exact .inl (lookupArgument_completes exact fits checked holdable)
  · have tooMany : largestReserve < shape.sizes.widest := Nat.not_le.mp holdable
    exact .inr ⟨tooMany, lookupArgument_crashes checked tooMany⟩

/-- Cells that fit a shape pass the check. -/
theorem accepted_of_fits
    {shape : LookupShape}
    {input : LookupCells field}
    (fits : input.Fits shape) :
    (checkLookup shape input).run transcript = (.ok (), transcript) := by
  unfold checkLookup
  rw [Assembly.run_checkLength_bind, if_pos fits.sorted,
    Assembly.run_checkLength_bind, if_pos fits.alphas,
    Assembly.run_checkLength_bind, if_pos fits.gateSelectors,
    Assembly.run_checkLength_bind, if_pos fits.tableIds,
    Assembly.run_checkLength_bind, if_pos fits.lookupInputs,
    Assembly.run_checkLength_bind, if_pos fits.tableSelectors,
    Assembly.run_checkLength_bind, if_pos fits.shiftedTableSelectors,
    Assembly.run_checkLength_bind, if_pos fits.options,
    Assembly.checkLength, if_pos fits.shiftedOptions]
  rfl

/-- A lookup argument has its values exactly if its cells fit and its powers can be held. -/
theorem lookupArgument_completes_iff
    {shape : LookupShape}
    (exact : shape.Exact)
    (input : LookupCells field)
    (transcript : Transcript field) :
    (∃ result after, (lookupArgument shape input).run transcript = (.ok result, after)) ↔
      input.Fits shape ∧ shape.sizes.widest ≤ largestReserve := by
  constructor
  · rintro ⟨result, after, gives⟩
    have fits := fits_of_lookupArgument gives
    refine ⟨fits, Nat.not_lt.mp fun tooMany => ?_⟩
    obtain ⟨_, crashed⟩ := lookupArgument_crashes (accepted_of_fits fits) tooMany
    rw [gives] at crashed
    cases crashed
  · rintro ⟨fits, holdable⟩
    obtain ⟨result, after, gives, -⟩ :=
      lookupArgument_completes exact fits (accepted_of_fits fits) holdable
    exact ⟨result, after, gives⟩

end Gadget

end Plonkish
