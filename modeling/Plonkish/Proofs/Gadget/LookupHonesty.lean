import Plonkish.Proofs.Gadget.LookupValues

namespace Plonkish

/-!
# Honest lookups

An honest prover sorts the pairs that stand for lookups: each compressed
constraint with itself, and each compressed option of a table with the one at
the next row. The factor of a constraint is that of its pair, so the products
over lookups and over sorted values are the same, whatever the challenges are,
and all four values vanish for an accumulator that stays one.
-/

namespace LookupValues

variable {field : PrimeField} (values : LookupValues field) (sizes : LookupSizes)

/-- The pairs that stand for all lookup constraints and all table options. -/
def lookups : List (Element field × Element field) :=
  (values.constraints sizes).map (fun value => (value, value))
    ++ (values.tables sizes).zip (values.shiftedTables sizes)

/-- The sorted pairs are those of the lookups in some order. -/
def Honest : Prop :=
  values.sorted.Perm (values.lookups sizes)

/-- Every sorted value but the first is the shifted value of the pair before it. -/
def Linked : Prop :=
  values.sorted.IsChain fun earlier later => later.1 = earlier.2

/-- A constraint has the factor of the pair that stands for it. -/
theorem pairFactor_self (value : Element field) :
    values.pairFactor (value, value) = values.constraintFactor value := by
  unfold pairFactor constraintFactor
  ring

/-- The product over lookups is that over the pairs that stand for them. -/
theorem numerator_eq_prod :
    values.numerator sizes = ((values.lookups sizes).map values.pairFactor).prod := by
  rw [lookups, List.map_append, List.prod_append, List.map_map]
  simp only [Function.comp_def, pairFactor_self]
  rfl

variable {values sizes}

/-- The products of an honest argument agree, whatever the challenges are. -/
theorem Honest.numerator_eq (honest : values.Honest sizes) :
    values.numerator sizes = values.denominator := by
  rw [numerator_eq_prod, denominator]
  exact ((honest.map values.pairFactor).prod_eq).symm

/-- The step of an honest argument only depends on how the accumulator changes. -/
theorem Honest.step_eq (honest : values.Honest sizes) :
    values.step sizes =
      (1 - (values.lastRow + values.blindRows)) * values.numerator sizes
        * (values.nextAccumulator - values.accumulator) := by
  rw [step, ← honest.numerator_eq]
  ring

/-- Linked pairs have no differences. -/
theorem differences_eq_zero
    {sorted : List (Element field × Element field)}
    (linked : sorted.IsChain fun earlier later => later.1 = earlier.2) :
    ∀ difference ∈ differences sorted, difference = 0 := by
  induction linked with
  | nil => exact fun difference member => nomatch member
  | singleton pair => exact fun difference member => nomatch member
  | cons_cons same later inductionHypothesis =>
      exact List.forall_mem_cons.mpr ⟨sub_eq_zero.mpr same, inductionHypothesis⟩

theorem Linked.links_eq (linked : values.Linked) : values.links = 0 := by
  have vanishes : ∀ product ∈
      List.zipWith (· * ·) values.alphas (differences values.sorted), product = 0 := by
    intro product member
    obtain ⟨position, inside, rfl⟩ := List.mem_iff_getElem.mp member
    rw [List.getElem_zipWith, differences_eq_zero linked _ (List.getElem_mem _), mul_zero]
  rw [links, List.sum_eq_zero vanishes, mul_zero]

/-- An honest and linked argument whose accumulator stays one has no value but zero. -/
theorem Honest.results_eq
    (honest : values.Honest sizes)
    (linked : values.Linked)
    (starts : values.accumulator = 1)
    (stays : values.nextAccumulator = 1) :
    values.results sizes = [0, 0, 0, 0] := by
  rw [results, first, last, honest.step_eq, linked.links_eq, starts, stays]
  simp

/-- The order of the sorted pairs makes no difference to the step. -/
theorem step_of_perm
    {permuted : List (Element field × Element field)}
    (same : permuted.Perm values.sorted) :
    ({ values with sorted := permuted } : LookupValues field).step sizes = values.step sizes := by
  have product : (permuted.map values.pairFactor).prod = values.denominator :=
    (same.map values.pairFactor).prod_eq
  change (1 - (values.lastRow + values.blindRows))
    * (values.nextAccumulator * (permuted.map values.pairFactor).prod
      - values.accumulator * values.numerator sizes) = values.step sizes
  rw [product]
  rfl

end LookupValues

namespace Gadget

variable {field : PrimeField}

/-- What satisfies a lookup argument gives each of its four values by its formula. -/
theorem read_lookupResult
    {shape : LookupShape}
    {input : LookupCells field}
    {transcript after : Transcript field}
    {result : LookupResult field}
    (gives : (lookupArgument shape input).run transcript = (.ok result, after))
    {read : Valuation field}
    (faithful : Valuation.Faithful transcript after read) :
    read result.first = (input.readBy read).first
      ∧ read result.last = (input.readBy read).last
      ∧ read result.step = (input.readBy read).step shape.sizes
      ∧ read result.links = (input.readBy read).links := by
  have results := (lookupArgument_computes (fits_of_lookupArgument gives)).of_ok gives faithful
  simpa [LookupResult.toList, LookupValues.results] using results

/--
A lookup argument accepts honest lookups.

Whatever satisfies its constraints, if the sorted pairs are those of the lookups
in some order, then both products agree, and the step only depends on how the
accumulator changes. All four values are zero if the pairs are linked as well
and the accumulator stays one. And whatever satisfies the constraints of another
such argument, with the sorted pairs in another order, gives it the same first,
last and step value.
-/
theorem lookupArgument_honest
    {gates tables : Nat}
    {sizes : LookupSizes}
    {shape : LookupShape}
    (made : LookupShape.make gates tables sizes = .ok shape)
    {input : LookupCells field}
    {transcript : Transcript field}
    (accepted : (checkLookup shape input).run transcript = (.ok (), transcript))
    (holdable : sizes.widest ≤ largestReserve) :
    ∃ result after, (lookupArgument shape input).run transcript = (.ok result, after)
      ∧ ∀ read values, Valuation.Faithful transcript after read → input.readBy read = values →
        (values.Honest sizes →
          values.numerator sizes = values.denominator
            ∧ read result.step =
              (1 - (values.lastRow + values.blindRows)) * values.numerator sizes
                * (values.nextAccumulator - values.accumulator)
            ∧ (values.Linked → values.accumulator = 1 → values.nextAccumulator = 1 →
              result.toList.map read = [0, 0, 0, 0]))
          ∧ ∀ other start otherResult otherAfter otherRead permuted,
            (lookupArgument shape other).run start = (.ok otherResult, otherAfter) →
              Valuation.Faithful start otherAfter otherRead →
                permuted.Perm values.sorted →
                  other.readBy otherRead = { values with sorted := permuted } →
                    otherRead otherResult.first = read result.first
                      ∧ otherRead otherResult.last = read result.last
                      ∧ otherRead otherResult.step = read result.step := by
  obtain ⟨rfl, exact⟩ := LookupShape.sizes_and_exact_of_make made
  obtain ⟨result, after, gives, -⟩ :=
    lookupArgument_completes exact (fits_of_accepted accepted) accepted holdable
  refine ⟨result, after, gives, ?_⟩
  rintro read values faithful rfl
  obtain ⟨isFirst, isLast, isStep, isLinks⟩ := read_lookupResult gives faithful
  constructor
  · intro honest
    refine ⟨honest.numerator_eq, isStep.trans honest.step_eq, fun linked starts stays => ?_⟩
    rw [← honest.results_eq linked starts stays]
    exact (lookupArgument_computes (fits_of_accepted accepted)).of_ok gives faithful
  · intro other start otherResult otherAfter otherRead permuted otherGives otherFaithful same sorted
    obtain ⟨otherFirst, otherLast, otherStep, -⟩ := read_lookupResult otherGives otherFaithful
    rw [otherFirst, otherLast, otherStep, sorted, isFirst, isLast, isStep,
      LookupValues.step_of_perm same]
    exact ⟨rfl, rfl, rfl⟩

/-- Lookups of entries of two tables, whose sorted pairs are linked. -/
def honestLookup : LookupCells .bn254Scalar :=
  { unevenLookup with
    accumulator := ⟨numberCell 1, numberCell 1⟩
    gateSelectors := [1, 0, 1].map numberCell
    tableSelectors := [0, 1, 2].map numberCell
    shiftedTableSelectors := [0, 1, 2].map numberCell
    sorted := [14, 14, 14, 16, 16, 16, 16, 18, 18, 18, 18, 22].map numberCell }

/-- The same lookups with their pairs in another order, in which they are not linked. -/
def reversedLookup : LookupCells .bn254Scalar :=
  { honestLookup with
    sorted := [18, 22, 18, 18, 16, 18, 16, 16, 14, 16, 14, 14].map numberCell }

/-- The linked order has no value but zero, and the other one the same first three values. -/
theorem lookupArgument_honest_uneven :
    ∃ result after otherResult otherAfter,
      (lookupArgument unevenShape honestLookup).run (.ofValues numberValues) = (.ok result, after)
        ∧ (lookupArgument unevenShape reversedLookup).run (.ofValues numberValues) =
          (.ok otherResult, otherAfter)
        ∧ result.toList.map (Valuation.ofAssignment after.valueAt) = [0, 0, 0, 0]
        ∧ Valuation.ofAssignment otherAfter.valueAt otherResult.first =
          Valuation.ofAssignment after.valueAt result.first
        ∧ Valuation.ofAssignment otherAfter.valueAt otherResult.last =
          Valuation.ofAssignment after.valueAt result.last
        ∧ Valuation.ofAssignment otherAfter.valueAt otherResult.step =
          Valuation.ofAssignment after.valueAt result.step := by
  have made : LookupShape.make 3 3 unevenSizes = .ok unevenShape := by decide +kernel
  have holdable : unevenSizes.widest ≤ largestReserve := by decide +kernel
  have consistent := Transcript.consistent_ofValues numberValues
  have accepted : (checkLookup unevenShape honestLookup).run (.ofValues numberValues) =
      (.ok (), .ofValues numberValues) := rfl
  have otherAccepted : (checkLookup unevenShape reversedLookup).run (.ofValues numberValues) =
      (.ok (), .ofValues numberValues) := rfl
  obtain ⟨result, after, gives, forced⟩ := lookupArgument_honest made accepted holdable
  obtain ⟨otherResult, otherAfter, otherGives, -⟩ :=
    lookupArgument_honest made otherAccepted holdable
  obtain ⟨faithful, isInput⟩ := faithful_of_lookupArgument gives consistent (by decide +kernel)
  obtain ⟨otherFaithful, isOther⟩ :=
    faithful_of_lookupArgument otherGives consistent (by decide +kernel)
  obtain ⟨vanishes, reorders⟩ := forced _ _ faithful isInput
  refine ⟨result, after, otherResult, otherAfter, gives, otherGives, ?_, ?_⟩
  · have honest : (honestLookup.readBy Cell.value).Honest unevenSizes := by
      unfold LookupValues.Honest
      decide +kernel
    have linked : (honestLookup.readBy Cell.value).Linked := by
      unfold LookupValues.Linked
      decide +kernel
    exact (vanishes honest).2.2 linked rfl rfl
  · refine reorders _ _ _ _ _ (reversedLookup.readBy Cell.value).sorted otherGives otherFaithful
      (by decide +kernel) ?_
    rw [isOther]
    rfl

end Gadget

end Plonkish
