import Mathlib.Data.List.SplitLengths
import Plonkish.Proofs.Gadget.ArgumentSoundness
import Plonkish.Proofs.Gadget.Completion
import Plonkish.Proofs.Gadget.Evaluation

namespace Plonkish

/-!
# Values of gate arguments

The value of a gate argument as a formula of the values that it takes. The powers
of the challenge are not begun again at a gate: the exponent of a constraint is
its place among the constraints of all gates. A gate without constraints uses up
no power, and contributes nothing.
-/

/-- The values of a gate argument. -/
structure GateValues (field : PrimeField) where
  challenge : Element field
  constraints : List (Element field)
  selectors : List (Element field)

/-- The values that the cells of a gate argument hold. -/
def GateCells.readBy
    {field : PrimeField}
    (read : Valuation field)
    (input : GateCells field) :
    GateValues field where
  challenge := read input.challenge
  constraints := input.constraints.map read
  selectors := input.selectors.map read

/-- The values depend on what the cells of the argument hold only. -/
theorem GateCells.readBy_congr
    {field : PrimeField}
    {read other : Valuation field}
    {input : GateCells field}
    (same : ∀ cell ∈ input.all, read cell = other cell) :
    input.readBy read = input.readBy other := by
  simp only [all, List.forall_mem_cons, List.forall_mem_append] at same
  obtain ⟨challenge, constraints, selectors⟩ := same
  simp only [readBy, challenge, List.map_congr_left constraints, List.map_congr_left selectors]

namespace GateValues

variable {field : PrimeField} (values : GateValues field) (sizes : List UInt64)

/-- The constraints of all gates, each times the power of its place among them. -/
def scaled : List (Element field) :=
  values.constraints.mapIdx fun place constraint => values.challenge ^ place * constraint

/-- The combined constraints of each gate. -/
def combined : List (Element field) :=
  ((sizes.map UInt64.toNat).splitLengths values.scaled).map List.sum

/-- The sum over the gates of the combined constraints of a gate, times its selector. -/
def result : Element field :=
  (List.zipWith (· * ·) values.selectors (values.combined sizes)).sum

end GateValues

namespace Gadget

variable {field : PrimeField} {read : Valuation field}

/-- The products of constraints with powers are cut as the constraints and powers are. -/
theorem combineGates_computes (constraints powers : List (Cell field)) (sizes : List UInt64) :
    Assembly.Computes read (combineGates constraints powers sizes) (fun combined =>
      combined.map read =
        ((sizes.map UInt64.toNat).splitLengths
          (List.zipWith (· * ·) (constraints.map read) (powers.map read))).map List.sum) := by
  induction sizes generalizing constraints powers with
  | nil => exact Assembly.Computes.pure rfl
  | cons size sizes inductionHypothesis =>
      refine Assembly.split_computes.bind fun (ownConstraints, laterConstraints) => ?_
      refine Assembly.split_computes.bind fun (ownPowers, laterPowers) => ?_
      refine (Assembly.Computes.lift
        (innerProductOfCells_computes ownConstraints ownPowers)).bind fun own => ?_
      refine (inductionHypothesis laterConstraints laterPowers).bind fun later => ?_
      refine Assembly.Computes.pure ?_
      rintro areLater isOwn ⟨rfl, powersCounted⟩ ⟨rfl, constraintsCounted⟩
      have sameLength : (ownConstraints.map read).length = (ownPowers.map read).length := by
        rw [List.length_map, List.length_map, constraintsCounted, powersCounted]
      have counted : (List.zipWith (· * ·) (ownConstraints.map read) (ownPowers.map read)).length =
          size.toNat := by
        rw [List.length_zipWith, sameLength, Nat.min_self, List.length_map, powersCounted]
      rw [List.map_append, List.map_append, List.zipWith_append sameLength, List.map_cons,
        List.map_cons, List.splitLengths_cons, List.take_left' counted, List.drop_left' counted,
        List.map_cons, isOwn, areLater]

/-- A gate argument that has a value has the one of its formula. -/
theorem gateArgument_computes (shape : GateShape) (input : GateCells field) :
    Assembly.Computes read (gateArgument shape input) (fun result =>
      read result = (input.readBy read).result shape.sizes) := by
  refine Assembly.checkLength_computes.bind fun _ => ?_
  refine Assembly.checkLength_computes.bind fun _ => ?_
  refine (Assembly.Computes.lift
    (powersFromZero_computes input.challenge shape.total)).bind fun powers => ?_
  refine (combineGates_computes input.constraints powers shape.sizes).bind fun combined => ?_
  refine (Assembly.Computes.lift
    (innerProductOfCells_computes input.selectors combined)).imp ?_
  intro result isResult areCombined arePowers _ counted
  have enough : (input.constraints.map read).length ≤ shape.total := by
    rw [List.length_map, counted]
  rw [isResult, areCombined, arePowers, zipWith_mul_map_range enough]
  rfl

/--
A gate argument has a value exactly if there are as many constraints as its gates
have, and a selector for each gate. Otherwise it is refused before anything is
laid out. Whatever satisfies the constraints that it laid out gives it the value
of its formula.
-/
theorem gateArgument_values
    {sizes : List UInt64}
    (nonempty : sizes ≠ [])
    (bounded : (sizes.map UInt64.toNat).sum < 2 ^ 64)
    (input : GateCells field)
    (transcript : Transcript field) :
    ∃ shape, GateShape.make sizes = .ok shape
      ∧ (input.constraints.length = (sizes.map UInt64.toNat).sum →
        input.selectors.length = sizes.length →
          ∃ result after, (gateArgument shape input).run transcript = (.ok result, after)
            ∧ ∀ read, Valuation.Faithful transcript after read →
              read result = (input.readBy read).result sizes)
      ∧ (input.constraints.length ≠ (sizes.map UInt64.toNat).sum →
        (gateArgument shape input).run transcript =
          (.error (.report (.inputLength "constraints" (sizes.map UInt64.toNat).sum
            input.constraints.length)), transcript))
      ∧ (input.constraints.length = (sizes.map UInt64.toNat).sum →
        input.selectors.length ≠ sizes.length →
          (gateArgument shape input).run transcript =
            (.error (.report (.inputLength "selectors" sizes.length input.selectors.length)),
              transcript)) := by
  have made := GateShape.make_eq_ok_iff.mpr
    ⟨nonempty, bounded.trans_eq (Nat.one_shiftLeft 64).symm, rfl⟩
  refine ⟨_, made, fun constraints selectors => ?_, fun others => ?_,
    fun constraints others => ?_⟩
  · have completes : Completes (fun _ => True) (gateArgument ⟨sizes, _⟩ input) transcript :=
      gateArgument_completes rfl constraints selectors
    obtain ⟨result, after, gives, -⟩ := completes
    exact ⟨result, after, gives, fun read faithful =>
      (gateArgument_computes _ input).of_ok gives faithful⟩
  · exact run_gateArgument_of_constraints others
  · exact run_gateArgument_of_selectors constraints others

/-- The values that were worked out for a gate argument satisfy its constraints. -/
theorem faithful_of_gateArgument
    {shape : GateShape}
    {input : GateCells field}
    {transcript after : Transcript field}
    {result : Cell field}
    (gives : (gateArgument shape input).run transcript = (.ok result, after))
    (consistent : transcript.Consistent)
    (recorded : ∀ cell ∈ input.all, transcript.Records cell) :
    Valuation.Faithful transcript after (.ofAssignment after.valueAt)
      ∧ input.readBy (.ofAssignment after.valueAt) = input.readBy Cell.value := by
  have sound := @gateArgument_sound _ {cell | cell ∈ input.all} shape input
    fun cell member => member
  obtain ⟨satisfied, held⟩ := sound.satisfiedSince gives consistent recorded
  exact ⟨.assigned satisfied, GateCells.readBy_congr held⟩

/-- A challenge, three constraints, and three selectors. -/
def gateArgumentValues : List (Element .bn254Scalar) :=
  [10, 5, 6, 7, 9, 2, 3].map (Element.ofNat .bn254Scalar)

/-- A cell that holds one of them. -/
def gateCell (offset : Nat) : Cell .bn254Scalar :=
  ⟨offset, gateArgumentValues.getD offset 0⟩

/-- The first so many of the constraints and of the selectors. -/
def gateInput (constraints selectors : Nat) : GateCells .bn254Scalar where
  challenge := gateCell 0
  constraints := (List.range' 1 constraints).map gateCell
  selectors := (List.range' 4 selectors).map gateCell

/--
Of three gates, the first has no constraints, and the third goes on with the power
after the second. Without the last constraint or the last selector, they are refused.
-/
theorem gateArgument_values_emptyGate :
    ∃ shape, GateShape.make [0, 2, 1] = .ok shape
      ∧ (∃ result after,
        (gateArgument shape (gateInput 3 3)).run (.ofValues gateArgumentValues) =
            (.ok result, after)
          ∧ Valuation.Faithful (.ofValues gateArgumentValues) after
              (.ofAssignment after.valueAt)
          ∧ after.valueAt result.offset = 2 * (5 + 10 * 6) + 3 * (100 * 7))
      ∧ (gateArgument shape (gateInput 2 3)).run (.ofValues gateArgumentValues) =
        (.error (.report (.inputLength "constraints" 3 2)), .ofValues gateArgumentValues)
      ∧ (gateArgument shape (gateInput 3 2)).run (.ofValues gateArgumentValues) =
        (.error (.report (.inputLength "selectors" 3 2)), .ofValues gateArgumentValues) := by
  have values := @gateArgument_values .bn254Scalar [0, 2, 1] (by decide) (by decide)
  obtain ⟨shape, made, completes, -, -⟩ := values (gateInput 3 3) (.ofValues gateArgumentValues)
  obtain ⟨fewerMade, sameShape, -, fewerConstraints, -⟩ :=
    values (gateInput 2 3) (.ofValues gateArgumentValues)
  obtain ⟨otherMade, otherShape, -, -, fewerSelectors⟩ :=
    values (gateInput 3 2) (.ofValues gateArgumentValues)
  obtain rfl : shape = fewerMade := Except.ok.inj (made.symm.trans sameShape)
  obtain rfl : shape = otherMade := Except.ok.inj (made.symm.trans otherShape)
  refine ⟨shape, made, ?_, fewerConstraints (by decide), fewerSelectors rfl (by decide)⟩
  obtain ⟨result, after, gives, forced⟩ := completes rfl rfl
  obtain ⟨faithful, isInput⟩ := faithful_of_gateArgument gives
    (Transcript.consistent_ofValues gateArgumentValues) (by decide +kernel)
  refine ⟨result, after, gives, faithful, ?_⟩
  rw [show after.valueAt result.offset = _ from forced _ faithful, isInput]
  decide +kernel

end Gadget

end Plonkish
