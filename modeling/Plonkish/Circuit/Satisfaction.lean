import Plonkish.Circuit.Transcript

namespace Plonkish

/-!
# Satisfaction

A transcript is satisfied by an assignment of values to offsets if every gate
holds, tied cells are equal, and fixed cells hold their constants. Public inputs
are satisfied if every exposed cell holds the value with which it was exposed.
-/

namespace Transcript

variable {field : PrimeField}

/-- The gate at an offset holds. -/
def GateHolds (assignment : Nat → Element field) (offset : Nat) : Prop :=
  assignment offset + assignment (offset + 1) * assignment (offset + 2) = assignment (offset + 3)

instance (assignment : Nat → Element field) (offset : Nat) :
    Decidable (GateHolds assignment offset) :=
  inferInstanceAs (Decidable (_ = _))

/-- Every constraint of a transcript holds. -/
structure SatisfiedBy (transcript : Transcript field) (assignment : Nat → Element field) :
    Prop where
  gates : ∀ offset ∈ transcript.gates, GateHolds assignment offset
  copies : ∀ pair ∈ transcript.copies.toList, assignment pair.1 = assignment pair.2
  constants : ∀ entry ∈ transcript.constants.toList, assignment entry.1 = entry.2

/-- Decide whether every constraint holds. -/
def isSatisfiedBy (transcript : Transcript field) (assignment : Nat → Element field) : Bool :=
  transcript.gates.all (fun offset => decide (GateHolds assignment offset))
    && transcript.copies.toList.all
      (fun (left, right) => decide (assignment left = assignment right))
    && transcript.constants.toList.all
      (fun (offset, value) => decide (assignment offset = value))

/-- The decision is right. -/
theorem isSatisfiedBy_iff (transcript : Transcript field) (assignment : Nat → Element field) :
    transcript.isSatisfiedBy assignment ↔ transcript.SatisfiedBy assignment := by
  simp only [isSatisfiedBy, Bool.and_eq_true, List.all_eq_true, decide_eq_true_eq]
  exact ⟨fun ⟨⟨gates, copies⟩, constants⟩ => ⟨gates, copies, constants⟩,
    fun satisfied => ⟨⟨satisfied.gates, satisfied.copies⟩, satisfied.constants⟩⟩

instance (transcript : Transcript field) (assignment : Nat → Element field) :
    Decidable (transcript.SatisfiedBy assignment) :=
  decidable_of_iff _ (transcript.isSatisfiedBy_iff assignment)

/-- The values that the cells of a transcript hold, with zero past the end. -/
def assignment (transcript : Transcript field) (offset : Nat) : Element field :=
  (transcript.value? offset).getD 0

end Transcript

/-- Every cell holds the value of its handle. -/
def Cell.AllHold (assignment : Nat → Element field) (cells : List (Cell field)) : Prop :=
  ∀ cell ∈ cells, assignment cell.offset = cell.value

instance (assignment : Nat → Element field) (cells : List (Cell field)) :
    Decidable (Cell.AllHold assignment cells) :=
  inferInstanceAs (Decidable (∀ cell ∈ cells, _))

end Plonkish
