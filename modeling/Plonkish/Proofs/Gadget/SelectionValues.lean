import Plonkish.Gadget.Select
import Plonkish.Proofs.Circuit.OperationEvaluation
import Plonkish.Proofs.Circuit.Recording

namespace Plonkish

/-!
# The value of a selection

A selection tests its condition for zero, and then chooses by the bit of the
test. Its constraints are those of two blocks. The ties between the halves of
each block make the result the one of the two operands that the condition asks for,
whatever the other cells hold. The inverse in the test is such another cell: a
condition of zero leaves it open, and nothing else depends on it.
-/

namespace Gadget

variable {field : PrimeField} {assignment : Nat → Element field}

/-- The equations of a test for zero, with the offset of the cell that is tested. -/
structure ZeroTested (assignment : Nat → Element field) (base operand : Nat) : Prop where
  sum : Transcript.GateHolds assignment base
  product : Transcript.GateHolds assignment (base + 4)
  factor : assignment (base + 1) = assignment operand
  one : assignment (base + 3) = 1
  zero : assignment (base + 4) = 0
  otherFactor : assignment (base + 5) = assignment operand
  vanishes : assignment (base + 7) = 0
  bit : assignment base = assignment (base + 6)

/-- The equations of a choice by a bit, with the offsets of the cells that it takes. -/
structure Chosen (assignment : Nat → Element field) (base set unset bit : Nat) : Prop where
  difference : Transcript.GateHolds assignment base
  choice : Transcript.GateHolds assignment (base + 4)
  one : assignment (base + 1) = 1
  subtrahend : assignment (base + 2) = assignment unset
  minuend : assignment (base + 3) = assignment set
  addend : assignment (base + 4) = assignment unset
  factor : assignment (base + 5) = assignment bit
  sameDifference : assignment base = assignment (base + 6)
  sameAddend : assignment (base + 2) = assignment (base + 4)

section Blocks

variable {transcript : Transcript field}

/-- A test for zero asks for its equations, and for nothing else. -/
theorem satisfiedSince_isZero {operand : Cell field} :
    transcript.SatisfiedSince (Synthesis.isZero operand transcript).2 assignment ↔
      ZeroTested assignment transcript.size operand.offset := by
  refine Transcript.satisfiedSince_lay.trans ?_
  simp only [Block.HoldsAt, Entry.AllHoldAt, Entry.HoldsAt, Entry.plain, Entry.gated,
    Source.HoldsAt, Nat.add_assoc, Nat.reduceAdd, List.forall_mem_singleton, Nat.add_zero]
  constructor
  · rintro ⟨⟨⟨-, sum⟩, ⟨factor, -⟩, -, ⟨one, -⟩, ⟨zero, product⟩, ⟨other, -⟩, -, ⟨last, -⟩, -⟩,
      bit⟩
    exact ⟨sum trivial, product trivial, factor, one, zero, other, last, bit⟩
  · intro tested
    simp [tested.sum, tested.product, tested.factor, tested.one, tested.zero,
      tested.otherFactor, tested.vanishes, tested.bit]

/-- A choice by a bit asks for its equations, and for nothing else. -/
theorem satisfiedSince_choice {set unset bit : Cell field} :
    transcript.SatisfiedSince (Synthesis.select set unset bit transcript).2 assignment ↔
      Chosen assignment transcript.size set.offset unset.offset bit.offset := by
  refine Transcript.satisfiedSince_lay.trans ?_
  simp only [Block.HoldsAt, Entry.AllHoldAt, Entry.HoldsAt, Entry.plain, Entry.gated,
    Source.HoldsAt, Nat.add_assoc, Nat.reduceAdd, List.forall_mem_cons, Nat.add_zero]
  constructor
  · rintro ⟨⟨⟨-, difference⟩, ⟨one, -⟩, ⟨subtrahend, -⟩, ⟨minuend, -⟩, ⟨addend, choice⟩,
      ⟨factor, -⟩, -⟩, sameDifference, sameAddend, -⟩
    exact ⟨difference trivial, choice trivial, one, subtrahend, minuend, addend, factor,
      sameDifference, sameAddend⟩
  · intro chosen
    simp [chosen.difference, chosen.choice, chosen.one, chosen.subtrahend, chosen.minuend,
      chosen.addend, chosen.factor, chosen.sameDifference]

/-- What a selection asks for: a test of its condition, and a choice by the bit of the test. -/
theorem satisfiedSince_select {condition whenTrue whenFalse : Cell field} :
    transcript.SatisfiedSince (select condition whenTrue whenFalse transcript).2 assignment ↔
      ZeroTested assignment transcript.size condition.offset
        ∧ Chosen assignment (transcript.size + 8) whenFalse.offset whenTrue.offset
            (transcript.size + 6) := by
  let tested := Synthesis.isZero (.existing condition) transcript
  have size : tested.2.size = transcript.size + 8 := Transcript.size_lay _ _
  have earlier : transcript.ExtendedBy tested.2 := transcript.extendedBy_lay _
  have later : tested.2.ExtendedBy (select condition whenTrue whenFalse transcript).2 :=
    tested.2.extendedBy_lay _
  have chooses :
      tested.2.SatisfiedSince (select condition whenTrue whenFalse transcript).2 assignment ↔
        Chosen assignment tested.2.size whenFalse.offset whenTrue.offset tested.1.offset :=
    satisfiedSince_choice
  rw [Transcript.satisfiedSince_trans earlier later, chooses, size]
  exact and_congr_left' satisfiedSince_isZero

end Blocks

/-- The inverse in the test of a zero is multiplied by zero, so any other value does as well. -/
theorem ZeroTested.update
    {base operand : Nat}
    (tested : ZeroTested assignment base operand)
    (isZero : assignment operand = 0)
    (recorded : operand < base)
    (inverse : Element field) :
    ZeroTested (Function.update assignment (base + 2) inverse) base operand := by
  have atOperand : Function.update assignment (base + 2) inverse operand = assignment operand :=
    Function.update_of_ne (by omega) _ _
  have sum := tested.sum
  have product := tested.product
  simp only [Transcript.GateHolds, Nat.add_assoc, Nat.reduceAdd] at sum product
  have noFactor : assignment (base + 1) = 0 := tested.factor.trans isZero
  -- Only the first gate reads the inverse, and its other factor is the operand.
  constructor
  case sum =>
    rw [noFactor, zero_mul] at sum
    simp [Transcript.GateHolds, noFactor, sum]
  case product => simp [Transcript.GateHolds, Nat.add_assoc, product]
  case factor => simp [atOperand, tested.factor]
  case one => simp [tested.one]
  case zero => simp [tested.zero]
  case otherFactor => simp [atOperand, tested.otherFactor]
  case vanishes => simp [tested.vanishes]
  case bit => simp [tested.bit]

/-- A choice reads its own cells and those that it takes. -/
theorem Chosen.congr
    {other : Nat → Element field}
    {base set unset bit : Nat}
    (chosen : Chosen assignment base set unset bit)
    (same : ∀ offset, base ≤ offset → other offset = assignment offset)
    (sameSet : other set = assignment set)
    (sameUnset : other unset = assignment unset)
    (sameBit : other bit = assignment bit) :
    Chosen other base set unset bit := by
  have own (position : Nat) : other (base + position) = assignment (base + position) :=
    same _ (Nat.le_add_right _ _)
  have first : other base = assignment base := same _ (Nat.le_refl _)
  constructor
  case difference => simpa [Transcript.GateHolds, own, first] using chosen.difference
  case choice => simpa [Transcript.GateHolds, Nat.add_assoc, own] using chosen.choice
  case one => rw [own, chosen.one]
  case subtrahend => rw [own, sameUnset, chosen.subtrahend]
  case minuend => rw [own, sameSet, chosen.minuend]
  case addend => rw [own, sameUnset, chosen.addend]
  case factor => rw [own, sameBit, chosen.factor]
  case sameDifference => rw [own, first, chosen.sameDifference]
  case sameAddend => rw [own, own, chosen.sameAddend]

/-- Values for new cells, behind given values for the earlier ones. -/
def continued
    (earlier : Nat → Element field)
    (size : Nat)
    (added : List (Element field))
    (offset : Nat) :
    Element field :=
  if offset < size then earlier offset else added.getD (offset - size) 0

theorem continued_before
    {earlier : Nat → Element field}
    {size offset : Nat}
    {added : List (Element field)}
    (before : offset < size) :
    continued earlier size added offset = earlier offset :=
  if_pos before

theorem continued_add
    (earlier : Nat → Element field)
    (size position : Nat)
    (added : List (Element field)) :
    continued earlier size added (size + position) = added.getD position 0 := by
  simp [continued]

/-- Values that a prover can give the cells of a selection. -/
def selectionValues (condition whenTrue whenFalse : Element field) : List (Element field) :=
  let bit := Synthesis.bitElement (decide (condition = 0))
  [bit, condition, condition.inverse, 1, 0, condition, bit, 0,
    whenFalse - whenTrue, 1, whenTrue, whenFalse,
    whenTrue, bit, whenFalse - whenTrue, (whenFalse - whenTrue) * bit + whenTrue]

/-- The values satisfy both blocks. -/
theorem selectionValues_satisfy
    {base condition whenTrue whenFalse : Nat}
    (own : ∀ position, assignment (base + position) =
      (selectionValues (assignment condition) (assignment whenTrue)
        (assignment whenFalse)).getD position 0) :
    ZeroTested assignment base condition
      ∧ Chosen assignment (base + 8) whenFalse whenTrue (base + 6) := by
  have first := own 0
  rw [Nat.add_zero] at first
  constructor
  · constructor
    case sum =>
      simpa [Transcript.GateHolds, own, first, selectionValues] using
        Synthesis.zeroBit_add_mul_inverse (assignment condition)
    case product =>
      simpa [Transcript.GateHolds, Nat.add_assoc, own, selectionValues] using
        Synthesis.mul_zeroBit (assignment condition)
    all_goals simp [own, first, selectionValues]
  · constructor
    case difference => simp [Transcript.GateHolds, Nat.add_assoc, own, selectionValues]
    case choice =>
      simp only [Transcript.GateHolds, Nat.add_assoc, Nat.reduceAdd, own, selectionValues,
        List.getD_cons_succ, List.getD_cons_zero]
      ring
    all_goals simp [Nat.add_assoc, own, selectionValues]

/-- The result is the operand that the condition asks for, however the cells are read. -/
theorem select_computes (read : Valuation field) (condition whenTrue whenFalse : Cell field) :
    Synthesis.Computes read (select condition whenTrue whenFalse) (fun result =>
      read result = if read condition = 0 then read whenFalse else read whenTrue) := by
  refine (Synthesis.isZero_computes Source.fixed_existing).bind fun isZero => ?_
  refine (Synthesis.select_computes Source.fixed_existing Source.fixed_existing
    Source.fixed_existing).imp ?_
  intro result isResult isBit
  simp only [Source.readBy_existing] at isResult isBit
  rw [isResult, isBit, Synthesis.selection_bitElement]
  by_cases zero : read condition = 0
  · simp [zero]
  · simp [zero]

/--
The result of a selection is the first operand if the condition is any element but
zero, and the second if it is zero, in every assignment that satisfies its constraints.

These leave the operands free: whatever they are, they can be satisfied. If the
condition is zero, then any inverse satisfies them.
-/
theorem select_chooses
    {transcript after : Transcript field}
    {condition whenTrue whenFalse result : Cell field}
    (gives : select condition whenTrue whenFalse transcript = (result, after)) :
    (∀ assignment, transcript.SatisfiedSince after assignment →
      assignment result.offset =
        if assignment condition.offset = 0 then assignment whenFalse.offset
        else assignment whenTrue.offset)
      ∧ (condition.offset < transcript.size → whenTrue.offset < transcript.size →
          whenFalse.offset < transcript.size →
        (∀ earlier : Nat → Element field, ∃ assignment, transcript.SatisfiedSince after assignment
            ∧ ∀ offset < transcript.size, assignment offset = earlier offset)
          ∧ ∀ assignment, transcript.SatisfiedSince after assignment →
              assignment condition.offset = 0 → ∀ inverse,
                transcript.SatisfiedSince after
                  (Function.update assignment (transcript.size + 2) inverse)) := by
  obtain rfl : (select condition whenTrue whenFalse transcript).1 = result :=
    congrArg Prod.fst gives
  obtain rfl : (select condition whenTrue whenFalse transcript).2 = after :=
    congrArg Prod.snd gives
  refine ⟨fun assignment satisfied => ?_,
    fun conditionRecorded whenTrueRecorded whenFalseRecorded =>
      ⟨fun earlier => ?_, fun assignment satisfied isZero inverse => ?_⟩⟩
  · exact (select_computes (.ofAssignment assignment) condition whenTrue whenFalse).holds
      transcript (.assigned satisfied)
  · let values := selectionValues (earlier condition.offset) (earlier whenTrue.offset)
      (earlier whenFalse.offset)
    have kept (offset : Nat) (before : offset < transcript.size) :
        continued earlier transcript.size values offset = earlier offset :=
      continued_before before
    refine ⟨continued earlier transcript.size values, satisfiedSince_select.mpr ?_, kept⟩
    apply selectionValues_satisfy
    intro position
    rw [kept _ conditionRecorded, kept _ whenTrueRecorded, kept _ whenFalseRecorded]
    exact continued_add _ _ _ _
  · obtain ⟨tested, chosen⟩ := satisfiedSince_select.mp satisfied
    have elsewhere (offset : Nat) (other : offset ≠ transcript.size + 2) :
        Function.update assignment (transcript.size + 2) inverse offset = assignment offset :=
      Function.update_of_ne other _ _
    refine satisfiedSince_select.mpr ⟨tested.update isZero conditionRecorded inverse, ?_⟩
    apply chosen.congr (fun offset own => elsewhere offset (by omega))
    · exact elsewhere _ (by omega)
    · exact elsewhere _ (by omega)
    · exact elsewhere _ (by omega)

/-- A choice between eight and nine. -/
def eightOrNine (condition : Element .bn254Scalar) :
    Cell .bn254Scalar × Transcript .bn254Scalar :=
  select ⟨0, condition⟩ ⟨1, 8⟩ ⟨2, 9⟩ (.ofValues [condition, 8, 9])

/--
A condition of five chooses the first operand, and a condition of zero the second,
also with seven as the inverse of zero.
-/
theorem select_chooses_eightOrNine :
    (∃ result after,
      eightOrNine 5 = (result, after)
        ∧ (Transcript.ofValues [5, 8, 9]).SatisfiedSince after after.valueAt
        ∧ after.valueAt result.offset = 8)
      ∧ ∃ result after,
        eightOrNine 0 = (result, after)
          ∧ (Transcript.ofValues [0, 8, 9]).SatisfiedSince after
              (Function.update after.valueAt 5 7)
          ∧ Function.update after.valueAt 5 7 result.offset = 9 := by
  constructor
  · have satisfied : (Transcript.ofValues [5, 8, 9]).SatisfiedSince (eightOrNine 5).2
        (eightOrNine 5).2.valueAt := by decide +kernel
    obtain ⟨chooses, -⟩ := select_chooses (rfl : eightOrNine 5 = _)
    exact ⟨_, _, rfl, satisfied, (chooses _ satisfied).trans (by decide +kernel)⟩
  · have satisfied : (Transcript.ofValues [0, 8, 9]).SatisfiedSince (eightOrNine 0).2
        (eightOrNine 0).2.valueAt := by decide +kernel
    obtain ⟨chooses, free⟩ := select_chooses (rfl : eightOrNine 0 = _)
    obtain ⟨-, anyInverse⟩ := free (by decide) (by decide) (by decide)
    have altered := anyInverse _ satisfied (by decide +kernel) 7
    exact ⟨_, _, rfl, altered, (chooses _ altered).trans (by decide +kernel)⟩

end Gadget

end Plonkish
