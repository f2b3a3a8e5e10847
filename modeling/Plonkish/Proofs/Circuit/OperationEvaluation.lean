import Plonkish.Proofs.Circuit.Evaluation
import Plonkish.Proofs.Circuit.InnerProduct

namespace Plonkish

/-!
# Evaluation of operations

What each operation on cells makes of its operands: the sum is read as the sum
of what the operands are read as, and so on. Where a gate leaves some cell to
the prover, such as the inverse in a test for zero, the result does not depend
on it.
-/

namespace Synthesis

variable {field : PrimeField} (value : Element field)

/-- The bit of a test for zero makes up for the inverse that zero does not have. -/
theorem zeroBit_add_mul_inverse :
    bitElement (decide (value = 0)) + value * value.inverse = 1 := by
  by_cases zero : value = 0
  · simp [zero, bitElement]
  · simp [zero, bitElement, Element.mul_inverse_cancel zero]

theorem mul_zeroBit : value * bitElement (decide (value = 0)) = 0 := by
  by_cases zero : value = 0
  · simp [zero]
  · simp [zero, bitElement]

end Synthesis

namespace Block

variable {field : PrimeField} {assignment : Nat → Element field} {base : Nat}

/-- What a single gate asks of its cells. -/
theorem gate_of_holdsAt
    {first second third last : Source field}
    (holds : (Block.mk [.gated first, .plain second, .plain third, .plain last] []).HoldsAt
      assignment base) :
    assignment base + assignment (base + 1) * assignment (base + 2) = assignment (base + 3)
      ∧ first.HoldsAt assignment base ∧ second.HoldsAt assignment (base + 1)
      ∧ third.HoldsAt assignment (base + 2) ∧ last.HoldsAt assignment (base + 3) := by
  obtain ⟨⟨⟨atFirst, gate⟩, ⟨atSecond, -⟩, ⟨atThird, -⟩, ⟨atLast, -⟩, -⟩, -⟩ := holds
  exact ⟨gate rfl, atFirst, atSecond, atThird, atLast⟩

/-- The result of a selection, whatever its operands are read as. -/
theorem selection_of_holdsAt
    {difference result : Element field}
    {set unset bit : Source field}
    (setFixed : set.Fixed)
    (unsetFixed : unset.Fixed)
    (bitFixed : bit.Fixed)
    (holds : (Block.mk
      [.gated (.witness difference), .plain (.constant 1), .plain unset, .plain set,
        .gated unset, .plain bit, .plain (.witness difference), .plain (.witness result)]
      [(0, 6), (2, 4)]).HoldsAt assignment base) :
    assignment (base + 7) =
      (set.readBy (.ofAssignment assignment) - unset.readBy (.ofAssignment assignment))
        * bit.readBy (.ofAssignment assignment) + unset.readBy (.ofAssignment assignment) := by
  have gates := Entry.gatesHoldAt_of_hold holds.1
  obtain ⟨⟨-, ⟨atOne, -⟩, ⟨atUnset, -⟩, ⟨atSet, -⟩, ⟨atOther, -⟩, ⟨atBit, -⟩, -⟩, ties⟩ := holds
  -- The same block on constants determines its result.
  have fixed (source : Source field) :
      (Source.constant (source.readBy (.ofAssignment assignment))).Fixed := Source.fixed_constant
  have determines := selection_determines (fixed set) (fixed unset) (fixed bit)
    (sub_add_cancel _ _) rfl
  refine (determines.forced assignment base ?_ gates ties).trans ?_
  · exact ⟨False.elim, fun _ => atOne, fun _ => atUnset.eq_readBy unsetFixed,
      fun _ => atSet.eq_readBy setFixed, fun _ => atOther.eq_readBy unsetFixed,
      fun _ => atBit.eq_readBy bitFixed, False.elim, False.elim, trivial⟩
  · simp only [Source.value_constant]
    ring

/-- The bit of a test for zero, whatever its operand is read as, and whatever the inverse is. -/
theorem zeroTest_of_holdsAt
    {bit inverse : Element field}
    {operand : Source field}
    (operandFixed : operand.Fixed)
    (holds : (Block.mk
      [.gated (.witness bit), .plain operand, .plain (.witness inverse), .plain (.constant 1),
        .gated (.constant 0), .plain operand, .plain (.witness bit), .plain (.constant 0)]
      [(0, 6)]).HoldsAt assignment base) :
    assignment (base + 6) =
      Synthesis.bitElement (decide (operand.readBy (.ofAssignment assignment) = 0)) := by
  have gates := Entry.gatesHoldAt_of_hold holds.1
  obtain ⟨⟨-, ⟨atOperand, -⟩, -, ⟨atOne, -⟩, ⟨atZero, -⟩, ⟨atOther, -⟩, -, ⟨atLast, -⟩, -⟩,
    ties⟩ := holds
  replace atOperand := atOperand.eq_readBy operandFixed
  replace atOther := atOther.eq_readBy operandFixed
  rw [Entry.plain_source] at atOperand atOther
  generalize operand.readBy (.ofAssignment assignment) = value at atOperand atOther ⊢
  have determines := zeroTest_determines (Source.fixed_constant : (Source.constant value).Fixed)
    (Synthesis.zeroBit_add_mul_inverse value) (Synthesis.mul_zeroBit value)
  exact determines.forced assignment base
    ⟨False.elim, fun _ => atOperand, False.elim, fun _ => atOne, fun _ => atZero,
      fun _ => atOther, False.elim, fun _ => atLast, trivial⟩ gates ties

end Block

namespace Synthesis

section Bits

variable {field : PrimeField} (first second : Bool)

theorem one_sub_bitElement : (1 - bitElement first : Element field) = bitElement (!first) := by
  cases first <;> simp [bitElement]

theorem bitElement_mul :
    (bitElement first * bitElement second : Element field) = bitElement (first && second) := by
  cases first <;> simp [bitElement]

/-- The formula of a disjunction, after its product became a conjunction. -/
theorem bitElement_add_sub_and :
    (bitElement first + bitElement second - bitElement (first && second) : Element field) =
      bitElement (first || second) := by
  cases first <;> cases second <;> simp [bitElement]

theorem selection_bitElement (set unset : Element field) :
    (set - unset) * bitElement first + unset = if first then set else unset := by
  cases first <;> simp [bitElement]

end Bits

variable {field : PrimeField} {read : Valuation field}
variable {left right : Source field}

theorem constant_computes (value : Element field) :
    Computes read (constant value) (fun cell => read cell = value) := by
  apply Computes.placedFirst
  case own => rfl
  case forced =>
    intro assignment base holds
    exact holds.1.1.1

theorem add_computes (leftFixed : left.Fixed) (rightFixed : right.Fixed) :
    Computes read (add left right)
      (fun sum => read sum = left.readBy read + right.readBy read) := by
  apply Computes.placed
  case own => simp only [Source.readBy_handles]
  case forced =>
    intro assignment base holds
    obtain ⟨gate, atLeft, atRight, atOne, -⟩ := Block.gate_of_holdsAt holds
    rw [atLeft.eq_readBy leftFixed, atRight.eq_readBy rightFixed, atOne, mul_one] at gate
    exact gate.symm

theorem sub_computes (leftFixed : left.Fixed) (rightFixed : right.Fixed) :
    Computes read (sub left right)
      (fun difference => read difference = left.readBy read - right.readBy read) := by
  apply Computes.placedFirst
  case own => simp only [Source.readBy_handles]
  case forced =>
    intro assignment base holds
    obtain ⟨gate, -, atRight, atOne, atLeft⟩ := Block.gate_of_holdsAt holds
    rw [atLeft.eq_readBy leftFixed, atRight.eq_readBy rightFixed, atOne, mul_one] at gate
    exact eq_sub_of_add_eq gate

theorem neg_computes (operandFixed : left.Fixed) :
    Computes read (neg left) (fun opposite => read opposite = -left.readBy read) := by
  apply Computes.placed
  case own => simp only [Source.readBy_handles]
  case forced =>
    intro assignment base holds
    obtain ⟨gate, atOperand, -, atOne, atZero⟩ := Block.gate_of_holdsAt holds
    rw [atOperand.eq_readBy operandFixed, atOne, atZero, mul_one] at gate
    exact (neg_eq_of_add_eq_zero_right gate).symm

theorem mul_computes (leftFixed : left.Fixed) (rightFixed : right.Fixed) :
    Computes read (mul left right)
      (fun product => read product = left.readBy read * right.readBy read) := by
  apply Computes.placed
  case own => simp only [Source.readBy_handles]
  case forced =>
    intro assignment base holds
    obtain ⟨gate, atZero, atLeft, atRight, -⟩ := Block.gate_of_holdsAt holds
    rw [atZero, atLeft.eq_readBy leftFixed, atRight.eq_readBy rightFixed, zero_add] at gate
    exact gate.symm

theorem mulAdd_computes
    {addend : Source field}
    (leftFixed : left.Fixed)
    (rightFixed : right.Fixed)
    (addendFixed : addend.Fixed) :
    Computes read (mulAdd left right addend)
      (fun sum => read sum = left.readBy read * right.readBy read + addend.readBy read) := by
  apply Computes.placed
  case own => simp only [Source.readBy_handles]
  case forced =>
    intro assignment base holds
    obtain ⟨gate, atAddend, atLeft, atRight, -⟩ := Block.gate_of_holdsAt holds
    rw [atAddend.eq_readBy addendFixed, atLeft.eq_readBy leftFixed,
      atRight.eq_readBy rightFixed, add_comm] at gate
    exact gate.symm

theorem not_computes (bitFixed : left.Fixed) :
    Computes read (not left) (fun result => read result = 1 - left.readBy read) :=
  sub_computes Source.fixed_constant bitFixed

theorem and_computes (leftFixed : left.Fixed) (rightFixed : right.Fixed) :
    Computes read (and left right)
      (fun result => read result = left.readBy read * right.readBy read) :=
  mul_computes leftFixed rightFixed

/-- A quotient times its divisor is the dividend; a divisor of zero leaves it open. -/
theorem quotient_computes (leftFixed : left.Fixed) (rightFixed : right.Fixed) :
    Computes read (quotient left right) (fun result =>
      right.readBy read ≠ 0 → read result * right.readBy read = left.readBy read) where
  extended transcript := transcript.extendedBy_lay _
  holds transcript faithful nonzero := by
    cases faithful with
    | handles =>
        rw [Source.readBy_handles] at nonzero ⊢
        rw [Source.readBy_handles]
        exact Element.divide_mul_cancel left.value nonzero
    | assigned satisfied =>
        obtain ⟨gate, atZero, -, atRight, atLeft⟩ := Block.gate_of_holdsAt satisfied.lay
        rw [atZero, atRight.eq_readBy rightFixed, atLeft.eq_readBy leftFixed, zero_add] at gate
        exact gate

theorem select_computes
    {bit : Source field}
    (setFixed : left.Fixed)
    (unsetFixed : right.Fixed)
    (bitFixed : bit.Fixed) :
    Computes read (select left right bit) (fun result =>
      read result = (left.readBy read - right.readBy read) * bit.readBy read
        + right.readBy read) := by
  apply Computes.placed
  case own => simp only [Source.readBy_handles]
  case forced =>
    intro assignment base holds
    exact Block.selection_of_holdsAt setFixed unsetFixed bitFixed holds

/-- The disjunction of two bits selects between one and the second of them. -/
theorem or_computes (leftFixed : left.Fixed) (rightFixed : right.Fixed) :
    Computes read (or left right) (fun result =>
      read result =
        left.readBy read + right.readBy read - left.readBy read * right.readBy read) := by
  apply Computes.placed
  case own => simp only [Source.readBy_handles]
  case forced =>
    intro assignment base holds
    rw [Block.selection_of_holdsAt Source.fixed_constant rightFixed leftFixed holds,
      Source.readBy_constant]
    ring

theorem isZero_computes (operandFixed : left.Fixed) :
    Computes read (isZero left) (fun result =>
      read result = bitElement (decide (left.readBy read = 0))) := by
  apply Computes.placed
  case own => simp [Source.readBy_handles, bitElement]
  case forced =>
    intro assignment base holds
    exact Block.zeroTest_of_holdsAt operandFixed holds

theorem isEqual_computes (leftFixed : left.Fixed) (rightFixed : right.Fixed) :
    Computes read (isEqual left right) (fun result =>
      read result = bitElement (decide (left.readBy read = right.readBy read))) := by
  refine (sub_computes leftFixed rightFixed).bind fun difference => ?_
  refine (isZero_computes Source.fixed_existing).imp fun result isBit isDifference => ?_
  rw [isBit, Source.readBy_existing, isDifference]
  simp only [sub_eq_zero]

/-- The sum of the products of what pairs of sources are read as. -/
def productSumBy (read : Valuation field) (pairs : List (Source field × Source field)) :
    Element field :=
  (pairs.map fun pair => pair.1.readBy read * pair.2.readBy read).sum

/-- The products in a chain are those of what the pairs are read as. -/
theorem gateSum_of_holdsAt
    {assignment : Nat → Element field}
    {base : Nat}
    {source : Source field}
    {sum : Element field}
    {pairs : List (Source field × Source field)}
    (pairsFixed : ∀ pair ∈ pairs, pair.1.Fixed ∧ pair.2.Fixed)
    (holds : Entry.AllHoldAt assignment base (productChain source sum pairs)) :
    gateSum assignment base pairs.length = productSumBy (.ofAssignment assignment) pairs := by
  induction pairs generalizing base source sum with
  | nil => simp [gateSum, productSumBy]
  | cons pair rest inductionHypothesis =>
      obtain ⟨left, right⟩ := pair
      rw [productChain_cons] at holds
      obtain ⟨-, ⟨atLeft, -⟩, ⟨atRight, -⟩, later⟩ := holds
      obtain ⟨leftFixed, rightFixed⟩ := pairsFixed (left, right) List.mem_cons_self
      have remaining := inductionHypothesis
        (fun pair member => pairsFixed pair (List.mem_cons_of_mem _ member)) later
      rw [List.length_cons, gateSum_succ, atLeft.eq_readBy leftFixed,
        atRight.eq_readBy rightFixed, remaining]
      exact List.sum_cons.symm

/-- Beginning with the first part of a pair instead of zero makes no difference to the sum. -/
theorem productStart_readBy (pairs : List (Source field × Source field)) :
    (productStart pairs).1.readBy read + productSumBy read (productStart pairs).2 =
      productSumBy read pairs := by
  unfold productStart
  split
  next left value rest =>
    split
    next isOne => simp [productSumBy, isOne]
    next => simp
  next => simp

/-- An inner product is the sum of the products of what its pairs are read as. -/
theorem innerProduct_computes
    {pairs : List (Source field × Source field)}
    (pairsFixed : ∀ pair ∈ pairs, pair.1.Fixed ∧ pair.2.Fixed) :
    Computes read (innerProduct pairs) (fun sum => read sum = productSumBy read pairs) where
  extended transcript := by
    rw [innerProduct_apply]
    exact transcript.extendedBy_lay _
  holds transcript faithful := by
    rw [innerProduct_apply] at faithful ⊢
    cases faithful with
    | handles => simp only [productSum, productSumBy, Source.readBy_handles]
    | assigned satisfied =>
        obtain ⟨startFixed, restFixed⟩ := productStart_all Source.fixed_constant pairsFixed
        obtain ⟨holds, -⟩ := satisfied.lay
        have total := productChain_last (Entry.gatesHoldAt_of_hold holds)
        rw [gateSum_of_holdsAt restFixed holds, holds.1.1.eq_readBy startFixed,
          productStart_readBy] at total
        exact total

/-- A checked bit is read as zero or one. -/
theorem assertBit_computes {bit : Cell field} (isBit : bit.value = 0 ∨ bit.value = 1) :
    Computes read (assertBit bit) (fun _ => read bit = 0 ∨ read bit = 1) where
  extended transcript := transcript.extendedBy_lay _
  holds transcript faithful := by
    cases faithful with
    | handles => exact isBit
    | @assigned assignment satisfied =>
        obtain ⟨gate, atZero, atBit, atSame, atLast⟩ := Block.gate_of_holdsAt satisfied.lay
        rw [atZero, atBit, atSame, atLast, zero_add] at gate
        have factored : assignment bit.offset * (assignment bit.offset - 1) = 0 := by
          linear_combination gate
        exact (mul_eq_zero.mp factored).imp_right sub_eq_zero.mp

theorem forM_assertBit_computes
    {bits : List (Cell field)}
    (areBits : ∀ bit ∈ bits, bit.value = 0 ∨ bit.value = 1) :
    Computes read (bits.forM assertBit) (fun _ => ∀ bit ∈ bits, read bit = 0 ∨ read bit = 1) := by
  induction bits with
  | nil => exact Computes.pure fun bit member => nomatch member
  | cons bit rest inductionHypothesis =>
      obtain ⟨isBit, areBits⟩ := List.forall_mem_cons.mp areBits
      refine (assertBit_computes isBit).bind fun _ => ?_
      exact (inductionHypothesis areBits).imp fun _ later first =>
        List.forall_mem_cons.mpr ⟨first, later⟩

end Synthesis

end Plonkish
