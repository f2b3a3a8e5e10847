import Plonkish.Proofs.Circuit.Soundness

namespace Plonkish

/-!
# Determined results

Every operation on cells lays out a block that its own values satisfy, and whose
gates leave its result only one value, so the operations are sound. Most blocks
are a single gate, in which the result is the last cell, the first one, or a
factor of the product.
-/

namespace Block

variable {field : PrimeField}
variable {first second third last : Source field}

/-- A single gate is honest if its values satisfy it. -/
theorem gate_honest (equation : first.value + second.value * third.value = last.value) :
    (Block.mk [.gated first, .plain second, .plain third, .plain last] []).Honest where
  ties_inside := by simp
  ties_forward := by simp
  ties_distinct := by simp
  gates assignment base matched := by
    simp only [Entry.AllMatchAt, Entry.gated_source, Entry.plain_source] at matched
    obtain ⟨matchesFirst, matchesSecond, matchesThird, matchesLast, _⟩ := matched
    simp [Transcript.GateHolds, matchesFirst, matchesSecond, matchesThird, matchesLast, equation]
  ties := by simp

/-- What a single gate asks, where its sources are fixed. -/
theorem gate_equation
    {assignment : Nat → Element field}
    {base : Nat}
    (gates : Entry.GatesHoldAt assignment base
      [.gated first, .plain second, .plain third, .plain last]) :
    assignment base + assignment (base + 1) * assignment (base + 2) = assignment (base + 3) :=
  gates.1 rfl

/-- The last cell of a gate is determined by the others. -/
theorem gate_determines_last
    (firstFixed : first.Fixed)
    (secondFixed : second.Fixed)
    (thirdFixed : third.Fixed)
    (equation : first.value + second.value * third.value = last.value) :
    (Block.mk [.gated first, .plain second, .plain third, .plain last] []).Determines
      3 last.value where
  recorded := ⟨_, rfl, rfl⟩
  forced assignment base fixed gates _ := by
    have matchesFirst := fixed.1 firstFixed
    have matchesSecond := fixed.2.1 secondFixed
    have matchesThird := fixed.2.2.1 thirdFixed
    rw [← gate_equation gates, matchesFirst, matchesSecond, matchesThird]
    exact equation

/-- The first cell of a gate is determined by the others. -/
theorem gate_determines_first
    (secondFixed : second.Fixed)
    (thirdFixed : third.Fixed)
    (lastFixed : last.Fixed)
    (equation : first.value + second.value * third.value = last.value) :
    (Block.mk [.gated first, .plain second, .plain third, .plain last] []).Determines
      0 first.value where
  recorded := ⟨_, rfl, rfl⟩
  forced assignment base fixed gates _ := by
    have matchesSecond := fixed.2.1 secondFixed
    have matchesThird := fixed.2.2.1 thirdFixed
    have matchesLast := fixed.2.2.2.1 lastFixed
    have holds := gate_equation gates
    simp only [Entry.plain_source] at matchesSecond matchesThird matchesLast
    rw [matchesSecond, matchesThird, matchesLast, ← equation] at holds
    exact add_right_cancel holds

/-- A factor in a gate is determined by the other cells, if the other factor is not zero. -/
theorem gate_determines_factor
    (firstFixed : first.Fixed)
    (thirdFixed : third.Fixed)
    (lastFixed : last.Fixed)
    (nonzero : third.value ≠ 0)
    (equation : first.value + second.value * third.value = last.value) :
    (Block.mk [.gated first, .plain second, .plain third, .plain last] []).Determines
      1 second.value where
  recorded := ⟨_, rfl, rfl⟩
  forced assignment base fixed gates _ := by
    have matchesFirst := fixed.1 firstFixed
    have matchesThird := fixed.2.2.1 thirdFixed
    have matchesLast := fixed.2.2.2.1 lastFixed
    have holds := gate_equation gates
    simp only [Entry.gated_source, Entry.plain_source] at matchesFirst matchesThird matchesLast
    rw [matchesFirst, matchesThird, matchesLast, ← equation] at holds
    exact mul_right_cancel₀ nonzero (add_left_cancel holds)

/-- Two gates whose first and last factors are tied, as well as the products' other cells. -/
theorem selection_honest
    {difference result : Element field}
    {set unset bit : Source field}
    (differs : difference + unset.value = set.value)
    (chooses : unset.value + bit.value * difference = result) :
    (Block.mk
      [.gated (.witness difference), .plain (.constant 1), .plain unset, .plain set,
        .gated unset, .plain bit, .plain (.witness difference), .plain (.witness result)]
      [(0, 6), (2, 4)]).Honest where
  ties_inside := by simp
  ties_forward := by simp
  ties_distinct := by simp
  gates assignment base matched := by
    simp only [Entry.AllMatchAt, Entry.gated_source, Entry.plain_source, Source.value_witness,
      Source.value_constant] at matched
    obtain ⟨atDifference, atOne, atUnset, atSet, atOther, atBit, atCopy, atResult, _⟩ := matched
    simp [Transcript.GateHolds, atDifference, atOne, atUnset, atSet, atOther, atBit, atCopy,
      atResult, differs, chooses]
  ties assignment base matched := by
    simp only [Entry.AllMatchAt, Entry.gated_source, Entry.plain_source, Source.value_witness,
      Source.value_constant] at matched
    obtain ⟨atDifference, -, atUnset, -, atOther, -, atCopy, -, _⟩ := matched
    simp [Nat.add_assoc] at atDifference atUnset atOther atCopy ⊢
    exact ⟨atDifference.trans atCopy.symm, atUnset.trans atOther.symm⟩

/-- The result of a selection is determined by the operands. -/
theorem selection_determines
    {difference result : Element field}
    {set unset bit : Source field}
    (setFixed : set.Fixed)
    (unsetFixed : unset.Fixed)
    (bitFixed : bit.Fixed)
    (differs : difference + unset.value = set.value)
    (chooses : unset.value + bit.value * difference = result) :
    (Block.mk
      [.gated (.witness difference), .plain (.constant 1), .plain unset, .plain set,
        .gated unset, .plain bit, .plain (.witness difference), .plain (.witness result)]
      [(0, 6), (2, 4)]).Determines 7 result where
  recorded := ⟨_, rfl, rfl⟩
  forced assignment base fixed gates ties := by
    simp only [Entry.AllFixedAt, Entry.gated_source, Entry.plain_source, setFixed, unsetFixed,
      bitFixed, Source.fixed_constant, Source.value_constant, forall_const] at fixed
    obtain ⟨-, atOne, atUnset, atSet, atOther, atBit, -, -, _⟩ := fixed
    simp [Transcript.GateHolds, Nat.add_assoc] at atOne atUnset atSet atOther atBit gates ties
    obtain ⟨firstGate, secondGate⟩ := gates
    rw [atOne, atUnset, atSet, one_mul, ← differs] at firstGate
    have atDifference := add_right_cancel firstGate
    rw [← secondGate, ← ties.1, atOther, atBit, atDifference]
    exact chooses

/-- The gates of a test for zero hold if the bit and the inverse are right. -/
theorem zeroTest_honest
    {bit inverse : Element field}
    {operand : Source field}
    (sumsToOne : bit + operand.value * inverse = 1)
    (vanishes : operand.value * bit = 0) :
    (Block.mk
      [.gated (.witness bit), .plain operand, .plain (.witness inverse), .plain (.constant 1),
        .gated (.constant 0), .plain operand, .plain (.witness bit), .plain (.constant 0)]
      [(0, 6)]).Honest where
  ties_inside := by simp
  ties_forward := by simp
  ties_distinct := by simp
  gates assignment base matched := by
    simp only [Entry.AllMatchAt, Entry.gated_source, Entry.plain_source, Source.value_witness,
      Source.value_constant] at matched
    obtain ⟨atBit, atOperand, atInverse, atOne, atZero, atOther, atCopy, atLast, _⟩ := matched
    simp [Transcript.GateHolds, atBit, atOperand, atInverse, atOne, atZero, atOther, atCopy,
      atLast, sumsToOne, vanishes]
  ties assignment base matched := by
    simp only [Entry.AllMatchAt, Entry.gated_source, Entry.plain_source, Source.value_witness,
      Source.value_constant] at matched
    obtain ⟨atBit, -, -, -, -, -, atCopy, -, _⟩ := matched
    simp [Nat.add_assoc] at atBit atCopy ⊢
    exact atBit.trans atCopy.symm

/--
The bit of a test for zero is determined by the operand.

For an operand that is not zero it is the second gate that leaves one bit, and
for zero it is the first one; the inverse matters to neither.
-/
theorem zeroTest_determines
    {bit inverse : Element field}
    {operand : Source field}
    (operandFixed : operand.Fixed)
    (sumsToOne : bit + operand.value * inverse = 1)
    (vanishes : operand.value * bit = 0) :
    (Block.mk
      [.gated (.witness bit), .plain operand, .plain (.witness inverse), .plain (.constant 1),
        .gated (.constant 0), .plain operand, .plain (.witness bit), .plain (.constant 0)]
      [(0, 6)]).Determines 6 bit where
  recorded := ⟨_, rfl, rfl⟩
  forced assignment base fixed gates ties := by
    simp only [Entry.AllFixedAt, Entry.gated_source, Entry.plain_source, operandFixed,
      Source.fixed_constant, Source.value_constant, forall_const] at fixed
    obtain ⟨-, atOperand, -, atOne, atZero, atOther, -, atLast, _⟩ := fixed
    simp [Transcript.GateHolds, Nat.add_assoc] at atOperand atOne atZero atOther atLast gates ties
    obtain ⟨firstGate, secondGate⟩ := gates
    rw [atOperand, atOne, ties] at firstGate
    rw [atZero, atOther, atLast, zero_add] at secondGate
    by_cases zero : operand.value = 0
    · rw [zero, zero_mul, add_zero] at firstGate sumsToOne
      exact firstGate.trans sumsToOne.symm
    · have noBit := (mul_eq_zero.mp vanishes).resolve_left zero
      exact ((mul_eq_zero.mp secondGate).resolve_left zero).trans noBit.symm

end Block

namespace Synthesis

variable {field : PrimeField} {known : Set (Cell field)}

theorem constant_sound (value : Element field) : Sound known (constant value) ({·}) := by
  refine Sound.determinedFirst (Block.single_honest _) ⟨⟨_, rfl, rfl⟩, ?_⟩ ?_
  · intro assignment base fixed _ _
    exact fixed.1 Source.fixed_constant
  · simp

variable {left right : Source field}

theorem add_sound (leftKnown : left.KnownTo known) (rightKnown : right.KnownTo known) :
    Sound known (add left right) ({·}) := by
  have equation : left.value + right.value * 1 = left.value + right.value := by
    rw [mul_one]
  refine Sound.determined (Block.gate_honest equation)
    (Block.gate_determines_last leftKnown.fixed rightKnown.fixed Source.fixed_constant equation) ?_
  simpa using ⟨fun _ => leftKnown.mem, fun _ => rightKnown.mem⟩

theorem sub_sound (leftKnown : left.KnownTo known) (rightKnown : right.KnownTo known) :
    Sound known (sub left right) ({·}) := by
  have equation : left.value - right.value + right.value * 1 = left.value := by
    ring
  refine Sound.determinedFirst (Block.gate_honest equation)
    (Block.gate_determines_first rightKnown.fixed Source.fixed_constant leftKnown.fixed equation) ?_
  simpa using ⟨fun _ => rightKnown.mem, fun _ => leftKnown.mem⟩

theorem neg_sound (operandKnown : left.KnownTo known) : Sound known (neg left) ({·}) := by
  have equation : left.value + -left.value * 1 = 0 := by
    ring
  refine Sound.determined (Block.gate_honest equation)
    (Block.gate_determines_factor operandKnown.fixed Source.fixed_constant Source.fixed_constant
      one_ne_zero equation) ?_
  simpa using fun _ => operandKnown.mem

theorem mul_sound (leftKnown : left.KnownTo known) (rightKnown : right.KnownTo known) :
    Sound known (mul left right) ({·}) := by
  have equation : 0 + left.value * right.value = left.value * right.value := by
    rw [zero_add]
  refine Sound.determined (Block.gate_honest equation)
    (Block.gate_determines_last Source.fixed_constant leftKnown.fixed rightKnown.fixed equation) ?_
  simpa using ⟨fun _ => leftKnown.mem, fun _ => rightKnown.mem⟩

theorem mulAdd_sound
    {addend : Source field}
    (leftKnown : left.KnownTo known)
    (rightKnown : right.KnownTo known)
    (addendKnown : addend.KnownTo known) :
    Sound known (mulAdd left right addend) ({·}) := by
  have equation : addend.value + left.value * right.value =
      left.value * right.value + addend.value := by
    rw [add_comm]
  refine Sound.determined (Block.gate_honest equation)
    (Block.gate_determines_last addendKnown.fixed leftKnown.fixed rightKnown.fixed equation) ?_
  simpa using ⟨fun _ => addendKnown.mem, fun _ => leftKnown.mem, fun _ => rightKnown.mem⟩

theorem not_sound (bitKnown : left.KnownTo known) : Sound known (not left) ({·}) :=
  sub_sound trivial bitKnown

theorem and_sound (leftKnown : left.KnownTo known) (rightKnown : right.KnownTo known) :
    Sound known (and left right) ({·}) :=
  mul_sound leftKnown rightKnown

/-- A quotient by a divisor that is not zero is settled. -/
theorem quotient_sound
    (leftKnown : left.KnownTo known)
    (rightKnown : right.KnownTo known)
    (nonzero : right.value ≠ 0) :
    Sound known (quotient left right) ({·}) := by
  have equation : 0 + left.value.divide right.value * right.value = left.value := by
    rw [zero_add, Element.divide_mul_cancel left.value nonzero]
  refine Sound.determined (Block.gate_honest equation)
    (Block.gate_determines_factor Source.fixed_constant rightKnown.fixed leftKnown.fixed
      nonzero equation) ?_
  simpa using ⟨fun _ => rightKnown.mem, fun _ => leftKnown.mem⟩

/-- A cell with a bit passes the check that it is one. -/
theorem assertBit_honest {bit : Cell field} (isBit : bit.value = 0 ∨ bit.value = 1) :
    (Block.mk
      [.gated (.constant 0), .plain (.existing bit), .plain (.existing bit),
        .plain (.existing bit)]
      []).Honest := by
  have equation : 0 + bit.value * bit.value = bit.value := by
    rcases isBit with zero | one
    · rw [zero, mul_zero, add_zero]
    · rw [one, mul_one, zero_add]
  exact Block.gate_honest equation

theorem select_sound
    {bit : Source field}
    (leftKnown : left.KnownTo known)
    (rightKnown : right.KnownTo known)
    (bitKnown : bit.KnownTo known) :
    Sound known (select left right bit) ({·}) := by
  have differs : left.value - right.value + right.value = left.value := sub_add_cancel _ _
  have chooses : right.value + bit.value * (left.value - right.value) =
      (left.value - right.value) * bit.value + right.value := by
    ring
  refine Sound.determined (Block.selection_honest differs chooses)
    (Block.selection_determines leftKnown.fixed rightKnown.fixed bitKnown.fixed differs chooses) ?_
  simpa using ⟨fun _ => rightKnown.mem, fun _ => leftKnown.mem, fun _ => rightKnown.mem,
    fun _ => bitKnown.mem⟩

/-- The disjunction of two bits is settled: it selects between one and the other bit. -/
theorem or_sound (leftKnown : left.KnownTo known) (rightKnown : right.KnownTo known) :
    Sound known (or left right) ({·}) := by
  have differs : 1 - right.value + right.value = (Source.constant 1).value :=
    sub_add_cancel _ _
  have chooses : right.value + left.value * (1 - right.value) =
      left.value + right.value - left.value * right.value := by
    ring
  refine Sound.determined (Block.selection_honest differs chooses)
    (Block.selection_determines Source.fixed_constant rightKnown.fixed leftKnown.fixed
      differs chooses) ?_
  simpa using ⟨fun _ => rightKnown.mem, fun _ => leftKnown.mem⟩

/-- Whether an operand is zero is settled, although the inverse is the prover's choice. -/
theorem isZero_sound (operandKnown : left.KnownTo known) : Sound known (isZero left) ({·}) := by
  by_cases zero : left.value = 0
  · simp only [isZero, zero, ↓reduceIte]
    exact Sound.determined (Block.zeroTest_honest (by simp [zero]) (by simp [zero]))
      (Block.zeroTest_determines operandKnown.fixed (by simp [zero]) (by simp [zero]))
      (by simpa using fun _ => operandKnown.mem)
  · have cancels := Element.mul_inverse_cancel zero
    simp only [isZero, zero, ↓reduceIte]
    exact Sound.determined (Block.zeroTest_honest (by simp [cancels]) (by simp))
      (Block.zeroTest_determines operandKnown.fixed (by simp [cancels]) (by simp))
      (by simpa using fun _ => operandKnown.mem)

theorem isEqual_sound (leftKnown : left.KnownTo known) (rightKnown : right.KnownTo known) :
    Sound known (isEqual left right) ({·}) := by
  refine (sub_sound leftKnown rightKnown).bind fun difference => ?_
  exact isZero_sound (by simp)

end Synthesis

end Plonkish
