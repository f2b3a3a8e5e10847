import Plonkish.Gadget.GateArgument
import Plonkish.Proofs.Circuit.Bits

namespace Plonkish

/-!
# Evaluation of gadgets

What the steps that gadgets share make of their operands: quotients, bits, cut
lists, powers of a challenge, and inner products. Where a step may stop, this is
what its result means if there is one.
-/

namespace Assembly

variable {field : PrimeField} {read : Valuation field}

theorem divide_computes
    {dividend divisor : Source field}
    (dividendFixed : dividend.Fixed)
    (divisorFixed : divisor.Fixed) :
    Computes read (divide dividend divisor) (fun result =>
      divisor.readBy read ≠ 0 → read result * divisor.readBy read = dividend.readBy read) := by
  unfold divide
  split
  next => exact Computes.crash
  next => exact Computes.lift (Synthesis.quotient_computes dividendFixed divisorFixed)

theorem toBits_computes
    {cell : Cell field}
    {width : Nat}
    (fits : cell.value.value < 2 ^ width)
    (small : 2 ^ width ≤ field.modulus) :
    Computes read (toBits cell width) (fun bits =>
      (read cell).value < 2 ^ width
        ∧ bits.map read = Synthesis.bitElements (read cell) width) := by
  unfold toBits
  split
  next => exact Computes.crash
  next inRange =>
    have positive : width ≠ 0 := fun zero => inRange (.inl zero)
    exact Computes.lift (Synthesis.bits_computes positive fits small)

/-- A list is cut without a loss. -/
theorem split_computes {count : Nat} {items : List α} :
    Computes read (split count items : Assembly field _)
      (fun parts => items = parts.1 ++ parts.2 ∧ parts.1.length = count) := by
  unfold split
  split
  next parts cut => exact Computes.pure (Sizes.split?_eq_some_iff.mp cut)
  next => exact Computes.crash

/-- Only a list of the expected length passes a check. -/
theorem checkLength_computes {name : String} {expected : Nat} {cells : List (Cell field)} :
    Computes read (checkLength name expected cells) (fun _ => cells.length = expected) := by
  unfold checkLength
  split
  next counted => exact Computes.pure counted
  next => exact Computes.refuse

end Assembly

namespace Gadget

variable {field : PrimeField} {read : Valuation field}

/-- Each further cell is read with one more factor of the challenge. -/
theorem geometric_computes (challenge first : Cell field) (further : Nat) :
    Synthesis.Computes read (geometric challenge first further) (fun powers =>
      powers.map read =
        (List.range (further + 1)).map fun exponent =>
          read first * read challenge ^ exponent) := by
  induction further generalizing first with
  | zero => exact Synthesis.Computes.pure (by simp)
  | succ further inductionHypothesis =>
      refine (Synthesis.mul_computes (by simp) (by simp)).bind fun next => ?_
      refine (inductionHypothesis next).bind fun powers => ?_
      refine Synthesis.Computes.pure fun powersRead nextRead => ?_
      rw [Source.readBy_existing, Source.readBy_existing] at nextRead
      have shifted : ∀ exponent, read first * read challenge ^ (exponent + 1) =
          read next * read challenge ^ exponent := by
        intro exponent
        rw [nextRead, pow_succ', mul_assoc]
      rw [List.range_succ_eq_map, List.map_cons, List.map_cons, List.map_map, powersRead,
        pow_zero, mul_one]
      simp only [Function.comp_def, shifted]

/-- The powers of a challenge, from its zeroth power on. -/
theorem powersFromZero_computes (challenge : Cell field) (count : Nat) :
    Synthesis.Computes read (powersFromZero challenge count) (fun powers =>
      powers.map read = (List.range count).map fun exponent => read challenge ^ exponent) := by
  cases count with
  | zero => exact Synthesis.Computes.pure rfl
  | succ further =>
      refine (Synthesis.constant_computes 1).bind fun one => ?_
      refine (geometric_computes challenge one further).imp fun powers arePowers isOne => ?_
      simp only [arePowers, isOne, one_mul]

/-- The products with factors by position, where there are enough of these. -/
theorem zipWith_mul_map_range
    {count : Nat}
    {items : List (Element field)}
    (enough : items.length ≤ count)
    (factor : Nat → Element field) :
    List.zipWith (· * ·) items ((List.range count).map factor) =
      items.mapIdx fun position item => factor position * item := by
  refine List.ext_getElem (by simpa using enough) fun position _ _ => ?_
  simp [mul_comm]

section Cells

variable (left right : List (Cell field))

/-- Cells are fixed operands of an inner product. -/
theorem fixed_of_mem_zip :
    ∀ pair ∈ (left.map Source.existing).zip (right.map Source.existing),
      pair.1.Fixed ∧ pair.2.Fixed := by
  rintro ⟨_, _⟩ member
  obtain ⟨inLeft, inRight⟩ := List.of_mem_zip member
  obtain ⟨leftCell, -, rfl⟩ := List.mem_map.mp inLeft
  obtain ⟨rightCell, -, rfl⟩ := List.mem_map.mp inRight
  exact ⟨Source.fixed_existing, Source.fixed_existing⟩

theorem productSumBy_zip :
    Synthesis.productSumBy read ((left.map Source.existing).zip (right.map Source.existing)) =
      (List.zipWith (· * ·) (left.map read) (right.map read)).sum := by
  rw [Synthesis.productSumBy, List.zip_map, List.map_map]
  simp [List.zip, List.map_zipWith, List.zipWith_map]

/-- An inner product of cells is read as that of what they are read as. -/
theorem innerProductOfCells_computes :
    Synthesis.Computes read (innerProductOfCells left right) (fun sum =>
      read sum = (List.zipWith (· * ·) (left.map read) (right.map read)).sum) := by
  refine (Synthesis.innerProduct_computes (fixed_of_mem_zip left right)).imp fun sum isSum => ?_
  rw [isSum, productSumBy_zip]

end Cells

end Gadget

end Plonkish
