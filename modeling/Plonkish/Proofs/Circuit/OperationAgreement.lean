import Plonkish.Proofs.Circuit.Agreement

namespace Plonkish

/-!
# Agreeing operations

Every operation on cells lays out a block whose shape depends on how its
operands are given, and never on what they hold: which cells get a gate, which
constants are fixed and which cells are tied are the same for all values.
-/

variable {field : PrimeField} {aligned : Prop}

/-- Two lists of cells agree one by one. -/
abbrev Cell.AllAgree (aligned : Prop) (left right : List (Cell field)) : Prop :=
  List.Forall₂ (Cell.Agrees aligned) left right

/-- Two pairs of operands agree part by part. -/
def Source.PairAgrees (aligned : Prop) (left right : Source field × Source field) : Prop :=
  left.1.Agrees aligned right.1 ∧ left.2.Agrees aligned right.2

/-- Pairs agree if their parts do. -/
theorem Source.pairAgrees_zip
    {firsts otherFirsts seconds otherSeconds : List (Source field)}
    (firstsAgree : List.Forall₂ (Source.Agrees aligned) firsts otherFirsts)
    (secondsAgree : List.Forall₂ (Source.Agrees aligned) seconds otherSeconds) :
    List.Forall₂ (Source.PairAgrees aligned) (firsts.zip seconds)
      (otherFirsts.zip otherSeconds) := by
  induction firstsAgree generalizing seconds otherSeconds with
  | nil => exact .nil
  | cons head _ inductionHypothesis =>
      cases secondsAgree with
      | nil => exact .nil
      | cons second rest => exact .cons ⟨head, second⟩ (inductionHypothesis rest)

/-- Agreeing cells are agreeing operands. -/
theorem Cell.AllAgree.sources
    {left right : List (Cell field)}
    (agree : Cell.AllAgree aligned left right) :
    List.Forall₂ (Source.Agrees aligned) (left.map Source.existing)
      (right.map Source.existing) := by
  rw [List.forall₂_map_left_iff, List.forall₂_map_right_iff]
  exact agree

namespace Synthesis

variable {left otherLeft right otherRight third otherThird : Source field}

/-- A constant is the same in both runs. -/
theorem constant_alike (value : Element field) :
    Alike aligned (constant value) (constant value) (Cell.Agrees aligned) :=
  .placedFirst (by simp)

theorem add_alike
    (lefts : left.Agrees aligned otherLeft)
    (rights : right.Agrees aligned otherRight) :
    Alike aligned (add left right) (add otherLeft otherRight) (Cell.Agrees aligned) :=
  .placed (by simp [lefts, rights]) rfl

theorem sub_alike
    (lefts : left.Agrees aligned otherLeft)
    (rights : right.Agrees aligned otherRight) :
    Alike aligned (sub left right) (sub otherLeft otherRight) (Cell.Agrees aligned) :=
  .placedFirst (by simp [lefts, rights])

theorem neg_alike (operands : left.Agrees aligned otherLeft) :
    Alike aligned (neg left) (neg otherLeft) (Cell.Agrees aligned) :=
  .placed (by simp [operands]) rfl

theorem mul_alike
    (lefts : left.Agrees aligned otherLeft)
    (rights : right.Agrees aligned otherRight) :
    Alike aligned (mul left right) (mul otherLeft otherRight) (Cell.Agrees aligned) :=
  .placed (by simp [lefts, rights]) rfl

theorem mulAdd_alike
    (lefts : left.Agrees aligned otherLeft)
    (rights : right.Agrees aligned otherRight)
    (addends : third.Agrees aligned otherThird) :
    Alike aligned (mulAdd left right third) (mulAdd otherLeft otherRight otherThird)
      (Cell.Agrees aligned) :=
  .placed (by simp [lefts, rights, addends]) rfl

/-- The negation is laid out alike, since it is a difference. -/
theorem not_alike (bits : left.Agrees aligned otherLeft) :
    Alike aligned (not left) (not otherLeft) (Cell.Agrees aligned) :=
  sub_alike (Source.agrees_constant.mpr rfl) bits

/-- The conjunction is laid out alike, since it is a product. -/
theorem and_alike
    (lefts : left.Agrees aligned otherLeft)
    (rights : right.Agrees aligned otherRight) :
    Alike aligned (and left right) (and otherLeft otherRight) (Cell.Agrees aligned) :=
  mul_alike lefts rights

/-- The disjunction is laid out alike, and ties the same of its own cells. -/
theorem or_alike
    (lefts : left.Agrees aligned otherLeft)
    (rights : right.Agrees aligned otherRight) :
    Alike aligned (or left right) (or otherLeft otherRight) (Cell.Agrees aligned) :=
  .placed (by simp [lefts, rights]) rfl

/-- A choice is laid out alike, whichever operand is chosen. -/
theorem select_alike
    (sets : left.Agrees aligned otherLeft)
    (unsets : right.Agrees aligned otherRight)
    (bits : third.Agrees aligned otherThird) :
    Alike aligned (select left right third) (select otherLeft otherRight otherThird)
      (Cell.Agrees aligned) :=
  .placed (by simp [sets, unsets, bits]) rfl

/-- The bit and the inverse depend on whether the operand is zero; the block does not. -/
theorem isZero_alike (operands : left.Agrees aligned otherLeft) :
    Alike aligned (isZero left) (isZero otherLeft) (Cell.Agrees aligned) :=
  .placed (by simp [operands]) rfl

/-- A test for equality is laid out alike, whatever its outcome. -/
theorem isEqual_alike
    (lefts : left.Agrees aligned otherLeft)
    (rights : right.Agrees aligned otherRight) :
    Alike aligned (isEqual left right) (isEqual otherLeft otherRight) (Cell.Agrees aligned) := by
  apply (sub_alike lefts rights).bind
  intro difference otherDifference differences
  exact isZero_alike differences.source

/-- A quotient is laid out alike. -/
theorem quotient_alike
    (dividends : left.Agrees aligned otherLeft)
    (divisors : right.Agrees aligned otherRight) :
    Alike aligned (quotient left right) (quotient otherLeft otherRight)
      (Cell.Agrees aligned) :=
  .placed (by simp [dividends, divisors]) rfl

/-- A check that a cell is a bit has no result. -/
theorem assertBit_alike {bit otherBit : Cell field} (bits : bit.Agrees aligned otherBit) :
    Alike aligned (assertBit bit) (assertBit otherBit) (fun _ _ => True) := by
  unfold assertBit
  apply (Alike.lay _).bind
  · intro _ _ _
    exact Alike.pure trivial
  · simp [bits]

/-- A copy between agreeing cells is the same in aligned runs. -/
theorem equate_alike
    {first otherFirst second otherSecond : Cell field}
    (firsts : first.Agrees aligned otherFirst)
    (seconds : second.Agrees aligned otherSecond) :
    Alike aligned (equate first second) (equate otherFirst otherSecond) (fun _ _ => True) :=
  fun _ _ agrees => ⟨trivial, agrees.tie firsts seconds⟩

/-- Exposed values are laid out at the same offsets, whether runs are aligned or not. -/
theorem witnesses_alike
    {values otherValues : List (Element field)}
    (lengths : values.length = otherValues.length) :
    Alike aligned (witnesses values) (witnesses otherValues) (Cell.AllAgree True) := by
  unfold witnesses
  induction values generalizing otherValues with
  | nil =>
      obtain rfl : otherValues = [] := List.eq_nil_of_length_eq_zero lengths.symm
      exact Alike.pure .nil
  | cons value rest inductionHypothesis =>
      cases otherValues with
      | nil => cases lengths
      | cons otherValue otherRest =>
          rw [List.mapM_cons, List.mapM_cons]
          have first : Alike aligned (witness value) (witness otherValue) (Cell.Agrees True) := by
            apply (Alike.lay (by simp)).bind
            intro base otherBase bases
            exact Alike.pure fun _ => bases
          apply first.bind
          intro cell otherCell cells
          apply (inductionHypothesis (Nat.succ.inj lengths)).bind
          intro restCells otherRestCells restAgree
          exact Alike.pure (.cons cells restAgree)

/-! ## Inner products -/

variable {pairs otherPairs : List (Source field × Source field)}

/-- Of two lists that agree one by one, both or none are empty. -/
theorem isEmpty_eq_of_forall₂
    {related : α → β → Prop}
    {items : List α}
    {others : List β}
    (agree : List.Forall₂ related items others) :
    items.isEmpty = others.isEmpty := by
  cases agree <;> rfl

/-- The sums differ with the values; which cells start a gate does not. -/
theorem productEntries_agree
    (agree : List.Forall₂ (Source.PairAgrees aligned) pairs otherPairs)
    (sum otherSum : Element field) :
    List.Forall₂ (Entry.Agrees aligned) (productEntries sum pairs)
      (productEntries otherSum otherPairs) := by
  induction agree generalizing sum otherSum with
  | nil => exact .nil
  | @cons pair otherPair rest otherRest head tail inductionHypothesis =>
      have gates : rest.isEmpty = otherRest.isEmpty := isEmpty_eq_of_forall₂ tail
      unfold productEntries
      refine .cons (Entry.agrees_plain.mpr head.1) (.cons (Entry.agrees_plain.mpr head.2) ?_)
      refine .cons ⟨Source.agrees_witness, ?_⟩ (inductionHypothesis _ _)
      exact congrArg (!·) gates

/-- Whether the first pair is taken over depends on constants only. -/
theorem productStart_agree (agree : List.Forall₂ (Source.PairAgrees aligned) pairs otherPairs) :
    (productStart pairs).1.Agrees aligned (productStart otherPairs).1
      ∧ List.Forall₂ (Source.PairAgrees aligned) (productStart pairs).2
        (productStart otherPairs).2 := by
  have zeros : (Source.constant (0 : Element field)).Agrees aligned (.constant 0) := rfl
  cases agree with
  | nil => exact ⟨zeros, .nil⟩
  | @cons pair otherPair rest otherRest head tail =>
      obtain ⟨first, second⟩ := pair
      obtain ⟨otherFirst, otherSecond⟩ := otherPair
      obtain ⟨firsts, seconds⟩ := head
      cases second with
      | existing cell =>
          cases otherSecond with
          | existing otherCell => exact ⟨zeros, .cons ⟨firsts, seconds⟩ tail⟩
          | witness value => exact seconds.elim
          | constant value => exact seconds.elim
      | witness value =>
          cases otherSecond with
          | existing otherCell => exact seconds.elim
          | witness otherValue => exact ⟨zeros, .cons ⟨firsts, seconds⟩ tail⟩
          | constant otherValue => exact seconds.elim
      | constant value =>
          cases otherSecond with
          | existing otherCell => exact seconds.elim
          | witness otherValue => exact seconds.elim
          | constant otherValue =>
              obtain rfl : value = otherValue := seconds
              unfold productStart
              by_cases isOne : value = 1
              · simp only [isOne, ↓reduceIte]
                exact ⟨firsts, tail⟩
              · simp only [isOne, ↓reduceIte]
                exact ⟨zeros, .cons ⟨firsts, rfl⟩ tail⟩

/-- An inner product is laid out alike if its pairs are given alike. -/
theorem innerProduct_alike (agree : List.Forall₂ (Source.PairAgrees aligned) pairs otherPairs) :
    Alike aligned (innerProduct pairs) (innerProduct otherPairs) (Cell.Agrees aligned) := by
  obtain ⟨starts, rests⟩ := productStart_agree agree
  unfold innerProduct
  generalize productStart pairs = begun at starts rests
  generalize productStart otherPairs = otherBegun at starts rests
  obtain ⟨start, rest⟩ := begun
  obtain ⟨otherStart, otherRest⟩ := otherBegun
  have gates : rest.isEmpty = otherRest.isEmpty := isEmpty_eq_of_forall₂ rests
  have first : (Entry.mk start (!rest.isEmpty)).Agrees aligned
      (Entry.mk otherStart (!otherRest.isEmpty)) :=
    ⟨starts, congrArg (!·) gates⟩
  apply Alike.placed (.cons first (productEntries_agree rests _ _))
  rw [rests.length_eq]

/-! ## Bits -/

/-- Agreeing transcripts have the same size. -/
theorem get_alike :
    Alike aligned (get : Synthesis field (Transcript field)) get
      (fun first second => first.size = second.size) :=
  fun _ _ agrees => ⟨agrees.size_eq, agrees⟩

/-- The same is done for cells that agree one by one. -/
theorem forM_alike
    {check : Cell field → Synthesis field Unit}
    (alike : ∀ cell otherCell : Cell field, cell.Agrees aligned otherCell →
      Alike aligned (check cell) (check otherCell) (fun _ _ => True))
    {cells otherCells : List (Cell field)}
    (agree : Cell.AllAgree aligned cells otherCells) :
    Alike aligned (cells.forM check) (otherCells.forM check) (fun _ _ => True) := by
  induction agree with
  | nil => exact Alike.pure trivial
  | cons head _ inductionHypothesis =>
      apply (alike _ _ head).bind
      intro _ _ _
      exact inductionHypothesis

/-- Where the bits of a value are laid out does not depend on the bits. -/
theorem bits_alike
    {cell otherCell : Cell field}
    (cells : cell.Agrees aligned otherCell)
    (width : Nat) :
    Alike aligned (bits cell width) (bits otherCell width) (Cell.AllAgree aligned) := by
  have lengths : (bitElements cell.value width).length =
      (bitElements otherCell.value width).length := by
    simp [bitElements]
  have elementsAgree : List.Forall₂ (Source.Agrees aligned)
      ((bitElements cell.value width).map Source.witness)
      ((bitElements otherCell.value width).map Source.witness) := by
    rw [List.forall₂_map_left_iff, List.forall₂_map_right_iff, List.forall₂_iff_zip]
    exact ⟨lengths, fun _ => trivial⟩
  have powersAgree : List.Forall₂ (Source.Agrees aligned)
      ((powersOfTwo field width).map Source.constant)
      ((powersOfTwo field width).map Source.constant) :=
    List.forall₂_same.mpr fun source member => by
      obtain ⟨power, -, rfl⟩ := List.mem_map.mp member
      exact Source.agrees_constant.mpr rfl
  unfold bits
  apply get_alike.bind
  intro transcript otherTranscript sizes
  apply (innerProduct_alike (Source.pairAgrees_zip elementsAgree powersAgree)).bind
  intro sum otherSum sums
  apply (equate_alike cells sums).bind
  intro _ _ _
  have bitsAgree : Cell.AllAgree aligned
      ((bitElements cell.value width).mapIdx fun index element =>
        Cell.mk (transcript.size + bitPosition index) element)
      ((bitElements otherCell.value width).mapIdx fun index element =>
        Cell.mk (otherTranscript.size + bitPosition index) element) := by
    rw [Cell.AllAgree, List.forall₂_iff_get]
    refine ⟨by simp [lengths], fun index _ _ _ => ?_⟩
    simp [sizes]
  apply (forM_alike (fun _ _ same => assertBit_alike same) bitsAgree).bind
  intro _ _ _
  exact Alike.pure bitsAgree

end Synthesis

end Plonkish
