import Plonkish.Proofs.Circuit.OperationEvaluation

namespace Plonkish

/-!
# Bits

A value is taken apart by an inner product of bits of the prover's choice with
the powers of two, which is tied to the value, and each bit is checked to be
one. If the bits are too few for their value to reach the modulus, the value
leaves no choice, so the bits are settled.
-/

namespace Element

variable {field : PrimeField}

/-- Numbers below the modulus are equal if they are equal as elements. -/
theorem natCast_injective_below
    {left right : Nat}
    (leftSmall : left < field.modulus)
    (rightSmall : right < field.modulus)
    (same : (left : Element field) = (right : Element field)) :
    left = right := by
  have values := congrArg Element.value same
  rwa [value_natCast leftSmall, value_natCast rightSmall] at values

end Element

namespace Synthesis

variable {field : PrimeField}

theorem bitElement_eq_natCast (set : Bool) :
    (bitElement set : Element field) = (set.toNat : Element field) := by
  cases set with
  | false => simp [bitElement]
  | true => simp [bitElement]

theorem bitElement_isBit (set : Bool) :
    (bitElement set : Element field) = 0 ∨ (bitElement set : Element field) = 1 := by
  cases set with
  | false => exact .inl rfl
  | true => exact .inr rfl

/-- An element that is zero or one is that of the bit which tells whether it is one. -/
theorem eq_bitElement
    {element : Element field}
    (isBit : element = 0 ∨ element = 1) :
    element = bitElement (decide (element = 1)) := by
  rcases isBit with rfl | rfl
  · simp [bitElement]
  · simp [bitElement]

/-- A number is the sum of its bits times the powers of two. -/
theorem natCast_ofBits {count : Nat} (bits : Fin count → Bool) :
    ((Nat.ofBits bits : Nat) : Element field) =
      ∑ index : Fin count, bitElement (bits index) * Element.ofNat field (2 ^ index.val) := by
  induction count with
  | zero => simp
  | succ count inductionHypothesis =>
      rw [Nat.ofBits_succ, Fin.sum_univ_succ, Nat.cast_add, Nat.cast_mul, inductionHypothesis,
        Finset.mul_sum, add_comm]
      simp only [Function.comp_apply, bitElement_eq_natCast, Element.ofNat_eq_natCast,
        Fin.val_zero, Fin.val_succ, pow_zero, Nat.cast_one, mul_one]
      congr 1
      refine Finset.sum_congr rfl fun index _ => ?_
      push_cast
      ring

/-- A bit of a value with a power of two. -/
def bitPair (value : Element field) (index : Nat) : Source field × Source field :=
  (.witness (bitElement (value.value.testBit index)),
    .constant (Element.ofNat field (2 ^ index)))

/-- The pairs whose products add up to a value. -/
theorem zip_bitElements (value : Element field) (width : Nat) :
    ((bitElements value width).map Source.witness).zip
        ((powersOfTwo field width).map Source.constant) =
      (List.range width).map (bitPair value) := by
  simp only [bitElements, powersOfTwo, Nat.one_shiftLeft, List.map_map]
  rw [List.zip_map', List.map_inj_left]
  intro index _
  rfl

/-- The first bit is the first cell, and the others are factors. -/
theorem productStart_bitPairs (value : Element field) (width : Nat) :
    productStart ((List.range (width + 1)).map (bitPair value)) =
      (.witness (bitElement (value.value.testBit 0)),
        (List.range width).map fun index => bitPair value (index + 1)) := by
  have one : Element.ofNat field (2 ^ 0) = 1 := rfl
  rw [List.range_succ_eq_map, List.map_cons, List.map_map]
  simp only [bitPair, productStart, one, ↓reduceIte]
  rfl

/-- The products of the bits of a value with the powers of two add up to the value. -/
theorem productSum_bitPairs
    {value : Element field}
    {width : Nat}
    (fits : value.value < 2 ^ width) :
    productSum ((List.range width).map (bitPair value)) = value := by
  have whole : Nat.ofBits (fun index : Fin width => value.value.testBit index) = value.value := by
    rw [Nat.ofBits_testBit, Nat.mod_eq_of_lt fits]
  have summed : ((Nat.ofBits fun index : Fin width => value.value.testBit index : Nat) :
      Element field) = _ := natCast_ofBits _
  rw [whole, Element.natCast_value] at summed
  have ranged : productSum ((List.range width).map (bitPair value)) =
      ∑ index ∈ Finset.range width,
        bitElement (value.value.testBit index) * Element.ofNat field (2 ^ index) := by
    rw [productSum, List.map_map]
    rfl
  rw [ranged, Finset.sum_range]
  exact summed.symm

/-- The cell of a bit after the first one is the first factor of its pair. -/
theorem bitPosition_succ (base index : Nat) :
    base + bitPosition (index + 1) = base + 3 * index + 1 := by
  unfold bitPosition
  omega

/-- What an assignment gives to the cells of the bits adds up to what it gives to the sum. -/
theorem sum_bitPositions
    {assignment : Nat → Element field}
    {base width : Nat}
    {value sum : Element field}
    {source : Source field}
    (fixed : Entry.AllFixedAt assignment base
      (productChain source sum ((List.range width).map fun index => bitPair value (index + 1))))
    (gates : Entry.GatesHoldAt assignment base
      (productChain source sum ((List.range width).map fun index => bitPair value (index + 1)))) :
    assignment (base + 3 * width) =
      ∑ index : Fin (width + 1),
        assignment (base + bitPosition index) * Element.ofNat field (2 ^ index.val) := by
  have last := productChain_last gates
  rw [List.length_map, List.length_range, gateSum, Finset.sum_range] at last
  have first : assignment (base + bitPosition 0) * Element.ofNat field (2 ^ 0) =
      assignment base := by
    rw [pow_zero, Element.ofNat_eq_natCast, Nat.cast_one, mul_one]
    rfl
  rw [last, Fin.sum_univ_succ, Fin.val_zero, first]
  congr 1
  refine Finset.sum_congr rfl fun index _ => ?_
  have present : ((List.range width).map fun index => bitPair value (index + 1))[index.val]? =
      some (bitPair value (index + 1)) := by
    simp
  rw [Fin.val_succ, bitPosition_succ, right_of_fixed fixed present Source.fixed_constant]
  rfl

/-- Checking recorded bits keeps a transcript consistent. -/
theorem consistent_forM_assertBit
    {transcript : Transcript field}
    {bits : List (Cell field)}
    (consistent : transcript.Consistent)
    (recorded : ∀ bit ∈ bits, transcript.Records bit)
    (areBits : ∀ bit ∈ bits, bit.value = 0 ∨ bit.value = 1) :
    (bits.forM assertBit transcript).2.Consistent := by
  induction bits generalizing transcript with
  | nil => exact consistent
  | cons bit rest inductionHypothesis =>
      obtain ⟨bitRecorded, restRecorded⟩ := List.forall_mem_cons.mp recorded
      obtain ⟨isBit, areBits⟩ := List.forall_mem_cons.mp areBits
      have extended : transcript.ExtendedBy (assertBit bit transcript).2 :=
        transcript.extendedBy_lay _
      have checked : (assertBit bit transcript).2.Consistent :=
        consistent.lay (assertBit_honest isBit) (by simpa using bitRecorded)
      exact inductionHypothesis checked
        (fun later member => extended.value_eq (restRecorded later member)) areBits

/-- A tie between recorded cells of one value that are not tied keeps a transcript consistent. -/
theorem consistent_tie
    {transcript : Transcript field}
    (consistent : transcript.Consistent)
    {left right : Cell field}
    (leftRecorded : transcript.Records left)
    (rightRecorded : transcript.Records right)
    (same : left.value = right.value)
    (forward : left.offset < right.offset)
    (fresh : (left.offset, right.offset) ∉ transcript.pairs) :
    (transcript.tie left.offset right.offset).Consistent where
  inside := consistent.inside.tie leftRecorded.offset_lt rightRecorded.offset_lt
  tidy := consistent.tidy.tie forward rightRecorded.offset_lt fresh
  satisfied assignment matched := by
    refine Transcript.satisfiedBy_tie.mpr ⟨consistent.satisfied assignment matched, ?_⟩
    rw [matched _ _ leftRecorded, matched _ _ rightRecorded, same]

/-- Values that are zero or one and add up to a value, times the powers of two, are its bits. -/
theorem bits_of_sum
    {width : Nat}
    (small : 2 ^ width ≤ field.modulus)
    {value : Element field}
    {bits : Nat → Element field}
    (areBits : ∀ index < width, bits index = 0 ∨ bits index = 1)
    (total : ∑ index : Fin width, bits index * Element.ofNat field (2 ^ index.val) = value) :
    value.value < 2 ^ width
      ∧ ∀ index < width, bits index = bitElement (value.value.testBit index) := by
  let flags : Fin width → Bool := fun index => decide (bits index = 1)
  have flagged : ∀ index : Fin width, bits index = bitElement (flags index) :=
    fun index => eq_bitElement (areBits index index.isLt)
  -- The sum stays below the modulus, so it is the value as a number as well.
  have numbers : Nat.ofBits flags = value.value := by
    refine Element.natCast_injective_below
      ((Nat.ofBits_lt_two_pow flags).trans_le small) value.value_lt ?_
    rw [natCast_ofBits, Element.natCast_value, ← total]
    exact Finset.sum_congr rfl fun index _ => by rw [flagged index]
  refine ⟨numbers ▸ Nat.ofBits_lt_two_pow flags, fun index inside => ?_⟩
  rw [← numbers, Nat.testBit_ofBits_lt flags index inside]
  exact flagged ⟨index, inside⟩

/-- The block of the inner product of the bits of a value, of which there is one more. -/
def bitBlock (value : Element field) (width : Nat) : Block field where
  entries :=
    productChain (.witness (bitElement (value.value.testBit 0)))
      (bitElement (value.value.testBit 0))
      ((List.range width).map fun index => bitPair value (index + 1))
  ties := []

/-- The cells of the bits of a value, where their inner product was laid at an offset. -/
def bitCells (base : Nat) (value : Element field) (width : Nat) : List (Cell field) :=
  (bitElements value width).mapIdx fun index element => Cell.mk (base + bitPosition index) element

theorem mem_bitCells_iff
    {base width : Nat}
    {value : Element field}
    {bit : Cell field} :
    bit ∈ bitCells base value width ↔
      ∃ index < width,
        bit = ⟨base + bitPosition index, bitElement (value.value.testBit index)⟩ := by
  simp only [bitCells, bitElements, List.mem_mapIdx, List.length_map, List.length_range,
    List.getElem_map, List.getElem_range]
  constructor
  · rintro ⟨index, inside, rfl⟩
    exact ⟨index, inside, rfl⟩
  · rintro ⟨index, inside, rfl⟩
    exact ⟨index, inside, rfl⟩

/-- The cells of the bits are recorded by the block of their inner product. -/
theorem bitBlock_getElem?
    (value : Element field)
    {index width : Nat}
    (inside : index < width + 1) :
    ∃ gate, (bitBlock value width).entries[bitPosition index]? =
      some ⟨.witness (bitElement (value.value.testBit index)), gate⟩ := by
  cases index with
  | zero => exact ⟨_, rfl⟩
  | succ index =>
      have position : bitPosition (index + 1) = 3 * index + 1 := by
        unfold bitPosition
        omega
      have present : ((List.range width).map fun index => bitPair value (index + 1))[index]? =
          some (bitPair value (index + 1)) := by
        have insideRest : index < width := by omega
        simp [insideRest]
      rw [position]
      exact ⟨false, productChain_left present⟩

/-- No cell of the block of bits is tied to an earlier one. -/
theorem bitBlock_sources
    {value : Element field}
    {width : Nat}
    {entry : Entry field}
    (member : entry ∈ (bitBlock value width).entries)
    {cell : Cell field} :
    entry.source ≠ .existing cell := by
  intro existing
  rcases mem_productChain member existing with start | ⟨pair, member, tied⟩
  · cases start
  · obtain ⟨index, -, rfl⟩ := List.mem_map.mp member
    rcases tied with left | right
    · cases left
    · cases right

/-- The inner product of the bits of a value, of which there is one more, tied to the value. -/
def tiedBits (transcript : Transcript field) (cell : Cell field) (width : Nat) :
    Transcript field :=
  (transcript.lay (bitBlock cell.value width)).tie cell.offset (transcript.size + 3 * width)

/-- What taking a value apart lays out, and which cells it gives. -/
theorem bits_apply (cell : Cell field) (width : Nat) (transcript : Transcript field) :
    bits cell (width + 1) transcript =
      (bitCells transcript.size cell.value (width + 1),
        ((bitCells transcript.size cell.value (width + 1)).forM assertBit
          (tiedBits transcript cell width)).2) := by
  have laid : innerProduct ((List.range (width + 1)).map (bitPair cell.value)) transcript =
      (⟨transcript.size + 3 * width,
          productSum ((List.range (width + 1)).map (bitPair cell.value))⟩,
        transcript.lay (bitBlock cell.value width)) := by
    rw [innerProduct_apply, productStart_bitPairs, List.length_map, List.length_range]
    rfl
  unfold bits
  simp only [zip_bitElements]
  have start : (get : Synthesis field (Transcript field)) transcript =
      (transcript, transcript) := rfl
  rw [bind_apply, bind_apply, start, laid]
  rfl

theorem bitBlock_honest (value : Element field) (width : Nat) : (bitBlock value width).Honest :=
  innerProduct_honest _ _

section

variable {transcript : Transcript field} {cell : Cell field} {width : Nat}

theorem records_bitCells
    (transcript : Transcript field)
    {bit : Cell field}
    (member : bit ∈ bitCells transcript.size cell.value (width + 1)) :
    (transcript.lay (bitBlock cell.value width)).Records bit := by
  obtain ⟨index, inside, rfl⟩ := mem_bitCells_iff.mp member
  obtain ⟨gate, present⟩ := bitBlock_getElem? cell.value inside
  exact transcript.value?_lay present

theorem isBit_of_mem_bitCells
    {base : Nat}
    {value : Element field}
    {bit : Cell field}
    (member : bit ∈ bitCells base value width) :
    bit.value = 0 ∨ bit.value = 1 := by
  obtain ⟨index, -, rfl⟩ := mem_bitCells_iff.mp member
  exact bitElement_isBit _

/-- The sum of the bits is recorded with the value itself, if the value has no more bits. -/
theorem records_bitSum
    (transcript : Transcript field)
    (fits : cell.value.value < 2 ^ (width + 1)) :
    (transcript.lay (bitBlock cell.value width)).Records
      ⟨transcript.size + 3 * width, cell.value⟩ := by
  obtain ⟨entry, present, isSum⟩ := productChain_getElem?
    (.witness (bitElement (cell.value.value.testBit 0)))
    ((List.range width).map fun index => bitPair cell.value (index + 1))
  have total := sumOfProducts_productStart
    ((List.range (width + 1)).map (bitPair cell.value))
  rw [productStart_bitPairs, productSum_bitPairs fits] at total
  rw [List.length_map, List.length_range] at present
  have recorded : (transcript.lay (bitBlock cell.value width)).value? _ = _ :=
    transcript.value?_lay present
  rw [isSum, total] at recorded
  exact recorded

theorem checkBits_computes {read : Valuation field} (base : Nat) (value : Element field) :
    Computes read ((bitCells base value width).forM assertBit)
      (fun _ => ∀ bit ∈ bitCells base value width, read bit = 0 ∨ read bit = 1) :=
  forM_assertBit_computes fun _ member => isBit_of_mem_bitCells member

/-- The inner product of the bits is kept in place by its tie. -/
theorem extendedBy_tiedBits (transcript : Transcript field) :
    (transcript.lay (bitBlock cell.value width)).ExtendedBy (tiedBits transcript cell width) :=
  Transcript.extendedBy_tie _ _ _

/-- The checks of the bits keep their inner product and its tie to the value in place. -/
theorem extendedBy_checks (transcript : Transcript field) :
    (tiedBits transcript cell width).ExtendedBy (bits cell (width + 1) transcript).2 := by
  rw [bits_apply]
  have checks : Computes Cell.value
      ((bitCells transcript.size cell.value (width + 1)).forM assertBit) _ :=
    checkBits_computes _ _
  exact checks.extended _

/-- Taking a value apart keeps everything in place, its own inner product included. -/
theorem extendedBy_bits (transcript : Transcript field) :
    (transcript.lay (bitBlock cell.value width)).ExtendedBy
      (bits cell (width + 1) transcript).2 :=
  (extendedBy_tiedBits transcript).trans (extendedBy_checks transcript)

/-- Taking a value apart keeps a transcript consistent, if the value has no more bits. -/
theorem consistent_bits
    (consistent : transcript.Consistent)
    (recorded : transcript.Records cell)
    (fits : cell.value.value < 2 ^ (width + 1)) :
    (bits cell (width + 1) transcript).2.Consistent := by
  have laid : (transcript.lay (bitBlock cell.value width)).Consistent :=
    consistent.lay (bitBlock_honest _ _) fun entry member other existing =>
      (bitBlock_sources member existing).elim
  have stillRecorded : (transcript.lay (bitBlock cell.value width)).Records cell :=
    (transcript.extendedBy_lay _).value_eq recorded
  have beforeSum : cell.offset < transcript.size + 3 * width :=
    Nat.lt_add_right _ recorded.offset_lt
  have fresh : (cell.offset, transcript.size + 3 * width) ∉
      (transcript.lay (bitBlock cell.value width)).pairs := by
    have untied : (transcript.lay (bitBlock cell.value width)).pairs = transcript.pairs :=
      Transcript.pairs_pushAll_of_untied fun entry member other => bitBlock_sources member
    rw [untied]
    intro member
    exact Nat.not_lt.mpr (Nat.le_add_right _ _) (consistent.tidy.forward _ member).2
  rw [bits_apply]
  refine consistent_forM_assertBit
    (consistent_tie laid stillRecorded (records_bitSum transcript fits) rfl beforeSum fresh)
    (fun bit member => ?_) fun bit member => isBit_of_mem_bitCells member
  exact (extendedBy_tiedBits transcript).value_eq (records_bitCells transcript member)

/-- What satisfies the constraints on the bits of a value gives them the bits of what it holds. -/
theorem bits_of_satisfiedSince
    {assignment : Nat → Element field}
    (satisfied : transcript.SatisfiedSince (bits cell (width + 1) transcript).2 assignment)
    (small : 2 ^ (width + 1) ≤ field.modulus) :
    (assignment cell.offset).value < 2 ^ (width + 1)
      ∧ ∀ index < width + 1, assignment (transcript.size + bitPosition index) =
          bitElement ((assignment cell.offset).value.testBit index) := by
  have tied := satisfied.before (extendedBy_checks transcript)
  have sameSum := (tied.after (transcript.extendedBy_lay _)).tie
  obtain ⟨holds, -⟩ := (tied.before (extendedBy_tiedBits transcript)).lay
  have noSources : Entry.SourcesHold assignment (bitBlock cell.value width).entries :=
    fun entry member other existing => (bitBlock_sources member existing).elim
  have total := sum_bitPositions (Entry.allFixedAt_of_hold noSources holds)
    (Entry.gatesHoldAt_of_hold holds)
  rw [← sameSum] at total
  refine bits_of_sum small (fun index inside => ?_) total.symm
  have checks : Computes (.ofAssignment assignment)
      ((bitCells transcript.size cell.value (width + 1)).forM assertBit) _ :=
    checkBits_computes _ _
  rw [bits_apply] at satisfied
  have extended : transcript.ExtendedBy (tiedBits transcript cell width) :=
    (transcript.extendedBy_lay _).trans (extendedBy_tiedBits transcript)
  exact checks.holds _ (.assigned (satisfied.after extended)) _
    (mem_bitCells_iff.mpr ⟨index, inside, rfl⟩)

end

/-- Taken apart, a value has no more bits, and its bits are read as those of what it is read as. -/
theorem bits_computes
    {read : Valuation field}
    {cell : Cell field}
    {width : Nat}
    (positive : width ≠ 0)
    (fits : cell.value.value < 2 ^ width)
    (small : 2 ^ width ≤ field.modulus) :
    Computes read (bits cell width) (fun bits =>
      (read cell).value < 2 ^ width
        ∧ bits.map read = bitElements (read cell) width) := by
  obtain ⟨width, rfl⟩ := Nat.exists_eq_succ_of_ne_zero positive
  refine ⟨fun transcript => (transcript.extendedBy_lay _).trans (extendedBy_bits transcript),
    fun transcript faithful => ?_⟩
  have given : (bits cell (width + 1) transcript).1 =
      bitCells transcript.size cell.value (width + 1) := by
    rw [bits_apply]
  rw [given]
  cases faithful with
  | handles =>
      refine ⟨fits, List.ext_getElem (by simp [bitCells]) fun index _ _ => ?_⟩
      simp [bitCells]
  | assigned satisfied =>
      obtain ⟨below, forced⟩ := bits_of_satisfiedSince satisfied small
      refine ⟨below, List.ext_getElem (by simp [bitCells, bitElements]) fun index _ inside => ?_⟩
      rw [bitElements, List.length_map, List.length_range] at inside
      simpa [bitCells, bitElements, Valuation.ofAssignment] using forced index inside

variable {known : Set (Cell field)}

/-- The bits of a value are settled if the value has no more bits and stays below the modulus. -/
theorem bits_sound
    {cell : Cell field}
    (cellKnown : cell ∈ known)
    {width : Nat}
    (positive : width ≠ 0)
    (fits : cell.value.value < 2 ^ width)
    (small : 2 ^ width ≤ field.modulus) :
    Sound known (bits cell width) (fun bits => {bit | bit ∈ bits}) := by
  obtain ⟨width, rfl⟩ := Nat.exists_eq_succ_of_ne_zero positive
  have extended : ∀ transcript : Transcript field,
      transcript.ExtendedBy (bits cell (width + 1) transcript).2 :=
    fun transcript => (transcript.extendedBy_lay _).trans (extendedBy_bits transcript)
  refine ⟨extended, fun transcript exposed consistent settled => ?_,
    fun transcript exposed consistent settled bit member => ?_⟩
  · exact consistent_bits consistent (settled cell cellKnown).recorded fits
  · replace member : bit ∈ (bits cell (width + 1) transcript).1 := member
    rw [bits_apply] at member
    refine ⟨(extendedBy_bits transcript).value_eq (records_bitCells transcript member),
      fun assignment satisfied held => ?_⟩
    have earlier := (extended transcript).satisfiedBy satisfied
    have cellHeld := (settled cell cellKnown).forced assignment earlier held
    obtain ⟨index, inside, rfl⟩ := mem_bitCells_iff.mp member
    have bitHeld := (bits_of_satisfiedSince (satisfied.since transcript) small).2 index inside
    rwa [cellHeld] at bitHeld

end Synthesis

end Plonkish
