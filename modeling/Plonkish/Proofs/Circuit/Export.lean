import Plonkish.Circuit.Export
import Plonkish.Proofs.Circuit.Settlement

namespace Plonkish

/-!
# Satisfied descriptions

What a description asks of a table of values. A description and a table that are
taken from a transcript ask the same as the transcript and its exposed cells,
although copies are sorted and constants are written as text.
-/

namespace Table

variable {field : PrimeField}

/-- The values of the cells of a table, with zero past the end. -/
def assignment (table : Table field) (offset : Nat) : Element field :=
  (table.value? offset).getD 0

end Table

namespace Description

variable {field : PrimeField}

/-- Every constraint of a description holds for the values of a table. -/
structure SatisfiedBy (circuit : Description) (table : Table field) : Prop where
  rows : table.advice.length = circuit.rows
  gates : ∀ offset ∈ circuit.gates, Transcript.GateHolds table.assignment offset
  copies : ∀ pair ∈ circuit.copies, table.assignment pair.1 = table.assignment pair.2
  constants : ∀ entry ∈ circuit.constants,
    Element.ofHex? field entry.2 = some (table.assignment entry.1)
  publicInputs : circuit.publicInputs.map table.assignment = table.publicInputs

/-- A description only mentions cells that there are. -/
structure InRange (circuit : Description) : Prop where
  gates : ∀ offset ∈ circuit.gates, offset + 3 < circuit.rows
  copies : ∀ pair ∈ circuit.copies, pair.1 < circuit.rows ∧ pair.2 < circuit.rows
  constants : ∀ entry ∈ circuit.constants, entry.1 < circuit.rows
  publicInputs : ∀ offset ∈ circuit.publicInputs, offset < circuit.rows

variable {layout : Layout} {exposed : List (Cell field)} {transcript : Transcript field}

theorem mem_copies_ofTranscript {pair : Nat × Nat} :
    pair ∈ (ofTranscript layout exposed transcript).copies ↔
      ∃ copy ∈ transcript.copies.toList, (min copy.1 copy.2, max copy.1 copy.2) = pair := by
  rw [ofTranscript, List.mem_mergeSort, List.mem_map]

theorem mem_constants_ofTranscript {entry : Nat × String} :
    entry ∈ (ofTranscript layout exposed transcript).constants ↔
      ∃ constant ∈ transcript.constants.toList, (constant.1, constant.2.toHex) = entry := by
  rw [ofTranscript, List.mem_mergeSort, List.mem_map]

/-- A copy holds in whichever order its cells are. -/
theorem equal_min_max {assignment : Nat → α} {left right : Nat} :
    assignment (min left right) = assignment (max left right) ↔
      assignment left = assignment right := by
  rcases Nat.le_total left right with ordered | ordered
  · rw [Nat.min_eq_left ordered, Nat.max_eq_right ordered]
  · rw [Nat.min_eq_right ordered, Nat.max_eq_left ordered, eq_comm]

/-- A description asks what its transcript and its exposed cells ask. -/
theorem satisfiedBy_ofTranscript {advice : List (Element field)} :
    (ofTranscript layout exposed transcript).SatisfiedBy ⟨advice, exposed.map Cell.value⟩ ↔
      advice.length = transcript.size
        ∧ transcript.SatisfiedBy (Table.assignment ⟨advice, exposed.map Cell.value⟩)
        ∧ Cell.AllHold (Table.assignment ⟨advice, exposed.map Cell.value⟩) exposed := by
  generalize tabled : (⟨advice, exposed.map Cell.value⟩ : Table field) = table
  have isAdvice : table.advice = advice := by rw [← tabled]
  have isPublic : table.publicInputs = exposed.map Cell.value := by rw [← tabled]
  constructor
  · intro satisfied
    refine ⟨isAdvice ▸ satisfied.rows, ⟨satisfied.gates, fun copy member => ?_,
      fun constant member => ?_⟩, fun cell member => ?_⟩
    · exact equal_min_max.mp
        (satisfied.copies _ (mem_copies_ofTranscript.mpr ⟨copy, member, rfl⟩))
    · have decoded := satisfied.constants _
        (mem_constants_ofTranscript.mpr ⟨constant, member, rfl⟩)
      rw [Element.ofHex?_toHex] at decoded
      exact (Option.some.inj decoded).symm
    · have same := satisfied.publicInputs
      rw [isPublic, ofTranscript, List.map_map] at same
      exact List.map_inj_left.mp same cell member
  · rintro ⟨length, satisfied, held⟩
    refine ⟨isAdvice ▸ length, satisfied.gates, fun pair member => ?_, fun entry member => ?_, ?_⟩
    · obtain ⟨copy, isCopy, rfl⟩ := mem_copies_ofTranscript.mp member
      exact equal_min_max.mpr (satisfied.copies copy isCopy)
    · obtain ⟨constant, isConstant, rfl⟩ := mem_constants_ofTranscript.mp member
      rw [Element.ofHex?_toHex, satisfied.constants constant isConstant]
    · rw [isPublic, ofTranscript, List.map_map]
      exact List.map_inj_left.mpr held

end Description

namespace Transcript

variable {field : PrimeField}

/-- The values of the cells match themselves. -/
theorem matchedBy_assignment (transcript : Transcript field) :
    transcript.MatchedBy transcript.assignment := by
  intro offset value recorded
  rw [assignment, recorded]
  rfl

/-- A value past the end may be changed. -/
theorem MatchedBy.update
    {transcript : Transcript field}
    {assignment : Nat → Element field}
    (matched : transcript.MatchedBy assignment)
    {past : Nat}
    (pastEnd : transcript.size ≤ past)
    (value : Element field) :
    transcript.MatchedBy (Function.update assignment past value) := by
  intro offset recordedValue recorded
  have isRecorded : transcript.Records ⟨offset, recordedValue⟩ := recorded
  have inside : offset < transcript.size := isRecorded.offset_lt
  have different : offset ≠ past := by omega
  rw [Function.update_of_ne different]
  exact matched offset recordedValue recorded

/-- The cells of a gate are cells that there are: the last one is determined by the others. -/
theorem Consistent.gate_lt
    {transcript : Transcript field}
    (consistent : transcript.Consistent)
    {offset : Nat}
    (member : offset ∈ transcript.gates) :
    offset + 3 < transcript.size := by
  by_contra pastEnd
  have matched := transcript.matchedBy_assignment
  have changed := matched.update (Nat.not_lt.mp pastEnd)
    (transcript.assignment (offset + 3) + 1)
  have before := (consistent.satisfied _ matched).gates offset member
  have after := (consistent.satisfied _ changed).gates offset member
  unfold GateHolds at before after
  rw [Function.update_self, Function.update_of_ne (by omega), Function.update_of_ne (by omega),
    Function.update_of_ne (by omega), before] at after
  exact one_ne_zero (left_eq_add.mp after)

end Transcript

namespace Description

variable {field : PrimeField}
variable {layout : Layout} {exposed : List (Cell field)} {transcript : Transcript field}

/-- The description of a consistent transcript only mentions cells that there are. -/
theorem inRange_ofTranscript
    (consistent : transcript.Consistent)
    (recorded : ∀ cell ∈ exposed, transcript.Records cell) :
    (ofTranscript layout exposed transcript).InRange := by
  refine ⟨fun offset member => consistent.gate_lt member, fun pair member => ?_,
    fun entry member => ?_, fun offset member => ?_⟩
  · obtain ⟨copy, isCopy, rfl⟩ := mem_copies_ofTranscript.mp member
    obtain ⟨leftInside, rightInside⟩ := consistent.inside copy isCopy
    exact ⟨(Nat.min_le_left _ _).trans_lt leftInside, Nat.max_lt.mpr ⟨leftInside, rightInside⟩⟩
  · obtain ⟨constant, isConstant, rfl⟩ := mem_constants_ofTranscript.mp member
    exact consistent.tidy.fixed constant isConstant
  · obtain ⟨cell, isExposed, rfl⟩ := List.mem_map.mp member
    exact (recorded cell isExposed).offset_lt

end Description

namespace Table

variable {field : PrimeField}
variable {exposed : List (Cell field)} {transcript : Transcript field}

theorem value?_ofTranscript (offset : Nat) :
    (ofTranscript exposed transcript).value? offset = transcript.value? offset := by
  rw [value?, ofTranscript, List.getElem?_map, Array.getElem?_toList]
  rfl

theorem assignment_ofTranscript :
    (ofTranscript exposed transcript).assignment = transcript.assignment := by
  funext offset
  rw [assignment, value?_ofTranscript]
  rfl

end Table

/-- The table of a consistent transcript satisfies its description. -/
theorem Transcript.Consistent.satisfiedBy_ofTranscript
    {field : PrimeField}
    {layout : Layout}
    {exposed : List (Cell field)}
    {transcript : Transcript field}
    (consistent : transcript.Consistent)
    (recorded : ∀ cell ∈ exposed, transcript.Records cell) :
    (Description.ofTranscript layout exposed transcript).SatisfiedBy
      (Table.ofTranscript exposed transcript) := by
  refine Description.satisfiedBy_ofTranscript.mpr ⟨?_, ?_, ?_⟩
  · rw [List.length_map, Array.length_toList]
    rfl
  · change transcript.SatisfiedBy (Table.ofTranscript exposed transcript).assignment
    rw [Table.assignment_ofTranscript]
    exact consistent.satisfied _ transcript.matchedBy_assignment
  · change Cell.AllHold (Table.ofTranscript exposed transcript).assignment exposed
    rw [Table.assignment_ofTranscript]
    exact fun cell member => transcript.matchedBy_assignment _ _ (recorded cell member)

end Plonkish
