import Plonkish.Proofs.Circuit.Export
import Plonkish.Proofs.Circuit.Spacing

namespace Plonkish

/-!
# Well-formed descriptions

A description lists everything in order and nothing twice, and mentions only
cells that there are. This is more than sorting gives: the copies of a transcript
are between different cells and no two are the same, its constants are fixed at
different offsets, and its gates are so far apart that they share one cell at most.
-/

namespace Transcript

variable {field : PrimeField} {transcript : Transcript field}

/-- Gates are listed in the order of their cells. -/
theorem pairwise_gates (transcript : Transcript field) : transcript.gates.Pairwise (· < ·) := by
  have offsets : (transcript.rows.toList.zipIdx.map Prod.snd).Pairwise (· < ·) := by
    rw [List.zipIdx_map_snd]
    exact List.pairwise_lt_range'
  rw [gates, List.pairwise_filterMap]
  refine (List.pairwise_map.mp offsets).imp fun {left right} before => ?_
  intro offset isLeft other isRight
  rw [Option.ite_none_right_eq_some] at isLeft isRight
  obtain ⟨-, rfl⟩ : _ ∧ left.2 = offset := by simpa using isLeft
  obtain ⟨-, rfl⟩ : _ ∧ right.2 = other := by simpa using isRight
  exact before

/-- Gates of a spaced transcript share one cell at most. -/
theorem Spaced.gates_apart
    (isSpaced : transcript.Spaced)
    {gate other : Nat}
    (isGate : gate ∈ transcript.gates)
    (isOther : other ∈ transcript.gates)
    (before : gate < other) :
    gate + 3 ≤ other := by
  rw [mem_gates_iff_selectors] at isGate isOther
  obtain ⟨-, noFirst, noSecond⟩ := gap_of_spaced isSpaced isGate
  have notFirst : other ≠ gate + 1 := by
    rintro rfl
    cases isOther.symm.trans noFirst
  have notSecond : other ≠ gate + 2 := by
    rintro rfl
    cases isOther.symm.trans noSecond
  omega

end Transcript

namespace Description

variable {field : PrimeField}

/-- Everything is in order, nothing is there twice, and only cells that there are are mentioned. -/
structure WellFormed (field : PrimeField) (circuit : Description) : Prop where
  gates_increasing : circuit.gates.Pairwise (· < ·)
  /-- A gate takes four cells. -/
  gates_inside : ∀ gate ∈ circuit.gates, gate + 4 ≤ circuit.rows
  /-- The last cell of a gate may be the first of the next one, but no more. -/
  gates_apart : ∀ gate ∈ circuit.gates, ∀ other ∈ circuit.gates, gate < other → gate + 3 ≤ other
  copies_increasing : circuit.copies.Pairwise fun left right =>
    left.1 < right.1 ∨ left.1 = right.1 ∧ left.2 < right.2
  copies_inside : ∀ pair ∈ circuit.copies, pair.1 < pair.2 ∧ pair.2 < circuit.rows
  /-- No cell is fixed to two constants. -/
  constants_increasing : (circuit.constants.map Prod.fst).Pairwise (· < ·)
  constants_inside : ∀ entry ∈ circuit.constants, entry.1 < circuit.rows
  /-- The text of a constant is that of an element, and is read back as that element. -/
  constants_canonical : ∀ entry ∈ circuit.constants, ∃ element : Element field,
    Element.ofHex? field entry.2 = some element ∧ entry.2 = element.toHex
  publicInputs_inside : ∀ offset ∈ circuit.publicInputs, offset < circuit.rows
  publicInputs_distinct : circuit.publicInputs.Nodup

variable {layout : Layout} {exposed : List (Cell field)} {transcript : Transcript field}

theorem copyLe_iff {left right : Nat × Nat} :
    copyLe left right = true ↔ left.1 < right.1 ∨ left.1 = right.1 ∧ left.2 ≤ right.2 := by
  simp [copyLe]

/-- Copies that are sorted and of which no two are the same increase strictly. -/
theorem pairwise_mergeSort_copyLe {pairs : List (Nat × Nat)} (distinct : pairs.Nodup) :
    (pairs.mergeSort copyLe).Pairwise fun left right =>
      left.1 < right.1 ∨ left.1 = right.1 ∧ left.2 < right.2 := by
  have sorted : (pairs.mergeSort copyLe).Pairwise fun left right => copyLe left right = true := by
    apply List.pairwise_mergeSort
    · intro first second third
      simp only [copyLe_iff]
      omega
    · intro first second
      simp only [Bool.or_eq_true, copyLe_iff]
      omega
  have stillDistinct : (pairs.mergeSort copyLe).Nodup :=
    (List.mergeSort_perm pairs copyLe).nodup_iff.mpr distinct
  refine sorted.imp₂ (fun left right ordered different => ?_) stillDistinct
  rcases copyLe_iff.mp ordered with before | ⟨same, noLater⟩
  · exact .inl before
  · refine .inr ⟨same, lt_of_le_of_ne noLater fun sameSecond => ?_⟩
    exact different (Prod.ext same sameSecond)

/-- Constants that are fixed at increasing offsets are sorted already. -/
theorem constants_ofTranscript (tidy : transcript.Tidy) :
    (ofTranscript layout exposed transcript).constants =
      transcript.constants.toList.map fun (offset, value) => (offset, value.toHex) := by
  apply List.mergeSort_of_pairwise
  rw [List.pairwise_map]
  refine (List.pairwise_map.mp tidy.increasing).imp fun {left right} before => ?_
  simp [constantLe, before]

/-- The description of a consistent transcript whose gates are apart is well-formed. -/
theorem wellFormed_ofTranscript
    (consistent : transcript.Consistent)
    (isSpaced : transcript.Spaced)
    (recorded : ∀ cell ∈ exposed, transcript.Records cell)
    (increasing : (exposed.map Cell.offset).Pairwise (· < ·)) :
    (ofTranscript layout exposed transcript).WellFormed field := by
  have tidy := consistent.tidy
  have inRange : (ofTranscript layout exposed transcript).InRange :=
    inRange_ofTranscript consistent recorded
  refine {
    gates_increasing := transcript.pairwise_gates
    gates_inside := inRange.gates
    gates_apart := fun gate isGate other isOther => isSpaced.gates_apart isGate isOther
    copies_increasing := pairwise_mergeSort_copyLe tidy.distinct
    copies_inside := fun pair member => ?_
    constants_increasing := ?_
    constants_inside := inRange.constants
    constants_canonical := fun entry member => ?_
    publicInputs_inside := inRange.publicInputs
    publicInputs_distinct := increasing.imp ne_of_lt
  }
  · exact tidy.forward pair (List.mem_mergeSort.mp member)
  · rw [constants_ofTranscript tidy, List.map_map]
    exact tidy.increasing
  · obtain ⟨constant, -, rfl⟩ := mem_constants_ofTranscript.mp member
    exact ⟨constant.2, Element.ofHex?_toHex constant.2, rfl⟩

end Description

end Plonkish
