import Mathlib.Data.List.Nodup
import Plonkish.Proofs.Circuit.Growth

namespace Plonkish

/-!
# Tidy transcripts

Layout repeats nothing. A new cell is tied to an earlier one at most once, the
ties of a block are between its own cells, and constants are fixed to new cells.
So no two copies are between the same cells, no cell is tied to itself, and the
offsets of the fixed cells increase.
-/

namespace Transcript

variable {field : PrimeField}

/-- A copy, with the earlier of its cells first. -/
def ordered (pair : Nat × Nat) : Nat × Nat :=
  (min pair.1 pair.2, max pair.1 pair.2)

@[simp] theorem ordered_of_lt {left right : Nat} (forward : left < right) :
    ordered (left, right) = (left, right) :=
  Prod.ext (Nat.min_eq_left (Nat.le_of_lt forward)) (Nat.max_eq_right (Nat.le_of_lt forward))

theorem ordered_swap (left right : Nat) : ordered (left, right) = ordered (right, left) :=
  Prod.ext (Nat.min_comm left right) (Nat.max_comm left right)

/-- The pairs of cells that are tied, the earlier one first. -/
def pairs (transcript : Transcript field) : List (Nat × Nat) :=
  transcript.copies.toList.map ordered

/-- No two cells are tied twice, no cell to itself, and no cell is fixed twice. -/
structure Tidy (transcript : Transcript field) : Prop where
  forward : ∀ pair ∈ transcript.pairs, pair.1 < pair.2 ∧ pair.2 < transcript.size
  distinct : transcript.pairs.Nodup
  increasing : (transcript.constants.toList.map Prod.fst).Pairwise (· < ·)
  fixed : ∀ entry ∈ transcript.constants.toList, entry.1 < transcript.size

theorem tidy_empty : (empty : Transcript field).Tidy where
  forward := nofun
  distinct := .nil
  increasing := .nil
  fixed := nofun

variable {transcript : Transcript field}

theorem pairs_tie (transcript : Transcript field) (left right : Nat) :
    (transcript.tie left right).pairs = transcript.pairs ++ [ordered (left, right)] := by
  simp [pairs, tie]

/-- A tie between two cells that are not tied yet keeps a transcript tidy. -/
theorem Tidy.tie
    (tidy : transcript.Tidy)
    {left right : Nat}
    (forward : left < right)
    (inside : right < transcript.size)
    (fresh : (left, right) ∉ transcript.pairs) :
    (transcript.tie left right).Tidy where
  forward pair member := by
    rw [pairs_tie, ordered_of_lt forward, List.mem_append, List.mem_singleton] at member
    rcases member with earlier | rfl
    · exact tidy.forward pair earlier
    · exact ⟨forward, inside⟩
  distinct := by
    rw [pairs_tie, ordered_of_lt forward, List.nodup_append]
    refine ⟨tidy.distinct, List.nodup_singleton _, fun pair earlier other new => ?_⟩
    rintro rfl
    rw [List.mem_singleton.mp new] at earlier
    exact fresh earlier
  increasing := tidy.increasing
  fixed := tidy.fixed

/-- A new cell that nothing constrains keeps a transcript tidy. -/
theorem Tidy.pushWitness (tidy : transcript.Tidy) (value : Element field) (gate : Bool) :
    (transcript.push ⟨.witness value, gate⟩).Tidy := by
  have larger : transcript.size < (transcript.push ⟨.witness value, gate⟩).size := by
    rw [size_push]
    exact Nat.lt_succ_self _
  exact {
    forward := fun pair member =>
      ⟨(tidy.forward pair member).1, Nat.lt_trans (tidy.forward pair member).2 larger⟩
    distinct := tidy.distinct
    increasing := tidy.increasing
    fixed := fun entry member => Nat.lt_trans (tidy.fixed entry member) larger
  }

/-- A new cell that is tied to an earlier one keeps a transcript tidy. -/
theorem Tidy.pushExisting
    (tidy : transcript.Tidy)
    {cell : Cell field}
    (earlier : cell.offset < transcript.size)
    (gate : Bool) :
    (transcript.push ⟨.existing cell, gate⟩).Tidy := by
  have fresh : (cell.offset, transcript.size) ∉ transcript.pairs := fun member =>
    Nat.lt_irrefl _ (tidy.forward _ member).2
  have last : transcript.size < (transcript.push ⟨.witness cell.value, gate⟩).size := by
    rw [size_push]
    exact Nat.lt_succ_self _
  have tied := (tidy.pushWitness cell.value gate).tie earlier last fresh
  have samePairs : (transcript.push ⟨.existing cell, gate⟩).pairs =
      ((transcript.push ⟨.witness cell.value, gate⟩).tie cell.offset transcript.size).pairs := by
    rw [pairs_tie, ordered_swap, ← pairs_tie]
    rfl
  exact {
    forward := samePairs ▸ tied.forward
    distinct := samePairs ▸ tied.distinct
    increasing := tied.increasing
    fixed := tied.fixed
  }

/-- A new cell that is fixed comes after all fixed cells. -/
theorem Tidy.pushConstant (tidy : transcript.Tidy) (value : Element field) (gate : Bool) :
    (transcript.push ⟨.constant value, gate⟩).Tidy := by
  have unfixed := tidy.pushWitness value gate
  have constants : (transcript.push ⟨.constant value, gate⟩).constants.toList =
      transcript.constants.toList ++ [(transcript.size, value)] :=
    Array.toList_push
  refine {
    forward := unfixed.forward
    distinct := unfixed.distinct
    increasing := ?_
    fixed := fun entry member => ?_
  }
  · rw [constants, List.map_append, List.pairwise_append]
    refine ⟨tidy.increasing, List.pairwise_singleton _ _, fun offset earlier last new => ?_⟩
    obtain ⟨entry, member, rfl⟩ := List.mem_map.mp earlier
    rw [List.mem_singleton.mp new]
    exact tidy.fixed entry member
  · rw [constants, List.mem_append, List.mem_singleton] at member
    rcases member with earlier | rfl
    · exact unfixed.fixed entry earlier
    · rw [size_push]
      exact Nat.lt_succ_self _

/-- A new cell is tied to an earlier one, fixed, or left to the prover. -/
theorem Tidy.push
    (tidy : transcript.Tidy)
    {entry : Entry field}
    (sources : ∀ cell, entry.source = .existing cell → cell.offset < transcript.size) :
    (transcript.push entry).Tidy := by
  obtain ⟨source, gate⟩ := entry
  cases source with
  | existing cell => exact tidy.pushExisting (sources cell rfl) gate
  | witness value => exact tidy.pushWitness value gate
  | constant value => exact tidy.pushConstant value gate

theorem Tidy.pushAll
    (tidy : transcript.Tidy)
    {entries : List (Entry field)}
    (sources : ∀ entry ∈ entries, ∀ cell, entry.source = .existing cell →
      cell.offset < transcript.size) :
    (transcript.pushAll entries).Tidy := by
  induction entries generalizing transcript with
  | nil => exact tidy
  | cons entry rest inductionHypothesis =>
      refine inductionHypothesis (tidy.push (sources entry List.mem_cons_self)) ?_
      intro later member cell existing
      rw [size_push]
      exact Nat.lt_succ_of_lt (sources later (List.mem_cons_of_mem _ member) cell existing)

/-- Pushed cells are tied to cells from before the first of them. -/
theorem fst_lt_of_mem_pairs_pushAll
    {base : Nat}
    {entries : List (Entry field)}
    (earlier : ∀ pair ∈ transcript.pairs, pair.1 < base)
    (sources : ∀ entry ∈ entries, ∀ cell, entry.source = .existing cell → cell.offset < base) :
    ∀ pair ∈ (transcript.pushAll entries).pairs, pair.1 < base := by
  induction entries generalizing transcript with
  | nil => exact earlier
  | cons entry rest inductionHypothesis =>
      refine inductionHypothesis ?_ fun later member =>
        sources later (List.mem_cons_of_mem _ member)
      obtain ⟨source, gate⟩ := entry
      cases source with
      | existing cell =>
          have pushed : (transcript.push ⟨.existing cell, gate⟩).pairs =
              transcript.pairs ++ [ordered (transcript.size, cell.offset)] :=
            transcript.pairs_tie transcript.size cell.offset
          intro pair member
          rw [pushed, List.mem_append, List.mem_singleton] at member
          rcases member with before | rfl
          · exact earlier pair before
          · exact Nat.lt_of_le_of_lt (Nat.min_le_right _ _) (sources _ List.mem_cons_self cell rfl)
      | witness value => exact earlier
      | constant value => exact earlier

/-- Cells that are not tied when they are pushed add no copy. -/
theorem pairs_pushAll_of_untied
    {entries : List (Entry field)}
    (untied : ∀ entry ∈ entries, ∀ cell, entry.source ≠ .existing cell) :
    (transcript.pushAll entries).pairs = transcript.pairs := by
  induction entries generalizing transcript with
  | nil => rfl
  | cons entry rest inductionHypothesis =>
      refine (inductionHypothesis fun later member =>
        untied later (List.mem_cons_of_mem _ member)).trans ?_
      obtain ⟨source, gate⟩ := entry
      cases source with
      | existing cell => exact (untied _ List.mem_cons_self cell rfl).elim
      | witness value => rfl
      | constant value => rfl

/-- Different ties, none of which is there yet, keep a transcript tidy. -/
theorem Tidy.tieAll
    (tidy : transcript.Tidy)
    {base : Nat}
    {ties : List (Nat × Nat)}
    (forward : ∀ tie ∈ ties, tie.1 < tie.2 ∧ base + tie.2 < transcript.size)
    (distinct : ties.Nodup)
    (fresh : ∀ tie ∈ ties, (base + tie.1, base + tie.2) ∉ transcript.pairs) :
    (transcript.tieAll base ties).Tidy := by
  induction ties generalizing transcript with
  | nil => exact tidy
  | cons tie rest inductionHypothesis =>
      obtain ⟨new, restDistinct⟩ := List.nodup_cons.mp distinct
      obtain ⟨ordered, inside⟩ := forward tie List.mem_cons_self
      have shifted : base + tie.1 < base + tie.2 := Nat.add_lt_add_left ordered base
      have tied := tidy.tie shifted inside (fresh tie List.mem_cons_self)
      refine inductionHypothesis tied (fun later member => ?_) restDistinct
        fun later member present => ?_
      · exact forward later (List.mem_cons_of_mem _ member)
      · rw [pairs_tie, ordered_of_lt shifted, List.mem_append, List.mem_singleton] at present
        rcases present with before | same
        · exact fresh later (List.mem_cons_of_mem _ member) before
        · obtain ⟨sameLeft, sameRight⟩ := Prod.ext_iff.mp same
          have sameTie : later = tie :=
            Prod.ext (Nat.add_left_cancel sameLeft) (Nat.add_left_cancel sameRight)
          exact new (sameTie ▸ member)

/-- A block whose ties differ keeps a transcript tidy: they are between cells of its own. -/
theorem Tidy.lay
    (tidy : transcript.Tidy)
    {block : Block field}
    (sources : ∀ entry ∈ block.entries, ∀ cell, entry.source = .existing cell →
      cell.offset < transcript.size)
    (forward : ∀ tie ∈ block.ties, tie.1 < tie.2 ∧ tie.2 < block.entries.length)
    (distinct : block.ties.Nodup) :
    (transcript.lay block).Tidy := by
  have size : (transcript.pushAll block.entries).size =
      transcript.size + block.entries.length :=
    size_lay transcript ⟨block.entries, []⟩
  have earlier : ∀ pair ∈ transcript.pairs, pair.1 < transcript.size := fun pair member =>
    Nat.lt_trans (tidy.forward pair member).1 (tidy.forward pair member).2
  refine (tidy.pushAll sources).tieAll (fun tie member => ?_) distinct fun tie _ present => ?_
  · rw [size]
    exact ⟨(forward tie member).1, Nat.add_lt_add_left (forward tie member).2 _⟩
  · have before := fst_lt_of_mem_pairs_pushAll earlier sources _ present
    exact Nat.not_lt.mpr (Nat.le_add_right _ _) before

end Transcript

end Plonkish
