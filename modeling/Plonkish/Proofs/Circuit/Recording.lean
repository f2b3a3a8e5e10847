import Plonkish.Proofs.Circuit.Evaluation

namespace Plonkish

/-!
# Recorded constraints

The constraints between two transcripts are those of the blocks that were laid out
between them. So an assignment satisfies what was recorded in between if every one
of these blocks holds where it was laid, whatever was recorded before.
-/

/-- What comes late in a list comes late in a part from its front, or behind that part. -/
theorem mem_drop_of_isPrefix
    {front list : List α}
    (isFront : front <+: list)
    {count : Nat}
    (short : count ≤ front.length)
    {item : α}
    (member : item ∈ list.drop count) :
    item ∈ front.drop count ∨ item ∈ list.drop front.length := by
  obtain ⟨added, rfl⟩ := isFront
  rw [List.drop_append_of_le_length short, List.mem_append] at member
  rwa [List.drop_left]

namespace Transcript

variable {field : PrimeField} {first second third transcript : Transcript field}
variable {assignment : Nat → Element field}

namespace SatisfiedSince

theorem refl (transcript : Transcript field) :
    transcript.SatisfiedSince transcript assignment where
  gates offset member past := by
    obtain ⟨row, present, -⟩ := mem_gates_iff.mp member
    exact absurd (Array.getElem?_eq_some_iff.mp present).1 (Nat.not_lt.mpr past)
  copies pair member := by
    rw [← Array.length_toList, List.drop_length] at member
    cases member
  constants entry member := by
    rw [← Array.length_toList, List.drop_length] at member
    cases member

/-- There are no other constraints than those of the first of two parts and of the second. -/
theorem trans
    (firstSatisfied : first.SatisfiedSince second assignment)
    (secondSatisfied : second.SatisfiedSince third assignment)
    (earlier : first.ExtendedBy second)
    (later : second.ExtendedBy third) :
    first.SatisfiedSince third assignment where
  gates offset member past := by
    by_cases inSecond : offset < second.rows.size
    · obtain ⟨row, present, gated⟩ := mem_gates_iff.mp member
      have recorded := Array.getElem?_eq_getElem inSecond
      have same := (later.row_eq recorded).symm.trans present
      refine firstSatisfied.gates offset (mem_gates_iff.mpr ⟨row, ?_, gated⟩) past
      rw [recorded, same]
    · exact secondSatisfied.gates offset member (Nat.not_lt.mp inSecond)
  copies pair member :=
    (mem_drop_of_isPrefix later.copies earlier.copies.length_le member).elim
      (firstSatisfied.copies pair) (secondSatisfied.copies pair)
  constants entry member :=
    (mem_drop_of_isPrefix later.constants earlier.constants.length_le member).elim
      (firstSatisfied.constants entry) (secondSatisfied.constants entry)

/-- A pushed cell asks nothing else than its entry. -/
theorem of_push
    {entry : Entry field}
    (holds : entry.HoldsAt assignment transcript.size) :
    transcript.SatisfiedSince (transcript.push entry) assignment := by
  obtain ⟨source, gate⟩ := entry
  constructor
  case gates =>
    intro offset member past
    rcases mem_gates_push.mp member with before | ⟨rfl, gated⟩
    · exact (refl transcript).gates offset before past
    · exact holds.2 gated
  case copies =>
    intro pair member
    cases source with
    | existing cell =>
        obtain rfl : pair = (transcript.size, cell.offset) := by
          simpa [Transcript.push, size] using member
        exact holds.1
    | witness value => exact (refl transcript).copies pair member
    | constant value => exact (refl transcript).copies pair member
  case constants =>
    intro pair member
    cases source with
    | existing cell => exact (refl transcript).constants pair member
    | witness value => exact (refl transcript).constants pair member
    | constant value =>
        obtain rfl : pair = (transcript.size, value) := by
          simpa [Transcript.push, size] using member
        exact holds.1

theorem of_pushAll
    {entries : List (Entry field)}
    (holds : Entry.AllHoldAt assignment transcript.size entries) :
    transcript.SatisfiedSince (transcript.pushAll entries) assignment := by
  induction entries generalizing transcript with
  | nil => exact refl transcript
  | cons entry rest inductionHypothesis =>
      obtain ⟨first, later⟩ := holds
      rw [← size_push transcript entry] at later
      exact (of_push first).trans (inductionHypothesis later) (transcript.extendedBy_push entry)
        (extendedBy_pushAll _ rest)

/-- A tie asks nothing else than that its cells are equal. -/
theorem of_tie
    {left right : Nat}
    (equal : assignment left = assignment right) :
    transcript.SatisfiedSince (transcript.tie left right) assignment where
  gates := (refl transcript).gates
  copies pair member := by
    obtain rfl : pair = (left, right) := by simpa [Transcript.tie] using member
    exact equal
  constants := (refl transcript).constants

theorem of_tieAll
    {base : Nat}
    {ties : List (Nat × Nat)}
    (equal : ∀ tie ∈ ties, assignment (base + tie.1) = assignment (base + tie.2)) :
    transcript.SatisfiedSince (transcript.tieAll base ties) assignment := by
  induction ties generalizing transcript with
  | nil => exact refl transcript
  | cons tie rest inductionHypothesis =>
      obtain ⟨first, later⟩ := List.forall_mem_cons.mp equal
      exact (of_tie first).trans (inductionHypothesis later) (transcript.extendedBy_tie _ _)
        (extendedBy_tieAll _ base rest)

end SatisfiedSince

/-- A block asks what it asks where it was laid, and nothing else. -/
theorem satisfiedSince_lay
    {block : Block field} :
    transcript.SatisfiedSince (transcript.lay block) assignment ↔
      block.HoldsAt assignment transcript.size := by
  refine ⟨SatisfiedSince.lay, fun ⟨entries, ties⟩ => ?_⟩
  exact (SatisfiedSince.of_pushAll entries).trans (SatisfiedSince.of_tieAll ties)
    (transcript.extendedBy_pushAll block.entries) (extendedBy_tieAll _ _ _)

/-- What was recorded in two parts is satisfied if both parts are. -/
theorem satisfiedSince_trans
    (earlier : first.ExtendedBy second)
    (later : second.ExtendedBy third) :
    first.SatisfiedSince third assignment ↔
      first.SatisfiedSince second assignment ∧ second.SatisfiedSince third assignment :=
  ⟨fun satisfied => ⟨satisfied.before later, satisfied.after earlier⟩,
    fun ⟨firstSatisfied, secondSatisfied⟩ => firstSatisfied.trans secondSatisfied earlier later⟩

end Transcript

end Plonkish
