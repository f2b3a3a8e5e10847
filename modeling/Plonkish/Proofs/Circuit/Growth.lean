import Mathlib.Data.List.Basic
import Plonkish.Circuit.Satisfaction

namespace Plonkish

/-!
# Growth of transcripts

Layout only appends. A later transcript keeps every value, gate, copy and
constant of an earlier one in place, so whatever satisfies the later one
satisfies the earlier one. Conversely, an assignment satisfies a transcript with
one more block exactly if it satisfies the transcript, and the block holds at
the offset where it was laid.
-/

/-- What the source of a cell asks of the value of the cell. -/
def Source.HoldsAt
    {field : PrimeField}
    (assignment : Nat → Element field)
    (offset : Nat) :
    Source field → Prop
  | .existing cell => assignment offset = assignment cell.offset
  | .witness _ => True
  | .constant value => assignment offset = value

/-- What an entry asks of the values from its offset on. -/
def Entry.HoldsAt
    {field : PrimeField}
    (assignment : Nat → Element field)
    (offset : Nat)
    (entry : Entry field) :
    Prop :=
  entry.source.HoldsAt assignment offset
    ∧ (entry.gate = true → Transcript.GateHolds assignment offset)

/-- What consecutive entries ask of the values from the offset of the first on. -/
def Entry.AllHoldAt
    {field : PrimeField}
    (assignment : Nat → Element field) :
    Nat → List (Entry field) → Prop
  | _, [] => True
  | offset, entry :: rest =>
      entry.HoldsAt assignment offset ∧ Entry.AllHoldAt assignment (offset + 1) rest

/-- What a block asks of the values from the offset of its first cell on. -/
def Block.HoldsAt
    {field : PrimeField}
    (assignment : Nat → Element field)
    (base : Nat)
    (block : Block field) :
    Prop :=
  Entry.AllHoldAt assignment base block.entries
    ∧ ∀ tie ∈ block.ties, assignment (base + tie.1) = assignment (base + tie.2)

/-- Consecutive values are those of the sources of entries. -/
@[simp] def Entry.AllMatchAt
    {field : PrimeField}
    (assignment : Nat → Element field) :
    Nat → List (Entry field) → Prop
  | _, [] => True
  | offset, entry :: rest =>
      assignment offset = entry.source.value ∧ Entry.AllMatchAt assignment (offset + 1) rest

namespace Transcript

variable {field : PrimeField}

/-- An assignment gives every cell the value it was laid out with. -/
def MatchedBy (transcript : Transcript field) (assignment : Nat → Element field) : Prop :=
  ∀ offset value, transcript.value? offset = some value → assignment offset = value

/-- A later transcript keeps everything in place. -/
structure ExtendedBy (earlier later : Transcript field) : Prop where
  rows : earlier.rows.toList <+: later.rows.toList
  copies : earlier.copies.toList <+: later.copies.toList
  constants : earlier.constants.toList <+: later.constants.toList

namespace ExtendedBy

variable {first second third : Transcript field}

/-- A transcript extends itself. -/
theorem refl (transcript : Transcript field) : transcript.ExtendedBy transcript :=
  ⟨List.prefix_refl _, List.prefix_refl _, List.prefix_refl _⟩

/-- What extends an extension extends the transcript. -/
theorem trans (earlier : first.ExtendedBy second) (later : second.ExtendedBy third) :
    first.ExtendedBy third :=
  ⟨earlier.rows.trans later.rows, earlier.copies.trans later.copies,
    earlier.constants.trans later.constants⟩

/-- A row stays where it is. -/
theorem row_eq
    (extended : first.ExtendedBy second)
    {offset : Nat}
    {row : Row field}
    (present : first.rows[offset]? = some row) :
    second.rows[offset]? = some row := by
  obtain ⟨added, appended⟩ := extended.rows
  rw [← Array.getElem?_toList] at present ⊢
  rw [← appended]
  exact List.getElem?_append_left (List.getElem?_eq_some_iff.mp present).1 ▸ present

/-- A value stays where it is. -/
theorem value_eq
    (extended : first.ExtendedBy second)
    {offset : Nat}
    {value : Element field}
    (recorded : first.value? offset = some value) :
    second.value? offset = some value := by
  obtain ⟨row, present, rfl⟩ := Option.map_eq_some_iff.mp recorded
  exact Option.map_eq_some_iff.mpr ⟨row, extended.row_eq present, rfl⟩

/-- Values that match the later transcript match the earlier one. -/
theorem matchedBy
    (extended : first.ExtendedBy second)
    {assignment : Nat → Element field}
    (matched : second.MatchedBy assignment) :
    first.MatchedBy assignment :=
  fun offset value recorded => matched offset value (extended.value_eq recorded)

end ExtendedBy

/-- A gate starts exactly at the rows that say so. -/
theorem mem_gates_iff {transcript : Transcript field} {offset : Nat} :
    offset ∈ transcript.gates ↔
      ∃ row, transcript.rows[offset]? = some row ∧ row.gate = true := by
  simp only [gates, List.mem_filterMap, Prod.exists, List.mem_zipIdx_iff_getElem?,
    Array.getElem?_toList]
  constructor
  · rintro ⟨row, index, present, started⟩
    split at started
    next gated =>
      obtain rfl := Option.some.inj started
      exact ⟨row, present, gated⟩
    next => cases started
  · rintro ⟨row, present, gated⟩
    exact ⟨row, offset, present, by simp [gated]⟩

/-- What satisfies a later transcript satisfies an earlier one. -/
theorem ExtendedBy.satisfiedBy
    {earlier later : Transcript field}
    (extended : earlier.ExtendedBy later)
    {assignment : Nat → Element field}
    (satisfied : later.SatisfiedBy assignment) :
    earlier.SatisfiedBy assignment where
  gates offset member := by
    obtain ⟨row, present, gated⟩ := mem_gates_iff.mp member
    exact satisfied.gates offset (mem_gates_iff.mpr ⟨row, extended.row_eq present, gated⟩)
  copies pair member := satisfied.copies pair (extended.copies.subset member)
  constants entry member := satisfied.constants entry (extended.constants.subset member)

/-- An entry appends its value and whether a gate starts at it. -/
theorem rows_push (transcript : Transcript field) (entry : Entry field) :
    (transcript.push entry).rows = transcript.rows.push ⟨entry.source.value, entry.gate⟩ := by
  obtain ⟨source, gate⟩ := entry
  cases source <;> rfl

@[simp] theorem rows_tie (transcript : Transcript field) (left right : Nat) :
    (transcript.tie left right).rows = transcript.rows := rfl

/-- An entry is laid out behind what was there before. -/
theorem extendedBy_push (transcript : Transcript field) (entry : Entry field) :
    transcript.ExtendedBy (transcript.push entry) := by
  obtain ⟨source, gate⟩ := entry
  cases source <;>
    constructor <;> simp [push]

/-- A copy is recorded behind what was there before. -/
theorem extendedBy_tie (transcript : Transcript field) (left right : Nat) :
    transcript.ExtendedBy (transcript.tie left right) := by
  constructor <;> simp [tie]

/-- The gates after a push are those before, and the new one if there is one. -/
theorem mem_gates_push {transcript : Transcript field} {entry : Entry field} {offset : Nat} :
    offset ∈ (transcript.push entry).gates ↔
      offset ∈ transcript.gates ∨ offset = transcript.size ∧ entry.gate = true := by
  simp only [mem_gates_iff, rows_push, Array.getElem?_push]
  by_cases last : offset = transcript.rows.size
  · subst last
    simp [size]
  · simp [last, size]

/-- A pushed cell asks what its entry asks, and nothing else. -/
theorem satisfiedBy_push
    {transcript : Transcript field}
    {entry : Entry field}
    {assignment : Nat → Element field} :
    (transcript.push entry).SatisfiedBy assignment ↔
      transcript.SatisfiedBy assignment ∧ entry.HoldsAt assignment transcript.size := by
  constructor
  · intro satisfied
    refine ⟨(transcript.extendedBy_push entry).satisfiedBy satisfied, ?_, fun gated => ?_⟩
    · obtain ⟨source, gate⟩ := entry
      cases source with
      | existing cell =>
          exact satisfied.copies (transcript.size, cell.offset) (by simp [push, size])
      | witness value => trivial
      | constant value =>
          exact satisfied.constants (transcript.size, value) (by simp [push, size])
    · exact satisfied.gates _ (mem_gates_push.mpr (.inr ⟨rfl, gated⟩))
  · rintro ⟨satisfied, sourced, gated⟩
    refine ⟨fun offset member => ?_, fun pair member => ?_, fun pair member => ?_⟩
    · rcases mem_gates_push.mp member with earlier | ⟨rfl, gate⟩
      · exact satisfied.gates offset earlier
      · exact gated gate
    · obtain ⟨source, gate⟩ := entry
      cases source with
      | existing cell =>
          rcases Array.mem_push.mp (Array.mem_toList_iff.mp member) with earlier | rfl
          · exact satisfied.copies pair (Array.mem_toList_iff.mpr earlier)
          · exact sourced
      | witness value => exact satisfied.copies pair member
      | constant value => exact satisfied.copies pair member
    · obtain ⟨source, gate⟩ := entry
      cases source with
      | existing cell => exact satisfied.constants pair member
      | witness value => exact satisfied.constants pair member
      | constant value =>
          rcases Array.mem_push.mp (Array.mem_toList_iff.mp member) with earlier | rfl
          · exact satisfied.constants pair (Array.mem_toList_iff.mpr earlier)
          · exact sourced

/-- A tie asks that its cells are equal, and nothing else. -/
theorem satisfiedBy_tie
    {transcript : Transcript field}
    {left right : Nat}
    {assignment : Nat → Element field} :
    (transcript.tie left right).SatisfiedBy assignment ↔
      transcript.SatisfiedBy assignment ∧ assignment left = assignment right := by
  constructor
  · intro satisfied
    exact ⟨(transcript.extendedBy_tie left right).satisfiedBy satisfied,
      satisfied.copies (left, right) (by simp [tie])⟩
  · rintro ⟨satisfied, equal⟩
    refine ⟨satisfied.gates, fun pair member => ?_, satisfied.constants⟩
    rcases Array.mem_push.mp (Array.mem_toList_iff.mp member) with earlier | rfl
    · exact satisfied.copies pair (Array.mem_toList_iff.mpr earlier)
    · exact equal

/-- An assignment matches one more entry if it gives it the value of its source. -/
theorem matchedBy_push
    {transcript : Transcript field}
    {entry : Entry field}
    {assignment : Nat → Element field} :
    (transcript.push entry).MatchedBy assignment ↔
      transcript.MatchedBy assignment
        ∧ assignment transcript.size = entry.source.value := by
  constructor
  · intro matched
    refine ⟨(transcript.extendedBy_push entry).matchedBy matched, matched _ _ ?_⟩
    simp [value?, rows_push, size]
  · rintro ⟨matched, last⟩ offset value recorded
    simp only [value?, rows_push, Array.getElem?_push] at recorded
    split at recorded
    next isLast =>
      obtain rfl := Option.some.inj recorded
      exact isLast ▸ last
    next => exact matched offset value recorded

/-- A copy has no value to be matched. -/
theorem matchedBy_tie
    {transcript : Transcript field}
    {left right : Nat}
    {assignment : Nat → Element field} :
    (transcript.tie left right).MatchedBy assignment ↔ transcript.MatchedBy assignment :=
  Iff.rfl

/-- The cells of consecutive entries. -/
def pushAll (transcript : Transcript field) (entries : List (Entry field)) : Transcript field :=
  entries.foldl push transcript

/-- The ties of a block that was laid at an offset. -/
def tieAll (transcript : Transcript field) (base : Nat) (ties : List (Nat × Nat)) :
    Transcript field :=
  ties.foldl (fun transcript (left, right) => transcript.tie (base + left) (base + right))
    transcript

/-- A block is laid out entry by entry, and then its cells are tied. -/
theorem lay_eq (transcript : Transcript field) (block : Block field) :
    transcript.lay block =
      (transcript.pushAll block.entries).tieAll transcript.size block.ties := rfl

/-- Entries are laid out behind what was there before. -/
theorem extendedBy_pushAll (transcript : Transcript field) (entries : List (Entry field)) :
    transcript.ExtendedBy (transcript.pushAll entries) := by
  induction entries generalizing transcript with
  | nil => exact .refl transcript
  | cons entry rest inductionHypothesis =>
      exact (transcript.extendedBy_push entry).trans
        (inductionHypothesis (transcript.push entry))

/-- Copies are recorded behind what was there before. -/
theorem extendedBy_tieAll (transcript : Transcript field) (base : Nat) (ties : List (Nat × Nat)) :
    transcript.ExtendedBy (transcript.tieAll base ties) := by
  induction ties generalizing transcript with
  | nil => exact .refl transcript
  | cons tie rest inductionHypothesis =>
      exact (transcript.extendedBy_tie _ _).trans (inductionHypothesis _)

/-- A block leaves everything else in place. -/
theorem extendedBy_lay (transcript : Transcript field) (block : Block field) :
    transcript.ExtendedBy (transcript.lay block) :=
  (transcript.extendedBy_pushAll block.entries).trans (extendedBy_tieAll _ _ _)

/-- An assignment satisfies more entries if they hold from the first new offset on. -/
theorem satisfiedBy_pushAll
    {transcript : Transcript field}
    {entries : List (Entry field)}
    {assignment : Nat → Element field} :
    (transcript.pushAll entries).SatisfiedBy assignment ↔
      transcript.SatisfiedBy assignment
        ∧ Entry.AllHoldAt assignment transcript.size entries := by
  induction entries generalizing transcript with
  | nil => simp [pushAll, Entry.AllHoldAt]
  | cons entry rest inductionHypothesis =>
      change ((transcript.push entry).pushAll rest).SatisfiedBy assignment ↔ _
      rw [inductionHypothesis, satisfiedBy_push, size_push, and_assoc]
      rfl

/-- An assignment satisfies more copies if both of their cells have the same value. -/
theorem satisfiedBy_tieAll
    {transcript : Transcript field}
    {base : Nat}
    {ties : List (Nat × Nat)}
    {assignment : Nat → Element field} :
    (transcript.tieAll base ties).SatisfiedBy assignment ↔
      transcript.SatisfiedBy assignment
        ∧ ∀ tie ∈ ties, assignment (base + tie.1) = assignment (base + tie.2) := by
  induction ties generalizing transcript with
  | nil => simp [tieAll]
  | cons tie rest inductionHypothesis =>
      change ((transcript.tie _ _).tieAll base rest).SatisfiedBy assignment ↔ _
      rw [inductionHypothesis, satisfiedBy_tie, and_assoc, List.forall_mem_cons]

/-- A block asks what it asks where it was laid, and nothing else. -/
theorem satisfiedBy_lay
    {transcript : Transcript field}
    {block : Block field}
    {assignment : Nat → Element field} :
    (transcript.lay block).SatisfiedBy assignment ↔
      transcript.SatisfiedBy assignment ∧ block.HoldsAt assignment transcript.size := by
  rw [lay_eq, satisfiedBy_tieAll, satisfiedBy_pushAll, and_assoc]
  rfl

/-- An assignment matches more entries if it gives them the values of their sources. -/
theorem matchedBy_pushAll
    {transcript : Transcript field}
    {entries : List (Entry field)}
    {assignment : Nat → Element field} :
    (transcript.pushAll entries).MatchedBy assignment ↔
      transcript.MatchedBy assignment
        ∧ Entry.AllMatchAt assignment transcript.size entries := by
  induction entries generalizing transcript with
  | nil => simp [pushAll, Entry.AllMatchAt]
  | cons entry rest inductionHypothesis =>
      change ((transcript.push entry).pushAll rest).MatchedBy assignment ↔ _
      rw [inductionHypothesis, matchedBy_push, size_push, and_assoc]
      rfl

/-- Copies have no value to be matched. -/
theorem matchedBy_tieAll
    {transcript : Transcript field}
    {base : Nat}
    {ties : List (Nat × Nat)}
    {assignment : Nat → Element field} :
    (transcript.tieAll base ties).MatchedBy assignment ↔ transcript.MatchedBy assignment := by
  induction ties generalizing transcript with
  | nil => rfl
  | cons tie rest inductionHypothesis =>
      change ((transcript.tie _ _).tieAll base rest).MatchedBy assignment ↔ _
      rw [inductionHypothesis, matchedBy_tie]

/-- The values match after a block if they did before, and the new ones are those of its entries. -/
theorem matchedBy_lay
    {transcript : Transcript field}
    {block : Block field}
    {assignment : Nat → Element field} :
    (transcript.lay block).MatchedBy assignment ↔
      transcript.MatchedBy assignment
        ∧ Entry.AllMatchAt assignment transcript.size block.entries := by
  rw [lay_eq, matchedBy_tieAll, matchedBy_pushAll]

/-- Entries append their values in order. -/
theorem rows_pushAll (transcript : Transcript field) (entries : List (Entry field)) :
    (transcript.pushAll entries).rows.toList =
      transcript.rows.toList ++ entries.map fun entry => ⟨entry.source.value, entry.gate⟩ := by
  induction entries generalizing transcript with
  | nil => simp [pushAll]
  | cons entry rest inductionHypothesis =>
      change ((transcript.push entry).pushAll rest).rows.toList = _
      rw [inductionHypothesis, rows_push]
      simp

@[simp] theorem rows_tieAll (transcript : Transcript field) (base : Nat) (ties : List (Nat × Nat)) :
    (transcript.tieAll base ties).rows = transcript.rows := by
  induction ties generalizing transcript with
  | nil => rfl
  | cons tie rest inductionHypothesis => exact inductionHypothesis (transcript.tie _ _)

/-- A block adds the rows of its entries in order. -/
theorem rows_lay (transcript : Transcript field) (block : Block field) :
    (transcript.lay block).rows.toList =
      transcript.rows.toList
        ++ block.entries.map fun entry => ⟨entry.source.value, entry.gate⟩ := by
  rw [lay_eq, rows_tieAll, rows_pushAll]

/-- A new cell has the value of its entry. -/
theorem value?_lay
    (transcript : Transcript field)
    {block : Block field}
    {position : Nat}
    {entry : Entry field}
    (present : block.entries[position]? = some entry) :
    (transcript.lay block).value? (transcript.size + position) = some entry.source.value := by
  have past : transcript.rows.toList.length ≤ transcript.size + position := by
    simp [size]
  rw [value?, ← Array.getElem?_toList, rows_lay, List.getElem?_append_right past]
  simp [size, present]

/-- Every copy is between cells that there are. -/
def CopiesInside (transcript : Transcript field) : Prop :=
  ∀ pair ∈ transcript.copies.toList,
    pair.1 < transcript.size ∧ pair.2 < transcript.size

/-- Entries whose sources were laid out before copy from cells that are there. -/
theorem CopiesInside.pushAll
    {transcript : Transcript field}
    (inside : transcript.CopiesInside)
    {entries : List (Entry field)}
    (sources : ∀ entry ∈ entries, ∀ cell, entry.source = .existing cell →
      cell.offset < transcript.size) :
    (transcript.pushAll entries).CopiesInside := by
  induction entries generalizing transcript with
  | nil => exact inside
  | cons entry rest inductionHypothesis =>
      refine inductionHypothesis ?_ fun later member cell existing => ?_
      · intro pair member
        rw [size_push]
        obtain ⟨source, gate⟩ := entry
        cases source with
        | existing cell =>
            have earlierCell := sources _ List.mem_cons_self cell rfl
            rcases Array.mem_push.mp (Array.mem_toList_iff.mp member) with earlier | rfl
            · have := inside pair (Array.mem_toList_iff.mpr earlier)
              omega
            · change transcript.size < _ ∧ cell.offset < _
              omega
        | witness value => have := inside pair member; omega
        | constant value => have := inside pair member; omega
      · have := sources later (List.mem_cons_of_mem entry member) cell existing
        rw [size_push]
        omega

/-- A copy between cells that are there is inside. -/
theorem CopiesInside.tie
    {transcript : Transcript field}
    (inside : transcript.CopiesInside)
    {left right : Nat}
    (leftInside : left < transcript.size)
    (rightInside : right < transcript.size) :
    (transcript.tie left right).CopiesInside := by
  intro pair member
  rcases Array.mem_push.mp (Array.mem_toList_iff.mp member) with earlier | rfl
  · exact inside pair (Array.mem_toList_iff.mpr earlier)
  · exact ⟨leftInside, rightInside⟩

/-- Copies between cells that are there are inside. -/
theorem CopiesInside.tieAll
    {transcript : Transcript field}
    (inside : transcript.CopiesInside)
    {base : Nat}
    {ties : List (Nat × Nat)}
    (tiesInside : ∀ tie ∈ ties,
      base + tie.1 < transcript.size ∧ base + tie.2 < transcript.size) :
    (transcript.tieAll base ties).CopiesInside := by
  induction ties generalizing transcript with
  | nil => exact inside
  | cons tie rest inductionHypothesis =>
      have first := tiesInside tie List.mem_cons_self
      exact inductionHypothesis (inside.tie first.1 first.2) fun later member =>
        tiesInside later (List.mem_cons_of_mem tie member)

/-- A block keeps copies inside if its sources are cells that there are and its ties are its own. -/
theorem CopiesInside.lay
    {transcript : Transcript field}
    (inside : transcript.CopiesInside)
    {block : Block field}
    (sources : ∀ entry ∈ block.entries, ∀ cell, entry.source = .existing cell →
      cell.offset < transcript.size)
    (ties : ∀ tie ∈ block.ties,
      tie.1 < block.entries.length ∧ tie.2 < block.entries.length) :
    (transcript.lay block).CopiesInside := by
  refine (inside.pushAll sources).tieAll fun tie member => ?_
  have size : (transcript.pushAll block.entries).size =
      transcript.size + block.entries.length :=
    size_lay transcript ⟨block.entries, []⟩
  have := ties tie member
  omega

end Transcript

end Plonkish
