import Mathlib.Data.Set.Basic
import Plonkish.Circuit.Operation
import Plonkish.Proofs.Circuit.Tidiness
import Plonkish.Proofs.Field.Arithmetic

namespace Plonkish

/-!
# Settled cells

A cell is settled if it holds the value of its handle, and if every assignment
that satisfies the transcript and the exposed cells gives it that value. A
transcript is consistent if the values of its cells satisfy it.

A computation is sound for a set of cells if, wherever these are settled, it
keeps the transcript consistent and settles the cells that it gives. Sound
computations compose, so a gadget is sound if its operations are.
-/

namespace Source

variable {field : PrimeField}

/-- A source that leaves the value of the new cell to nobody. -/
def Fixed : Source field → Prop
  | .existing _ => True
  | .witness _ => False
  | .constant _ => True

/-- A source that is settled wherever some cells are settled. -/
def KnownTo (known : Set (Cell field)) : Source field → Prop
  | .existing cell => cell ∈ known
  | .witness _ => False
  | .constant _ => True

/-- A source that is known leaves no value to the prover. -/
theorem KnownTo.fixed
    {known : Set (Cell field)}
    {source : Source field}
    (isKnown : source.KnownTo known) :
    source.Fixed := by
  cases source with
  | existing cell => trivial
  | witness value => exact isKnown
  | constant value => trivial

/-- A cell that a known source copies is known. -/
theorem KnownTo.mem
    {known : Set (Cell field)}
    {source : Source field}
    (isKnown : source.KnownTo known)
    {cell : Cell field}
    (existing : source = .existing cell) :
    cell ∈ known := by
  subst existing
  exact isKnown

@[simp] theorem knownTo_existing {known : Set (Cell field)} {cell : Cell field} :
    (Source.existing cell).KnownTo known ↔ cell ∈ known := Iff.rfl

@[simp] theorem knownTo_constant {known : Set (Cell field)} {value : Element field} :
    (Source.constant value).KnownTo known := trivial

@[simp] theorem fixed_existing {cell : Cell field} : (Source.existing cell).Fixed := trivial

@[simp] theorem not_fixed_witness {value : Element field} : ¬(Source.witness value).Fixed := id

@[simp] theorem fixed_constant {value : Element field} : (Source.constant value).Fixed := trivial

@[simp] theorem value_existing (cell : Cell field) : (Source.existing cell).value = cell.value :=
  rfl

@[simp] theorem value_witness (value : Element field) : (Source.witness value).value = value := rfl

@[simp] theorem value_constant (value : Element field) : (Source.constant value).value = value :=
  rfl

end Source

namespace Entry

variable {field : PrimeField}

@[simp] theorem plain_source (source : Source field) : (plain source).source = source := rfl

@[simp] theorem plain_gate (source : Source field) : (plain source).gate = false := rfl

@[simp] theorem gated_source (source : Source field) : (gated source).source = source := rfl

@[simp] theorem gated_gate (source : Source field) : (gated source).gate = true := rfl

/-- The gates of consecutive entries hold. -/
@[simp] def GatesHoldAt (assignment : Nat → Element field) : Nat → List (Entry field) → Prop
  | _, [] => True
  | offset, entry :: rest =>
      (entry.gate = true → Transcript.GateHolds assignment offset)
        ∧ GatesHoldAt assignment (offset + 1) rest

/-- Consecutive values are those of the sources of entries, where these are fixed. -/
@[simp] def AllFixedAt (assignment : Nat → Element field) : Nat → List (Entry field) → Prop
  | _, [] => True
  | offset, entry :: rest =>
      (entry.source.Fixed → assignment offset = entry.source.value)
        ∧ AllFixedAt assignment (offset + 1) rest

/-- The cells to which entries are tied hold the values of their handles. -/
def SourcesHold (assignment : Nat → Element field) (entries : List (Entry field)) : Prop :=
  ∀ entry ∈ entries, ∀ cell, entry.source = .existing cell →
    assignment cell.offset = cell.value

/-- Entries hold with their own values, if their gates and their sources do. -/
theorem allHoldAt_of_match
    {assignment : Nat → Element field}
    {offset : Nat}
    {entries : List (Entry field)}
    (sources : SourcesHold assignment entries)
    (matched : AllMatchAt assignment offset entries)
    (gates : GatesHoldAt assignment offset entries) :
    AllHoldAt assignment offset entries := by
  induction entries generalizing offset with
  | nil => trivial
  | cons entry rest inductionHypothesis =>
      refine ⟨⟨?_, gates.1⟩,
        inductionHypothesis (fun later member => sources later (List.mem_cons_of_mem _ member))
          matched.2 gates.2⟩
      obtain ⟨source, gate⟩ := entry
      cases source with
      | existing cell =>
          exact matched.1.trans (sources _ List.mem_cons_self cell rfl).symm
      | witness value => trivial
      | constant value => exact matched.1

/-- Entries that hold give fixed values to their cells, if their sources hold. -/
theorem allFixedAt_of_hold
    {assignment : Nat → Element field}
    {offset : Nat}
    {entries : List (Entry field)}
    (sources : SourcesHold assignment entries)
    (holds : AllHoldAt assignment offset entries) :
    AllFixedAt assignment offset entries := by
  induction entries generalizing offset with
  | nil => trivial
  | cons entry rest inductionHypothesis =>
      refine ⟨fun fixed => ?_,
        inductionHypothesis (fun later member => sources later (List.mem_cons_of_mem _ member))
          holds.2⟩
      obtain ⟨source, gate⟩ := entry
      cases source with
      | existing cell =>
          exact holds.1.1.trans (sources _ List.mem_cons_self cell rfl)
      | witness value => exact fixed.elim
      | constant value => exact holds.1.1

/-- The gates of entries that hold do. -/
theorem gatesHoldAt_of_hold
    {assignment : Nat → Element field}
    {offset : Nat}
    {entries : List (Entry field)}
    (holds : AllHoldAt assignment offset entries) :
    GatesHoldAt assignment offset entries := by
  induction entries generalizing offset with
  | nil => trivial
  | cons entry rest inductionHypothesis =>
      exact ⟨holds.1.2, inductionHypothesis holds.2⟩

end Entry

namespace Block

variable {field : PrimeField}

/-- The ties of a block hold where it was laid. -/
@[simp] def TiesHoldAt (assignment : Nat → Element field) (base : Nat) (block : Block field) :
    Prop :=
  ∀ tie ∈ block.ties, assignment (base + tie.1) = assignment (base + tie.2)

/-- The values with which a block is laid satisfy its gates and ties, and no tie is made twice. -/
structure Honest (block : Block field) : Prop where
  ties_inside : ∀ tie ∈ block.ties,
    tie.1 < block.entries.length ∧ tie.2 < block.entries.length
  ties_forward : ∀ tie ∈ block.ties, tie.1 < tie.2
  ties_distinct : block.ties.Nodup
  gates : ∀ assignment base, Entry.AllMatchAt assignment base block.entries →
    Entry.GatesHoldAt assignment base block.entries
  ties : ∀ assignment base, Entry.AllMatchAt assignment base block.entries →
    block.TiesHoldAt assignment base

/-- A single cell at which no gate starts is honest. -/
theorem single_honest (source : Source field) : (Block.mk [.plain source] []).Honest where
  ties_inside := by simp
  ties_forward := by simp
  ties_distinct := by simp
  gates := by simp
  ties := by simp

/-- The fixed cells, gates and ties of a block leave one cell only one value. -/
structure Determines (block : Block field) (position : Nat) (value : Element field) : Prop where
  recorded : ∃ entry, block.entries[position]? = some entry ∧ entry.source.value = value
  forced : ∀ assignment base, Entry.AllFixedAt assignment base block.entries →
    Entry.GatesHoldAt assignment base block.entries → block.TiesHoldAt assignment base →
      assignment (base + position) = value

end Block

namespace Transcript

variable {field : PrimeField}

/-- A cell holds the value of its handle. -/
def Records (transcript : Transcript field) (cell : Cell field) : Prop :=
  transcript.value? cell.offset = some cell.value

instance (transcript : Transcript field) (cell : Cell field) :
    Decidable (transcript.Records cell) :=
  inferInstanceAs (Decidable (_ = _))

/-- Whatever satisfies a transcript and its exposed cells gives a cell the value of its handle. -/
def Forces
    (transcript : Transcript field)
    (exposed : List (Cell field))
    (cell : Cell field) :
    Prop :=
  ∀ assignment, transcript.SatisfiedBy assignment → Cell.AllHold assignment exposed →
    assignment cell.offset = cell.value

/-- A cell holds the value of its handle, and can hold no other. -/
structure Settles
    (transcript : Transcript field)
    (exposed : List (Cell field))
    (cell : Cell field) :
    Prop where
  recorded : transcript.Records cell
  forced : transcript.Forces exposed cell

/-- The values of the cells satisfy a transcript, and copies are between cells that there are. -/
structure Consistent (transcript : Transcript field) : Prop where
  inside : transcript.CopiesInside
  tidy : transcript.Tidy
  satisfied : ∀ assignment, transcript.MatchedBy assignment → transcript.SatisfiedBy assignment

/-- There is nothing to be satisfied in the empty transcript. -/
theorem consistent_empty : (empty : Transcript field).Consistent := by
  refine ⟨fun pair member => ?_, tidy_empty, fun assignment _ => ⟨fun offset member => ?_,
    fun pair member => ?_, fun entry member => ?_⟩⟩
  · simp [empty] at member
  · simp [empty, gates] at member
  · simp [empty] at member
  · simp [empty] at member

/-- A recorded cell is one of the cells of the transcript. -/
theorem Records.offset_lt
    {transcript : Transcript field}
    {cell : Cell field}
    (recorded : transcript.Records cell) :
    cell.offset < transcript.size := by
  obtain ⟨row, present, _⟩ := Option.map_eq_some_iff.mp recorded
  exact (Array.getElem?_eq_some_iff.mp present).1

/-- A settled cell stays settled when cells are laid out or exposed. -/
theorem Settles.mono
    {earlier later : Transcript field}
    {exposed more : List (Cell field)}
    {cell : Cell field}
    (settled : earlier.Settles exposed cell)
    (extended : earlier.ExtendedBy later)
    (exposedMore : exposed ⊆ more) :
    later.Settles more cell where
  recorded := extended.value_eq settled.recorded
  forced assignment satisfied held :=
    settled.forced assignment (extended.satisfiedBy satisfied)
      fun other member => held other (exposedMore member)

/-- An honest block on recorded cells keeps a transcript consistent. -/
theorem Consistent.lay
    {transcript : Transcript field}
    (consistent : transcript.Consistent)
    {block : Block field}
    (honest : block.Honest)
    (sources : ∀ entry ∈ block.entries, ∀ cell, entry.source = .existing cell →
      transcript.Records cell) :
    (transcript.lay block).Consistent := by
  have earlier : ∀ entry ∈ block.entries, ∀ cell, entry.source = .existing cell →
      cell.offset < transcript.size :=
    fun entry member cell existing => (sources entry member cell existing).offset_lt
  refine ⟨consistent.inside.lay earlier honest.ties_inside, ?_, fun assignment matched => ?_⟩
  · refine consistent.tidy.lay earlier (fun tie member => ?_) honest.ties_distinct
    exact ⟨honest.ties_forward tie member, (honest.ties_inside tie member).2⟩
  · obtain ⟨earlier, new⟩ := matchedBy_lay.mp matched
    have sourcesHold : Entry.SourcesHold assignment block.entries :=
      fun entry member cell existing => earlier _ _ (sources entry member cell existing)
    refine satisfiedBy_lay.mpr ⟨consistent.satisfied assignment earlier, ?_, ?_⟩
    · exact Entry.allHoldAt_of_match sourcesHold new (honest.gates assignment _ new)
    · exact honest.ties assignment _ new

/-- A cell of a block is settled if the block determines its value from settled cells. -/
theorem settles_lay
    {transcript : Transcript field}
    {exposed : List (Cell field)}
    {block : Block field}
    {position : Nat}
    {value : Element field}
    (determined : block.Determines position value)
    (sources : ∀ entry ∈ block.entries, ∀ cell, entry.source = .existing cell →
      transcript.Settles exposed cell) :
    (transcript.lay block).Settles exposed ⟨transcript.size + position, value⟩ where
  recorded := by
    obtain ⟨entry, present, rfl⟩ := determined.recorded
    exact value?_lay transcript present
  forced assignment satisfied held := by
    obtain ⟨earlier, entries, ties⟩ := satisfiedBy_lay.mp satisfied
    have sourcesHold : Entry.SourcesHold assignment block.entries :=
      fun entry member cell existing =>
        (sources entry member cell existing).forced assignment earlier held
    exact determined.forced assignment transcript.size
      (Entry.allFixedAt_of_hold sourcesHold entries)
      (Entry.gatesHoldAt_of_hold entries) ties

end Transcript

end Plonkish
