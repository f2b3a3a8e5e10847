import Plonkish.Proofs.Circuit.Soundness

namespace Plonkish

/-!
# Evaluation

What a computation makes of the cells that it takes, whoever chose their values.

A valuation gives every cell a value. It is faithful to what was laid out between
two transcripts if it gives the cells the values of their handles, or if it
takes the values from an assignment that satisfies all that was recorded in
between. What holds in every faithful valuation thus holds of the values that are
computed along with the layout, and also of any other values that pass the
constraints, those of the operands included.
-/

/-- What every cell holds. -/
abbrev Valuation (field : PrimeField) := Cell field → Element field

/-- The valuation that takes the value of a cell from an assignment. -/
def Valuation.ofAssignment
    {field : PrimeField}
    (assignment : Nat → Element field) :
    Valuation field :=
  fun cell => assignment cell.offset

namespace Transcript

variable {field : PrimeField}

/-- Every constraint holds that was recorded after an earlier transcript. -/
structure SatisfiedSince
    (earlier later : Transcript field)
    (assignment : Nat → Element field) :
    Prop where
  gates : ∀ offset ∈ later.gates, earlier.size ≤ offset → GateHolds assignment offset
  copies : ∀ pair ∈ later.copies.toList.drop earlier.copies.size,
    assignment pair.1 = assignment pair.2
  constants : ∀ entry ∈ later.constants.toList.drop earlier.constants.size,
    assignment entry.1 = entry.2

instance (earlier later : Transcript field) (assignment : Nat → Element field) :
    Decidable (earlier.SatisfiedSince later assignment) :=
  decidable_of_iff
    ((∀ offset ∈ later.gates, earlier.size ≤ offset → GateHolds assignment offset)
      ∧ (∀ pair ∈ later.copies.toList.drop earlier.copies.size,
          assignment pair.1 = assignment pair.2)
      ∧ ∀ entry ∈ later.constants.toList.drop earlier.constants.size,
          assignment entry.1 = entry.2)
    ⟨fun ⟨gates, copies, constants⟩ => ⟨gates, copies, constants⟩,
      fun satisfied => ⟨satisfied.gates, satisfied.copies, satisfied.constants⟩⟩

/-- What satisfies a transcript satisfies what was recorded last. -/
theorem SatisfiedBy.since
    {later : Transcript field}
    {assignment : Nat → Element field}
    (satisfied : later.SatisfiedBy assignment)
    (earlier : Transcript field) :
    earlier.SatisfiedSince later assignment where
  gates offset member _ := satisfied.gates offset member
  copies pair member := satisfied.copies pair (List.mem_of_mem_drop member)
  constants entry member := satisfied.constants entry (List.mem_of_mem_drop member)

namespace SatisfiedSince

variable {first second third : Transcript field} {assignment : Nat → Element field}

/-- The constraints of the first of two parts are among those of both. -/
theorem before
    (satisfied : first.SatisfiedSince third assignment)
    (later : second.ExtendedBy third) :
    first.SatisfiedSince second assignment where
  gates offset member past := by
    obtain ⟨row, present, gated⟩ := mem_gates_iff.mp member
    exact satisfied.gates offset (mem_gates_iff.mpr ⟨row, later.row_eq present, gated⟩) past
  copies pair member := satisfied.copies pair ((later.copies.drop _).subset member)
  constants entry member := satisfied.constants entry ((later.constants.drop _).subset member)

/-- The constraints of the second of two parts are among those of both. -/
theorem after
    (satisfied : first.SatisfiedSince third assignment)
    (earlier : first.ExtendedBy second) :
    second.SatisfiedSince third assignment where
  gates offset member past := by
    refine satisfied.gates offset member (Nat.le_trans ?_ past)
    exact earlier.rows.length_le
  copies pair member := by
    refine satisfied.copies pair ((List.drop_sublist_drop_left _ ?_).subset member)
    exact earlier.copies.length_le
  constants entry member := by
    refine satisfied.constants entry ((List.drop_sublist_drop_left _ ?_).subset member)
    exact earlier.constants.length_le

/-- A pushed cell asks what its entry asks. -/
theorem push
    {transcript : Transcript field}
    {entry : Entry field}
    (satisfied : transcript.SatisfiedSince (transcript.push entry) assignment) :
    entry.HoldsAt assignment transcript.size := by
  refine ⟨?_, fun gated => ?_⟩
  · obtain ⟨source, gate⟩ := entry
    cases source with
    | existing cell =>
        exact satisfied.copies (transcript.size, cell.offset) (by simp [Transcript.push, size])
    | witness value => trivial
    | constant value =>
        exact satisfied.constants (transcript.size, value) (by simp [Transcript.push, size])
  · exact satisfied.gates _ (mem_gates_push.mpr (.inr ⟨rfl, gated⟩)) (Nat.le_refl _)

/-- Entries that were appended hold if everything since is satisfied. -/
theorem pushAll
    {transcript : Transcript field}
    {entries : List (Entry field)}
    (satisfied : transcript.SatisfiedSince (transcript.pushAll entries) assignment) :
    Entry.AllHoldAt assignment transcript.size entries := by
  induction entries generalizing transcript with
  | nil => trivial
  | cons entry rest inductionHypothesis =>
      have pushed := (satisfied.before (extendedBy_pushAll (transcript.push entry) rest)).push
      have later := inductionHypothesis (satisfied.after (transcript.extendedBy_push entry))
      rw [size_push] at later
      exact ⟨pushed, later⟩

/-- A tie asks that its cells are equal. -/
theorem tie
    {transcript : Transcript field}
    {left right : Nat}
    (satisfied : transcript.SatisfiedSince (transcript.tie left right) assignment) :
    assignment left = assignment right :=
  satisfied.copies (left, right) (by simp [Transcript.tie])

/-- Copies that were appended hold if everything since is satisfied. -/
theorem tieAll
    {transcript : Transcript field}
    {base : Nat}
    {ties : List (Nat × Nat)}
    (satisfied : transcript.SatisfiedSince (transcript.tieAll base ties) assignment) :
    ∀ tie ∈ ties, assignment (base + tie.1) = assignment (base + tie.2) := by
  induction ties generalizing transcript with
  | nil => exact fun tie member => nomatch member
  | cons head rest inductionHypothesis =>
      have first := (satisfied.before (extendedBy_tieAll _ base rest)).tie
      have later := inductionHypothesis (satisfied.after (transcript.extendedBy_tie _ _))
      exact List.forall_mem_cons.mpr ⟨first, later⟩

/-- A block asks what it asks where it was laid, whatever was recorded before it. -/
theorem lay
    {transcript : Transcript field}
    {block : Block field}
    (satisfied : transcript.SatisfiedSince (transcript.lay block) assignment) :
    block.HoldsAt assignment transcript.size :=
  ⟨(satisfied.before (extendedBy_tieAll _ _ _)).pushAll,
    (satisfied.after (transcript.extendedBy_pushAll block.entries)).tieAll⟩

end SatisfiedSince

end Transcript

namespace Valuation

variable {field : PrimeField}

/--
The two ways to read what was laid out between two transcripts.

The values are those of the handles, or those of any assignment that satisfies
the constraints in between.
-/
inductive Faithful (earlier later : Transcript field) : Valuation field → Prop where
  | handles : Faithful earlier later Cell.value
  | assigned {assignment : Nat → Element field}
      (satisfied : earlier.SatisfiedSince later assignment) :
      Faithful earlier later (ofAssignment assignment)

variable {read : Valuation field} {first second third : Transcript field}

/-- What is faithful to all that was laid out is faithful to the earlier part. -/
theorem Faithful.before
    (faithful : Faithful first third read)
    (later : second.ExtendedBy third) :
    Faithful first second read := by
  cases faithful with
  | handles => exact .handles
  | assigned satisfied => exact .assigned (satisfied.before later)

/-- What is faithful to all that was laid out is faithful to the later part. -/
theorem Faithful.after
    (faithful : Faithful first third read)
    (earlier : first.ExtendedBy second) :
    Faithful second third read := by
  cases faithful with
  | handles => exact .handles
  | assigned satisfied => exact .assigned (satisfied.after earlier)

end Valuation

namespace Source

variable {field : PrimeField}

/-- The value of a new cell in a valuation of the earlier ones. -/
def readBy (read : Valuation field) : Source field → Element field
  | .existing cell => read cell
  | .witness value => value
  | .constant value => value

@[simp] theorem readBy_existing (read : Valuation field) (cell : Cell field) :
    (existing cell).readBy read = read cell := rfl

@[simp] theorem readBy_constant (read : Valuation field) (value : Element field) :
    (constant value).readBy read = value := rfl

/-- The values of the handles are read by the values of the sources. -/
theorem readBy_handles (source : Source field) : source.readBy Cell.value = source.value := by
  cases source <;> rfl

/-- A new cell holds what its source is read as, unless that is left open. -/
theorem HoldsAt.eq_readBy
    {assignment : Nat → Element field}
    {offset : Nat}
    {source : Source field}
    (holds : source.HoldsAt assignment offset)
    (fixed : source.Fixed) :
    assignment offset = source.readBy (.ofAssignment assignment) := by
  cases source with
  | existing cell => exact holds
  | witness value => exact fixed.elim
  | constant value => exact holds

end Source

namespace Synthesis

variable {field : PrimeField} {read : Valuation field}

/-- A computation only appends, and in a faithful valuation its result means what it should. -/
structure Computes
    (read : Valuation field)
    (synthesis : Synthesis field α)
    (meaning : α → Prop) :
    Prop where
  extended : ∀ transcript : Transcript field, transcript.ExtendedBy (synthesis transcript).2
  holds : ∀ transcript : Transcript field,
    Valuation.Faithful transcript (synthesis transcript).2 read → meaning (synthesis transcript).1

namespace Computes

/-- A known result means what it means without any cell. -/
theorem pure
    {result : α}
    {meaning : α → Prop}
    (means : meaning result) :
    Computes read (Pure.pure result) meaning where
  extended transcript := .refl transcript
  holds _ _ := means

/-- A result may be said to mean anything that follows. -/
theorem imp
    {synthesis : Synthesis field α}
    {meaning weaker : α → Prop}
    (computes : Computes read synthesis meaning)
    (implies : ∀ result, meaning result → weaker result) :
    Computes read synthesis weaker where
  extended := computes.extended
  holds transcript faithful := implies _ (computes.holds transcript faithful)

/-- What the result of one computation means may be used for that of the next. -/
theorem bind
    {first : Synthesis field α}
    {next : α → Synthesis field β}
    {between : α → Prop}
    {meaning : β → Prop}
    (firstComputes : Computes read first between)
    (nextComputes : ∀ result, Computes read (next result) fun final =>
      between result → meaning final) :
    Computes read (first >>= next) meaning where
  extended transcript :=
    (firstComputes.extended transcript).trans ((nextComputes _).extended (first transcript).2)
  holds transcript faithful := by
    have earlier := firstComputes.extended transcript
    have later := (nextComputes (first transcript).1).extended (first transcript).2
    exact (nextComputes _).holds _ (faithful.after earlier)
      (firstComputes.holds transcript (faithful.before later))

/-- A cell of a block is read as its own value says, and as the block forces it to be. -/
theorem placed
    {entries : List (Entry field)}
    {ties : List (Nat × Nat)}
    {position : Nat}
    {value : Element field}
    {formula : Valuation field → Element field}
    (own : value = formula Cell.value)
    (forced : ∀ assignment base, (Block.mk entries ties).HoldsAt assignment base →
      assignment (base + position) = formula (.ofAssignment assignment)) :
    Computes read
      (do
        let base ← Synthesis.lay entries ties
        return Cell.mk (base + position) value)
      (fun cell => read cell = formula read) where
  extended transcript := transcript.extendedBy_lay ⟨entries, ties⟩
  holds transcript faithful := by
    cases faithful with
    | handles => exact own
    | assigned satisfied => exact forced _ _ satisfied.lay

/-- The first cell of a block is read as its own value says, and as the block forces it to be. -/
theorem placedFirst
    {entries : List (Entry field)}
    {ties : List (Nat × Nat)}
    {value : Element field}
    {formula : Valuation field → Element field}
    (own : value = formula Cell.value)
    (forced : ∀ assignment base, (Block.mk entries ties).HoldsAt assignment base →
      assignment base = formula (.ofAssignment assignment)) :
    Computes read
      (do
        let base ← Synthesis.lay entries ties
        return Cell.mk base value)
      (fun cell => read cell = formula read) :=
  @placed _ _ _ _ 0 _ _ own forced

end Computes

end Synthesis

namespace Assembly

variable {field : PrimeField} {read : Valuation field}

/-- Where a computation has a result, this means what it should in a faithful valuation. -/
def Computes
    (read : Valuation field)
    (assembly : Assembly field α)
    (meaning : α → Prop) :
    Prop :=
  Synthesis.Computes read assembly.run fun
    | .ok result => meaning result
    | .error _ => True

namespace Computes

/-- A known result means what it means without any cell. -/
theorem pure
    {result : α}
    {meaning : α → Prop}
    (means : meaning result) :
    Computes read (Pure.pure result : Assembly field α) meaning :=
  Synthesis.Computes.pure means

/-- Computations that cannot fail mean the same among those that can. -/
theorem lift
    {synthesis : Synthesis field α}
    {meaning : α → Prop}
    (computes : Synthesis.Computes read synthesis meaning) :
    Computes read (liftM synthesis : Assembly field α) meaning where
  extended := computes.extended
  holds := computes.holds

/-- A refusal has no result to mean anything. -/
theorem refuse {failure : CircuitFailure} {meaning : α → Prop} :
    Computes read (Assembly.refuse failure) meaning :=
  Synthesis.Computes.pure trivial

/-- Giving up has no result to mean anything. -/
theorem crash {meaning : α → Prop} : Computes read Assembly.crash meaning :=
  Synthesis.Computes.pure trivial

/-- What a result means implies what follows from it. -/
theorem imp
    {assembly : Assembly field α}
    {meaning weaker : α → Prop}
    (computes : Computes read assembly meaning)
    (implies : ∀ result, meaning result → weaker result) :
    Computes read assembly weaker :=
  Synthesis.Computes.imp computes fun
    | .ok result => implies result
    | .error _ => id

/--
A result of the second computation means what it does if one of the first means
enough for it.
-/
theorem bind
    {first : Assembly field α}
    {next : α → Assembly field β}
    {between : α → Prop}
    {meaning : β → Prop}
    (firstComputes : Computes read first between)
    (nextComputes : ∀ result, Computes read (next result) fun final =>
      between result → meaning final) :
    Computes read (first >>= next) meaning := by
  unfold Computes
  rw [ExceptT.run_bind]
  refine Synthesis.Computes.bind firstComputes fun result => ?_
  cases result with
  | ok result =>
      refine Synthesis.Computes.imp (nextComputes result) fun final => ?_
      cases final with
      | ok final => exact id
      | error stop => exact fun _ _ => trivial
  | error stop => exact Synthesis.Computes.pure fun _ => trivial

/-- What a result means, where there is one. -/
theorem of_ok
    {assembly : Assembly field α}
    {meaning : α → Prop}
    (computes : Computes read assembly meaning)
    {transcript after : Transcript field}
    {result : α}
    (gives : assembly.run transcript = (.ok result, after))
    (faithful : Valuation.Faithful transcript after read) :
    meaning result := by
  have holds := computes.holds transcript
  rw [gives] at holds
  exact holds faithful

end Computes

end Assembly

/-! ## Values that satisfy what was laid out -/

namespace Transcript

variable {field : PrimeField}

/-- The values of the cells, and zero where there is none. -/
def valueAt (transcript : Transcript field) (offset : Nat) : Element field :=
  (transcript.value? offset).getD 0

/-- The values of the cells match themselves. -/
theorem matchedBy_valueAt (transcript : Transcript field) :
    transcript.MatchedBy transcript.valueAt := by
  intro offset value held
  rw [valueAt, held]
  rfl

/-- Nothing but cells of the prover's choice. -/
def ofValues (values : List (Element field)) : Transcript field :=
  (Synthesis.witnesses values empty).2

/-- Cells of the prover's choice satisfy everything that is asked of them. -/
theorem consistent_ofValues (values : List (Element field)) :
    (ofValues values).Consistent := by
  have appended : ∀ transcript : Transcript field, transcript.Consistent →
      (Synthesis.witnesses values transcript).2.Consistent := by
    induction values with
    | nil => exact fun transcript consistent => consistent
    | cons value rest inductionHypothesis =>
        intro transcript consistent
        rw [Synthesis.witnesses, List.mapM_cons]
        exact inductionHypothesis _ (consistent.lay (Block.single_honest _) (by simp))
  exact appended empty consistent_empty

end Transcript

/--
The values that a sound computation works out satisfy the constraints that it
lays out, and the cells that it takes keep theirs.
-/
theorem Assembly.Sound.satisfiedSince
    {field : PrimeField}
    {cells : List (Cell field)}
    {assembly : Assembly field α}
    {outputs : α → Set (Cell field)}
    (sound : Sound {cell | cell ∈ cells} assembly outputs)
    {transcript after : Transcript field}
    {result : Except (Stop CircuitFailure) α}
    (gives : assembly.run transcript = (result, after))
    (consistent : transcript.Consistent)
    (recorded : ∀ cell ∈ cells, transcript.Records cell) :
    transcript.SatisfiedSince after after.valueAt
      ∧ ∀ cell ∈ cells, Valuation.ofAssignment after.valueAt cell = cell.value := by
  have stays := sound.synthesis.consistent transcript cells consistent fun cell known =>
    ⟨recorded cell known, fun assignment _ held => held cell known⟩
  have extended := sound.synthesis.extended transcript
  rw [gives] at stays extended
  refine ⟨(stays.satisfied _ after.matchedBy_valueAt).since transcript, fun cell known => ?_⟩
  exact after.matchedBy_valueAt _ _ (extended.value_eq (recorded cell known))

end Plonkish
