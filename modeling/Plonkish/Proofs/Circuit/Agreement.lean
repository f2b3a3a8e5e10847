import Mathlib.Data.List.Forall2
import Plonkish.Proofs.Circuit.Soundness

namespace Plonkish

/-!
# Agreeing circuits

Two runs of the same computation on different values lay out circuits of the
same shape. They have equally many cells, with the same gates and the same
constants, and tie equally many cells.

Which earlier cells are tied may depend on values, because a run can look up
cells by an address that it computed. So the relation between two runs has a
parameter: whether the runs are aligned. Only cells of aligned runs have to sit
at the same offset, and only aligned runs have to tie the same cells.
-/

variable {field : PrimeField} {aligned : Prop}

/-- If the runs are aligned, two cells sit at the same offset. -/
def Cell.Agrees (aligned : Prop) (left right : Cell field) : Prop :=
  aligned → left.offset = right.offset

/-- New cells are filled in the same way, and with the same constant if they are fixed. -/
def Source.Agrees (aligned : Prop) : Source field → Source field → Prop
  | .existing left, .existing right => left.Agrees aligned right
  | .witness _, .witness _ => True
  | .constant left, .constant right => left = right
  | _, _ => False

/-- New cells are filled in the same way and have the same gate. -/
def Entry.Agrees (aligned : Prop) (left right : Entry field) : Prop :=
  left.source.Agrees aligned right.source ∧ left.gate = right.gate

/-- What is laid out in two runs has the same shape. -/
structure Transcript.Agrees (aligned : Prop) (left right : Transcript field) : Prop where
  /-- There are equally many cells, with the same gates. -/
  gates : left.rows.toList.map Row.gate = right.rows.toList.map Row.gate
  constants : left.constants = right.constants
  copyCount : left.copies.size = right.copies.size
  copies : aligned → left.copies = right.copies

/-- Agreeing cells are agreeing operands. -/
theorem Cell.Agrees.source {left right : Cell field} (agrees : left.Agrees aligned right) :
    (Source.existing left).Agrees aligned (Source.existing right) :=
  agrees

namespace Source

@[simp] theorem agrees_existing {left right : Cell field} :
    (existing left).Agrees aligned (existing right) ↔ left.Agrees aligned right :=
  Iff.rfl

@[simp] theorem agrees_witness {left right : Element field} :
    (witness left).Agrees aligned (witness right) :=
  trivial

@[simp] theorem agrees_constant {left right : Element field} :
    (constant left).Agrees aligned (constant right) ↔ left = right :=
  Iff.rfl

end Source

namespace Entry

@[simp] theorem agrees_plain {left right : Source field} :
    (plain left).Agrees aligned (plain right) ↔ left.Agrees aligned right :=
  and_iff_left rfl

@[simp] theorem agrees_gated {left right : Source field} :
    (gated left).Agrees aligned (gated right) ↔ left.Agrees aligned right :=
  and_iff_left rfl

end Entry

namespace Transcript

namespace Agrees

variable {left right : Transcript field}

/-- Agreeing transcripts have equally many cells. -/
theorem size_eq (agrees : left.Agrees aligned right) : left.size = right.size := by
  have lengths := congrArg List.length agrees.gates
  rwa [List.length_map, List.length_map] at lengths

/-- Agreeing entries keep transcripts in agreement; an earlier cell is copied in both. -/
theorem push
    (agrees : left.Agrees aligned right)
    {entry other : Entry field}
    (entries : entry.Agrees aligned other) :
    (left.push entry).Agrees aligned (right.push other) := by
  have sizes := agrees.size_eq
  obtain ⟨source, gate⟩ := entry
  obtain ⟨otherSource, otherGate⟩ := other
  obtain ⟨sources, sameGate⟩ := entries
  obtain rfl : gate = otherGate := sameGate
  obtain ⟨gates, constants, copyCount, copies⟩ := agrees
  -- The three ways to fill a cell; in each, both runs record the same kind of fact.
  cases source with
  | existing cell =>
      cases otherSource with
      | existing otherCell =>
          refine ⟨by simp [Transcript.push, gates], constants, ?_, fun isAligned => ?_⟩
          · simp [Transcript.push, copyCount]
          · have offsets : cell.offset = otherCell.offset := sources isAligned
            change left.copies.push (left.size, cell.offset) =
              right.copies.push (right.size, otherCell.offset)
            rw [copies isAligned, sizes, offsets]
      | witness value => exact sources.elim
      | constant value => exact sources.elim
  | witness value =>
      cases otherSource with
      | existing otherCell => exact sources.elim
      | witness otherValue =>
          exact ⟨by simp [Transcript.push, gates], constants, copyCount, copies⟩
      | constant otherValue => exact sources.elim
  | constant value =>
      cases otherSource with
      | existing otherCell => exact sources.elim
      | witness otherValue => exact sources.elim
      | constant otherValue =>
          obtain rfl : value = otherValue := sources
          refine ⟨by simp [Transcript.push, gates], ?_, copyCount, copies⟩
          change left.constants.push (left.size, value) = right.constants.push (right.size, value)
          rw [constants, sizes]

/-- A copy between the same cells keeps transcripts in agreement. -/
theorem tie
    (agrees : left.Agrees aligned right)
    {first second otherFirst otherSecond : Nat}
    (firstSame : aligned → first = otherFirst)
    (secondSame : aligned → second = otherSecond) :
    (left.tie first second).Agrees aligned (right.tie otherFirst otherSecond) := by
  refine ⟨agrees.gates, agrees.constants, ?_, fun isAligned => ?_⟩
  · simp [Transcript.tie, agrees.copyCount]
  · simp [Transcript.tie, agrees.copies isAligned, firstSame isAligned, secondSame isAligned]

/-- Agreeing entries one after the other keep transcripts in agreement. -/
theorem pushAll
    (agrees : left.Agrees aligned right)
    {entries others : List (Entry field)}
    (same : List.Forall₂ (Entry.Agrees aligned) entries others) :
    (entries.foldl Transcript.push left).Agrees aligned
      (others.foldl Transcript.push right) := by
  induction same generalizing left right with
  | nil => exact agrees
  | cons head _ inductionHypothesis => exact inductionHypothesis (agrees.push head)

/-- The copies within a block are the same in both transcripts. -/
theorem tieAll
    (agrees : left.Agrees aligned right)
    (base : Nat)
    (ties : List (Nat × Nat)) :
    (ties.foldl (fun transcript (first, second) => transcript.tie (base + first) (base + second))
        left).Agrees aligned
      (ties.foldl (fun transcript (first, second) => transcript.tie (base + first) (base + second))
        right) := by
  induction ties generalizing left right with
  | nil => exact agrees
  | cons pair rest inductionHypothesis =>
      exact inductionHypothesis (agrees.tie (fun _ => rfl) (fun _ => rfl))

/-- Blocks of the same shape keep transcripts in agreement. -/
theorem lay
    (agrees : left.Agrees aligned right)
    {entries others : List (Entry field)}
    (same : List.Forall₂ (Entry.Agrees aligned) entries others)
    (ties : List (Nat × Nat)) :
    (left.lay ⟨entries, ties⟩).Agrees aligned (right.lay ⟨others, ties⟩) := by
  unfold Transcript.lay
  rw [agrees.size_eq]
  exact (agrees.pushAll same).tieAll right.size ties

end Agrees

end Transcript

/-! ## Computations that are run twice -/

/--
Two computations that both succeed give related results.

They start in states that are related in one way, and end in states that are
related in another.
-/
def SucceedAlike
    (before after : σ → σ → Prop)
    (left : ExceptT ε (StateM σ) α)
    (right : ExceptT ε (StateM σ) β)
    (related : α → β → Prop) :
    Prop :=
  ∀ first second, before first second →
    ∀ result later other otherLater,
      left.run first = (.ok result, later) → right.run second = (.ok other, otherLater) →
        related result other ∧ after later otherLater

namespace SucceedAlike

variable {before after : σ → σ → Prop}

/-- Related results that are known leave states related as they are. -/
theorem pure
    {result : α}
    {other : β}
    {related : α → β → Prop}
    (same : related result other) :
    SucceedAlike before before (Pure.pure result : ExceptT ε (StateM σ) α) (Pure.pure other)
      related := by
  intro first second states _ _ _ _ ran otherRan
  cases ran
  cases otherRan
  exact ⟨same, states⟩

/--
Two pairs of computations succeed alike if the first ones do, and the second ones
on their results.
-/
theorem bind
    {middle : σ → σ → Prop}
    {left : ExceptT ε (StateM σ) α}
    {right : ExceptT ε (StateM σ) β}
    {next : α → ExceptT ε (StateM σ) γ}
    {otherNext : β → ExceptT ε (StateM σ) δ}
    {between : α → β → Prop}
    {related : γ → δ → Prop}
    (first : SucceedAlike before middle left right between)
    (later : ∀ result other, between result other →
      SucceedAlike middle after (next result) (otherNext other) related) :
    SucceedAlike before after (left >>= next) (right >>= otherNext) related := by
  intro start otherStart states _ _ _ _ ran otherRan
  rw [run_bind] at ran otherRan
  rcases ended : left.run start with ⟨stop | result, afterFirst⟩
  · rw [ended] at ran
    cases ran
  rcases otherEnded : right.run otherStart with ⟨stop | other, otherAfterFirst⟩
  · rw [otherEnded] at otherRan
    cases otherRan
  rw [ended] at ran
  rw [otherEnded] at otherRan
  obtain ⟨results, middles⟩ := first start otherStart states _ _ _ _ ended otherEnded
  exact later result other results _ _ middles _ _ _ _ ran otherRan

/-- Nothing is asked of two computations of which the first fails. -/
theorem throw
    {stop : ε}
    {right : ExceptT ε (StateM σ) β}
    {related : α → β → Prop} :
    SucceedAlike before after (MonadExcept.throw stop : ExceptT ε (StateM σ) α) right related := by
  intro _ _ _ _ _ _ _ ran
  cases ran

/-- Nothing is asked of two computations of which the second fails. -/
theorem throwRight
    {stop : ε}
    {left : ExceptT ε (StateM σ) α}
    {related : α → β → Prop} :
    SucceedAlike before after left (MonadExcept.throw stop : ExceptT ε (StateM σ) β) related := by
  intro _ _ _ _ _ _ _ _ otherRan
  cases otherRan

/-- Two computations that succeed alike do so wherever more is known of their states. -/
theorem strengthen
    {stronger : σ → σ → Prop}
    {left : ExceptT ε (StateM σ) α}
    {right : ExceptT ε (StateM σ) β}
    {related : α → β → Prop}
    (alike : SucceedAlike before after left right related)
    (implies : ∀ first second, stronger first second → before first second) :
    SucceedAlike stronger after left right related :=
  fun first second states => alike first second (implies first second states)

end SucceedAlike

namespace Synthesis

/-- From agreeing transcripts, two computations give related results and agreeing transcripts. -/
def Alike
    (aligned : Prop)
    (left : Synthesis field α)
    (right : Synthesis field β)
    (related : α → β → Prop) :
    Prop :=
  ∀ first second : Transcript field, first.Agrees aligned second →
    related (left first).1 (right second).1
      ∧ (left first).2.Agrees aligned (right second).2

namespace Alike

/-- Related results that are known lay out nothing. -/
theorem pure
    {result : α}
    {other : β}
    {related : α → β → Prop}
    (same : related result other) :
    Alike aligned (Pure.pure result : Synthesis field α) (Pure.pure other) related :=
  fun _ _ agrees => ⟨same, agrees⟩

/--
Two pairs of computations lay out alike if the first ones do, and the second ones
on their results.
-/
theorem bind
    {left : Synthesis field α}
    {right : Synthesis field β}
    {next : α → Synthesis field γ}
    {otherNext : β → Synthesis field δ}
    {between : α → β → Prop}
    {related : γ → δ → Prop}
    (first : Alike aligned left right between)
    (later : ∀ result other, between result other →
      Alike aligned (next result) (otherNext other) related) :
    Alike aligned (left >>= next) (right >>= otherNext) related := by
  intro start second agrees
  obtain ⟨middles, between⟩ := first start second agrees
  exact later _ _ middles _ _ between

/-- Blocks of the same shape are laid out at the same offset. -/
theorem lay
    {entries others : List (Entry field)}
    {ties : List (Nat × Nat)}
    (same : List.Forall₂ (Entry.Agrees aligned) entries others) :
    Alike aligned (Synthesis.lay entries ties) (Synthesis.lay others ties) Eq :=
  fun _ _ agrees => ⟨agrees.size_eq, agrees.lay same ties⟩

/-- Cells at the same place in blocks of the same shape agree. -/
theorem placed
    {entries others : List (Entry field)}
    {ties : List (Nat × Nat)}
    {position otherPosition : Nat}
    {value otherValue : Element field}
    (same : List.Forall₂ (Entry.Agrees aligned) entries others)
    (positions : position = otherPosition) :
    Alike aligned
      (do
        let base ← Synthesis.lay entries ties
        return Cell.mk (base + position) value)
      (do
        let base ← Synthesis.lay others ties
        return Cell.mk (base + otherPosition) otherValue)
      (Cell.Agrees aligned) := by
  apply (lay same).bind
  intro base otherBase bases
  apply pure
  intro _
  exact congrArg₂ (· + ·) bases positions

/-- The first cells of blocks of the same shape agree. -/
theorem placedFirst
    {entries others : List (Entry field)}
    {ties : List (Nat × Nat)}
    {value otherValue : Element field}
    (same : List.Forall₂ (Entry.Agrees aligned) entries others) :
    Alike aligned
      (do
        let base ← Synthesis.lay entries ties
        return Cell.mk base value)
      (do
        let base ← Synthesis.lay others ties
        return Cell.mk base otherValue)
      (Cell.Agrees aligned) :=
  placed same (rfl : 0 = 0)

end Alike

end Synthesis

namespace Assembly

/-- From agreeing transcripts, computations that both succeed give related results. -/
abbrev Alike
    (aligned : Prop)
    (left : Assembly field α)
    (right : Assembly field β)
    (related : α → β → Prop) :
    Prop :=
  SucceedAlike (Transcript.Agrees aligned) (Transcript.Agrees aligned) left right related

/-- Computations that cannot fail are alike among those that can. -/
theorem Alike.lift
    {left : Synthesis field α}
    {right : Synthesis field β}
    {related : α → β → Prop}
    (alike : Synthesis.Alike aligned left right related) :
    Alike aligned (liftM left : Assembly field α) (liftM right : Assembly field β) related := by
  intro first second agrees _ _ _ _ ran otherRan
  cases ran
  cases otherRan
  exact alike first second agrees

end Assembly

end Plonkish
