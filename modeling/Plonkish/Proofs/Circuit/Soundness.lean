import Plonkish.Proofs.Circuit.Settlement

namespace Plonkish

/-!
# Sound computations

The rules by which sound computations are put together. A computation is sound
for the cells that it takes as settled; what it settles is taken as settled by
the computation that follows.
-/

/-- A bound computation ends as the first does, or as the next does on its result. -/
theorem run_bind
    (first : ExceptT ε (StateM σ) α)
    (next : α → ExceptT ε (StateM σ) β)
    (state : σ) :
    (first >>= next).run state =
      match first.run state with
      | (.ok result, after) => (next result).run after
      | (.error stop, after) => (.error stop, after) := by
  rw [ExceptT.run_bind]
  change (match (first.run state).1 with
    | .ok result => (next result).run
    | .error stop => pure (.error stop) : StateM σ (Except ε β)) (first.run state).2 = _
  rcases first.run state with ⟨stop | result, after⟩ <;> rfl

namespace Synthesis

variable {field : PrimeField}

/-- Wherever some cells are settled, the transcript stays consistent and the results are settled. -/
structure Sound
    (known : Set (Cell field))
    (synthesis : Synthesis field α)
    (outputs : α → Set (Cell field)) :
    Prop where
  extended : ∀ transcript : Transcript field, transcript.ExtendedBy (synthesis transcript).2
  consistent : ∀ (transcript : Transcript field) (exposed : List (Cell field)),
    transcript.Consistent → (∀ cell ∈ known, transcript.Settles exposed cell) →
      (synthesis transcript).2.Consistent
  settles : ∀ (transcript : Transcript field) (exposed : List (Cell field)),
    transcript.Consistent →
    (∀ cell ∈ known, transcript.Settles exposed cell) →
      ∀ cell ∈ outputs (synthesis transcript).1, (synthesis transcript).2.Settles exposed cell

/-- The second of two computations starts where the first ends. -/
theorem bind_apply
    (first : Synthesis field α)
    (next : α → Synthesis field β)
    (transcript : Transcript field) :
    (first >>= next) transcript = next (first transcript).1 (first transcript).2 := rfl

namespace Sound

variable {known : Set (Cell field)}

theorem pure
    {result : α}
    {outputs : α → Set (Cell field)}
    (given : outputs result ⊆ known) :
    Sound known (Pure.pure result) outputs where
  extended transcript := .refl transcript
  consistent _ _ consistent _ := consistent
  settles _ _ _ settled cell member := settled cell (given member)

/-- What one computation settles is known to the next. -/
theorem bind
    {first : Synthesis field α}
    {next : α → Synthesis field β}
    {between : α → Set (Cell field)}
    {outputs : β → Set (Cell field)}
    (firstSound : Sound known first between)
    (nextSound : ∀ result, Sound (known ∪ between result) (next result) outputs) :
    Sound known (first >>= next) outputs := by
  have afterFirst : ∀ (transcript : Transcript field) (exposed : List (Cell field)),
      transcript.Consistent → (∀ cell ∈ known, transcript.Settles exposed cell) →
        ∀ cell ∈ known ∪ between (first transcript).1,
          (first transcript).2.Settles exposed cell := by
    intro transcript exposed consistent settled cell member
    rcases member with earlier | new
    · exact (settled cell earlier).mono (firstSound.extended transcript) (List.Subset.refl _)
    · exact firstSound.settles transcript exposed consistent settled cell new
  refine ⟨fun transcript => ?_, fun transcript exposed consistent settled => ?_,
    fun transcript exposed consistent settled => ?_⟩
  · exact (firstSound.extended transcript).trans
      ((nextSound (first transcript).1).extended (first transcript).2)
  · exact (nextSound (first transcript).1).consistent (first transcript).2 exposed
      (firstSound.consistent transcript exposed consistent settled)
      (afterFirst transcript exposed consistent settled)
  · exact (nextSound (first transcript).1).settles (first transcript).2 exposed
      (firstSound.consistent transcript exposed consistent settled)
      (afterFirst transcript exposed consistent settled)

/-- An honest block on known cells settles nothing. -/
theorem lay
    {entries : List (Entry field)}
    {ties : List (Nat × Nat)}
    (honest : (Block.mk entries ties).Honest)
    (sources : ∀ entry ∈ entries, ∀ cell, entry.source = .existing cell → cell ∈ known) :
    Sound known (Synthesis.lay entries ties) (fun _ => ∅) where
  extended transcript := transcript.extendedBy_lay ⟨entries, ties⟩
  consistent _ _ consistent settled :=
    consistent.lay honest fun entry member cell existing =>
      (settled cell (sources entry member cell existing)).recorded
  settles _ _ _ _ _ member := member.elim

/-- An honest block on known cells settles the cell that it determines. -/
theorem determined
    {entries : List (Entry field)}
    {ties : List (Nat × Nat)}
    {position : Nat}
    {value : Element field}
    (honest : (Block.mk entries ties).Honest)
    (determines : (Block.mk entries ties).Determines position value)
    (sources : ∀ entry ∈ entries, ∀ cell, entry.source = .existing cell → cell ∈ known) :
    Sound known
      (do
        let base ← Synthesis.lay entries ties
        return Cell.mk (base + position) value)
      (fun cell => {cell}) where
  extended transcript := transcript.extendedBy_lay ⟨entries, ties⟩
  consistent transcript exposed consistent settled :=
    (Sound.lay honest sources).consistent transcript exposed consistent settled
  settles transcript exposed _ settled cell member := by
    obtain rfl : cell = _ := member
    exact Transcript.settles_lay determines fun entry member cell existing =>
      settled cell (sources entry member cell existing)

/-- An honest block on known cells settles its first cell if that is determined. -/
theorem determinedFirst
    {entries : List (Entry field)}
    {ties : List (Nat × Nat)}
    {value : Element field}
    (honest : (Block.mk entries ties).Honest)
    (determines : (Block.mk entries ties).Determines 0 value)
    (sources : ∀ entry ∈ entries, ∀ cell, entry.source = .existing cell → cell ∈ known) :
    Sound known
      (do
        let base ← Synthesis.lay entries ties
        return Cell.mk base value)
      (fun cell => {cell}) :=
  Sound.determined honest determines sources

end Sound

end Synthesis

namespace Assembly

variable {field : PrimeField}

/--
Wherever some cells are settled, the transcript stays consistent and the results are settled.

No input is refused with the report that a circuit is not satisfied.
-/
structure Sound
    (known : Set (Cell field))
    (assembly : Assembly field α)
    (outputs : α → Set (Cell field)) :
    Prop where
  synthesis : Synthesis.Sound known assembly.run fun
    | .ok result => outputs result
    | .error _ => ∅
  reports : ∀ transcript, (assembly.run transcript).1 ≠ .error (.report .unsatisfied)

namespace Sound

variable {known : Set (Cell field)}

theorem pure
    {result : α}
    {outputs : α → Set (Cell field)}
    (given : outputs result ⊆ known) :
    Sound known (Pure.pure result : Assembly field α) outputs where
  synthesis := Synthesis.Sound.pure given
  reports _ report := nomatch report

theorem lift
    {synthesis : Synthesis field α}
    {outputs : α → Set (Cell field)}
    (sound : Synthesis.Sound known synthesis outputs) :
    Sound known (liftM synthesis : Assembly field α) outputs where
  synthesis := {
    extended := sound.extended
    consistent := sound.consistent
    settles := sound.settles
  }
  reports _ report := nomatch report

/-- A refusal is sound, whatever its report. -/
theorem refuse
    {failure : CircuitFailure}
    (otherFailure : failure ≠ .unsatisfied)
    {outputs : α → Set (Cell field)} :
    Sound known (Assembly.refuse failure) outputs where
  synthesis := Synthesis.Sound.pure (Set.empty_subset known)
  reports _ report := by
    injection report with same
    injection same with sameFailure
    exact otherFailure sameFailure

theorem crash {outputs : α → Set (Cell field)} : Sound known Assembly.crash outputs where
  synthesis := Synthesis.Sound.pure (Set.empty_subset known)
  reports _ report := nomatch report

theorem bind
    {first : Assembly field α}
    {next : α → Assembly field β}
    {between : α → Set (Cell field)}
    {outputs : β → Set (Cell field)}
    (firstSound : Sound known first between)
    (nextSound : ∀ result, Sound (known ∪ between result) (next result) outputs) :
    Sound known (first >>= next) outputs where
  synthesis := by
    rw [ExceptT.run_bind]
    refine firstSound.synthesis.bind fun result => ?_
    cases result with
    | ok result => exact (nextSound result).synthesis
    | error stop => exact Synthesis.Sound.pure (Set.empty_subset _)
  reports transcript report := by
    rw [run_bind] at report
    have firstReports := firstSound.reports transcript
    generalize first.run transcript = ended at report firstReports
    obtain ⟨stop | result, after⟩ := ended
    · injection report with same
      exact firstReports (congrArg Except.error same)
    · exact (nextSound result).reports after report

end Sound

end Assembly

end Plonkish
