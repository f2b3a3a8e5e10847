import Plonkish.Machine.Assignment
import Plonkish.Proofs.Circuit.Export
import Plonkish.Proofs.Machine.Handler

namespace Plonkish

/-!
# Runs

A run translates instructions in order and exports the circuit. Every step of it
is sound, so a run from the machine before the first instruction only goes
through sound machines, and what it exports is taken from one of them.
-/

namespace Program

variable {field : PrimeField} {known : Set (Cell field)}

theorem handleAll_sound (inputs : List InputValue) (instructions : List Instruction) :
    Translation.Sound known (handleAll inputs instructions : Translation field Unit)
      (fun _ => ∅) := by
  induction instructions generalizing known with
  | nil => exact Translation.Sound.pure (Set.empty_subset known)
  | cons instruction rest inductionHypothesis =>
      exact (instruction.handle_sound inputs).bind fun _ _ => inductionHypothesis

end Program

namespace Machine

variable {field : PrimeField}

/-- A sound machine is satisfied by its own values. -/
theorem Sound.satisfied {machine : Machine field} (sound : machine.Sound) : machine.Satisfied := by
  have matched := machine.transcript.matchedBy_assignment
  refine ⟨sound.consistent.satisfied _ matched, fun column isColumn cell member => ?_⟩
  exact matched _ _ (sound.exposed cell ⟨column, isColumn, member⟩)

theorem Sound.records_exposed
    {machine : Machine field}
    (sound : machine.Sound) :
    ∀ cell ∈ machine.exposed, machine.transcript.Records cell :=
  fun cell member => sound.exposed cell (exposes_of_mem_exposed member)

end Machine

namespace Translation

variable {field : PrimeField}

theorem layout_error
    {policy : Policy}
    {transcript : Transcript field}
    {failure : CircuitFailure}
    (refused : policy.layout transcript = .error failure) :
    failure ≠ .unsatisfied := by
  unfold Policy.layout Policy.columnsFor at refused
  dsimp only at refused
  rintro rfl
  split at refused <;> cases refused

theorem run_get (machine : Machine field) :
    (get : Translation field (Machine field)).run machine = (.ok machine, machine) :=
  rfl

/-- Counting columns changes nothing, and fails because of the columns only. -/
theorem run_layout (machine : Machine field) :
    (∃ stop, stop ≠ unsatisfied ∧ (layout : Translation field Layout).run machine =
        (.error stop, machine))
      ∨ ∃ columns, machine.policy.layout machine.transcript = .ok columns
        ∧ (layout : Translation field Layout).run machine = (.ok columns, machine) := by
  unfold layout
  rw [run_bind, run_get]
  dsimp only
  cases ended : machine.policy.layout machine.transcript with
  | ok columns => exact .inr ⟨columns, rfl, rfl⟩
  | error failure =>
      refine .inl ⟨.report (.circuit failure), fun same => ?_, rfl⟩
      injection same with sameFailure
      exact layout_error ended (Failure.circuit.inj sameFailure)

/-- A check crashes, or it places the circuit and tells whether it is satisfied. -/
theorem run_check (machine : Machine field) :
    (∃ stop, stop ≠ unsatisfied ∧ (check : Translation field Layout).run machine =
        (.error stop, machine))
      ∨ ∃ columns breakPoints, machine.policy.layout machine.transcript = .ok columns
        ∧ (check : Translation field Layout).run machine =
        (if machine.Satisfied then .ok columns else .error unsatisfied,
          { machine with breakPoints := some breakPoints }) := by
  have notCrash : (.crash : Stop Failure) ≠ unsatisfied := nofun
  rcases run_layout machine with ⟨stop, otherStop, laid⟩ | ⟨columns, fits, laid⟩
  · refine .inl ⟨stop, otherStop, ?_⟩
    unfold check
    rw [run_bind, laid]
  · unfold check
    rw [run_bind, laid]
    dsimp only
    rw [run_bind, run_get]
    dsimp only
    cases Placement.ofTranscript? columns (machine.instances.toList.map Array.size)
        machine.transcript with
    | none => exact .inl ⟨.crash, notCrash, rfl⟩
    | some breakPoints =>
        dsimp only
        split
        · refine .inr ⟨columns, breakPoints, fits, ?_⟩
          by_cases satisfied : machine.Satisfied
          · simp only [satisfied, ↓reduceIte]
            rfl
          · simp only [satisfied, ↓reduceIte]
            rfl
        · exact .inl ⟨.crash, notCrash, rfl⟩

/-- A sound machine is refused for its columns or crashes, or it is exported as it is. -/
theorem run_finish
    {machine : Machine field}
    (sound : machine.Sound)
    (checked : Bool) :
    (∃ stop, stop ≠ unsatisfied ∧ (finish checked : Translation field (Export field)).run machine =
        (.error stop, machine))
      ∨ ∃ columns breakPoints, machine.policy.layout machine.transcript = .ok columns
        ∧ (finish checked : Translation field (Export field)).run machine =
        (.ok (.ofTranscript columns machine.exposed machine.transcript),
          { machine with breakPoints }) := by
  cases checked with
  | false =>
      unfold finish
      simp only [Bool.false_eq_true, ↓reduceIte]
      rw [run_bind]
      rcases run_layout machine with ⟨stop, otherStop, laid⟩ | ⟨columns, fits, laid⟩
      · exact .inl ⟨stop, otherStop, by rw [laid]⟩
      · exact .inr ⟨columns, machine.breakPoints, fits, by rw [laid]; rfl⟩
  | true =>
      unfold finish
      simp only [↓reduceIte]
      rw [run_bind]
      rcases run_check machine with ⟨stop, otherStop, ended⟩ | ⟨columns, breakPoints, fits, ended⟩
      · exact .inl ⟨stop, otherStop, by rw [ended]⟩
      · rw [if_pos sound.satisfied] at ended
        exact .inr ⟨columns, some breakPoints, fits, by rw [ended]; rfl⟩

/-- What a sound machine exports is what it laid out and exposed, and it keeps its cells. -/
theorem export_of_finish
    {machine final : Machine field}
    (sound : machine.Sound)
    {checked : Bool}
    {result : Export field}
    (finished : (finish checked).run machine = (.ok result, final)) :
    ∃ columns, machine.policy.layout machine.transcript = .ok columns
      ∧ Export.ofTranscript columns machine.exposed machine.transcript = result
      ∧ ∀ cell, final.Reaches cell → machine.Reaches cell := by
  rcases run_finish sound checked with
    ⟨stop, -, refused⟩ | ⟨columns, breakPoints, fits, exported⟩
  · rw [finished] at refused
    cases refused
  · rw [finished] at exported
    obtain ⟨sameResult, rfl⟩ := Prod.mk.inj exported
    exact ⟨columns, fits, (Except.ok.inj sameResult).symm, fun _ reached => reached⟩

end Translation

namespace Program

variable {field : PrimeField}

/-- A run from the machine before the first instruction only goes through sound machines. -/
theorem sound_of_handleAll
    {policy : Policy}
    {start : Machine field}
    (created : Machine.create field policy = .ok start)
    (inputs : List InputValue)
    (instructions : List Instruction) :
    ((handleAll inputs instructions : Translation field Unit).run start).2.Sound :=
  (handleAll_sound inputs instructions).sound start (Machine.sound_of_create created)
    fun _ member => (Set.notMem_empty _ member).elim

/-- The instructions of a program do not fail because a circuit is not satisfied. -/
theorem handleAll_reports
    {policy : Policy}
    {start : Machine field}
    (created : Machine.create field policy = .ok start)
    (inputs : List InputValue)
    (instructions : List Instruction) :
    ((handleAll inputs instructions : Translation field Unit).run start).1 ≠
      .error Translation.unsatisfied :=
  (handleAll_sound inputs instructions).reports start (Machine.sound_of_create created)
    fun _ member => (Set.notMem_empty _ member).elim

/-- A program that is translated was handled and exported. -/
theorem run_translate
    {program : Program}
    {checked : Bool}
    {start final : Machine field}
    {result : Export field}
    (translated : (program.translate checked).run start = (.ok result, final)) :
    ∃ handled, (handleAll program.inputs program.instructions).run start = (.ok (), handled)
      ∧ (Translation.finish checked).run handled = (.ok result, final) := by
  unfold translate at translated
  rw [run_bind] at translated
  rcases ended : (handleAll program.inputs program.instructions).run start with
    ⟨stop | ⟨⟩, handled⟩
  · rw [ended] at translated
    cases translated
  · rw [ended] at translated
    exact ⟨handled, rfl, translated⟩

end Program

end Plonkish
