import Plonkish.Proofs.Circuit.Completion
import Plonkish.Proofs.Circuit.Spacing
import Plonkish.Proofs.Program.Soundness

namespace Plonkish

/-!
# Reachable machines

Instructions are translated one after the other, for any inputs, and an
instruction that fails does not keep the next one from being translated. Every
machine that is reached in this way is sound, because each step is. So a handle,
wherever it is kept, is the handle of a cell that there is, and carries the value
that is recorded there; what a failed instruction left behind is no exception.
-/

namespace Transcript

variable {field : PrimeField}

/-- The values of the cells, in order. -/
def values (transcript : Transcript field) : List (Element field) :=
  transcript.rows.toList.map Row.value

@[simp] theorem length_values (transcript : Transcript field) :
    transcript.values.length = transcript.size := by
  simp [values, size]

theorem getElem?_values (transcript : Transcript field) (offset : Nat) :
    transcript.values[offset]? = transcript.value? offset := by
  simp [values, value?]

end Transcript

namespace Machine

variable {field : PrimeField}

/-- The machines that are reached from a new one, whether or not instructions fail on the way. -/
inductive Reachable (policy : Policy) : Machine field → Prop
  | create
      {machine : Machine field}
      (created : create field policy = .ok machine) :
      Reachable policy machine
  | handle
      {machine : Machine field}
      (reachable : Reachable policy machine)
      (inputs : List InputValue)
      (instruction : Instruction) :
      Reachable policy ((instruction.handle inputs).run machine).2

variable {policy : Policy} {machine : Machine field}

/-- Every reachable machine is sound. -/
theorem Reachable.sound (reachable : Reachable policy machine) : machine.Sound := by
  induction reachable with
  | create created =>
      exact sound_of_create created
  | handle _ inputs instruction inductionHypothesis =>
      have step : Translation.Sound (∅ : Set (Cell field)) (instruction.handle inputs)
          (fun _ => ∅) :=
        instruction.handle_sound inputs
      exact step.sound _ inductionHypothesis fun _ member => member.elim

/--
No handle is dangling or stale.

A cell that is bound in the frame, stored in memory or exposed is one that has
been laid out, and its handle carries the value that is recorded for it. A gate
never reaches past the last cell. That there is a selector for each value holds
by the type of the rows, which keep both together.
-/
theorem handles_of_reachable (reachable : Reachable policy machine) :
    (∀ cell, machine.Reaches cell ∨ machine.Exposes cell →
        cell.offset < machine.transcript.values.length
          ∧ machine.transcript.values[cell.offset]? = some cell.value)
      ∧ machine.transcript.selectors.length = machine.transcript.values.length
      ∧ ∀ offset, machine.transcript.selectors[offset]? = some true →
        offset + 3 < machine.transcript.values.length := by
  have sound := reachable.sound
  have records : ∀ cell, machine.Reaches cell ∨ machine.Exposes cell →
      machine.transcript.Records cell := by
    rintro cell (reached | exposed)
    · exact (sound.reached cell reached).recorded
    · exact sound.exposed cell exposed
  simp only [Transcript.length_values, Transcript.length_selectors, Transcript.getElem?_values,
    ← Transcript.mem_gates_iff_selectors]
  exact ⟨fun cell kept => ⟨(records cell kept).offset_lt, records cell kept⟩, trivial,
    fun offset member => sound.consistent.gate_lt member⟩

end Machine

namespace Program

variable {field : PrimeField} {policy : Policy} {inputs : List InputValue}
variable {start handled : Machine field}

/-- A run only goes through reachable machines. -/
theorem reachable_of_handleAll
    {instructions : List Instruction}
    (reachable : start.Reachable policy)
    (ended : (handleAll inputs instructions).run start = (.ok (), handled)) :
    handled.Reachable policy := by
  induction instructions generalizing start with
  | nil =>
      cases ended
      exact reachable
  | cons instruction rest inductionHypothesis =>
      obtain ⟨_, between, first, later⟩ := ok_of_run_bind ended
      have next := reachable.handle inputs instruction
      rw [first] at next
      exact inductionHypothesis next later

/-- Wherever a run is cut, there are machines before and after the instruction at the cut. -/
theorem exists_cut_of_handleAll
    {earlier later : List Instruction}
    {instruction : Instruction}
    (ended : (handleAll inputs (earlier ++ instruction :: later)).run start = (.ok (), handled)) :
    ∃ before after, (handleAll inputs earlier).run start = (.ok (), before)
      ∧ (instruction.handle inputs).run before = (.ok (), after)
      ∧ (handleAll inputs later).run after = (.ok (), handled) := by
  induction earlier generalizing start with
  | nil =>
      obtain ⟨_, after, first, rest⟩ := ok_of_run_bind ended
      exact ⟨start, after, rfl, first, rest⟩
  | cons head tail inductionHypothesis =>
      obtain ⟨_, between, first, rest⟩ := ok_of_run_bind ended
      obtain ⟨before, after, reached, handles, continues⟩ := inductionHypothesis rest
      refine ⟨before, after, ?_, handles, continues⟩
      rw [handleAll, run_bind, first]
      exact reached

end Program

namespace Machine

/-- Allocate all of memory. -/
def allocateAll : Instruction :=
  ⟨⟨0⟩, .alloca, [.constant (.integer 16777215)]⟩

/-- Bind an array, for which there has to be memory. -/
def bindArray : Instruction :=
  ⟨⟨1⟩, .param, [.constant (.integer 0)]⟩

/-- The machine after an array was exposed and could not be written to memory. -/
def exhaustedMachine : Machine .bn254Scalar :=
  ((bindArray.handle [.array ["7", "8"]]).run
    ((allocateAll.handle []).run Program.freshMachine).2).2

/-- An array that fails for want of memory leaves two exposed cells, which hold its elements. -/
theorem exhausted_handles :
    ((bindArray.handle [.array ["7", "8"]]).run
        ((allocateAll.handle []).run Program.freshMachine).2).1 =
          .error (.report (.memory 16777216 .exhausted))
      ∧ exhaustedMachine.exposed = [⟨1, 7⟩, ⟨2, 8⟩]
      ∧ exhaustedMachine.transcript.values[1]? = some 7
      ∧ exhaustedMachine.transcript.values[2]? = some 8 := by
  have created : create .bn254Scalar .standard = .ok Program.freshMachine := rfl
  have reachable : Reachable .standard exhaustedMachine :=
    ((Reachable.create created).handle [] allocateAll).handle [.array ["7", "8"]] bindArray
  have exposed : exhaustedMachine.exposed = [⟨1, 7⟩, ⟨2, 8⟩] := by
    decide +kernel
  have handles := (handles_of_reachable reachable).1
  refine ⟨by decide +kernel, exposed, (handles ⟨1, 7⟩ ?_).2, (handles ⟨2, 8⟩ ?_).2⟩
  · exact .inr (exposes_of_mem_exposed (by simp [exposed]))
  · exact .inr (exposes_of_mem_exposed (by simp [exposed]))

end Machine

end Plonkish
