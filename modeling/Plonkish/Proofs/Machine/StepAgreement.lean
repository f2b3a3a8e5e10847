import Plonkish.Proofs.Machine.Agreement

namespace Plonkish

/-!
# Agreeing steps

The steps of which the translation of an instruction consists keep agreeing
machines in agreement. Where a step takes cells, they have to agree, and where
it takes an address, it has to be the same in aligned runs.
-/

namespace Translation

variable {field : PrimeField} {aligned : Prop}

/-- From agreeing machines, steps that both succeed give related results. -/
abbrev Alike
    (aligned : Prop)
    (left : Translation field α)
    (right : Translation field β)
    (related : α → β → Prop) :
    Prop :=
  SucceedAlike (Machine.Agrees aligned) (Machine.Agrees aligned) left right related

theorem ofExcept_alike
    {states : Machine field → Machine field → Prop}
    {left : Except Failure α}
    {right : Except Failure β}
    {related : α → β → Prop}
    (alike : BothYield left right related) :
    SucceedAlike states states (ofExcept left : Translation field α) (ofExcept right) related := by
  cases left with
  | error failure => exact SucceedAlike.throw
  | ok result =>
      cases right with
      | error failure => exact SucceedAlike.throwRight
      | ok other => exact SucceedAlike.pure alike

/-- What is read may depend on more than what is known of the machines later. -/
theorem read_alike
    {before after : Machine field → Machine field → Prop}
    {left : Reading field α}
    {right : Reading field β}
    {related : α → β → Prop}
    (implies : ∀ first second, before first second → after first second)
    (alike : ∀ first second, before first second →
      BothYield (left first) (right second) related) :
    SucceedAlike before after (read left) (read right) related := by
  intro first second states result later other otherLater ran otherRan
  have readFirst : (read left).run first = ((left first).mapError .report, first) :=
    run_ofExcept (left first) first
  have readSecond : (read right).run second = ((right second).mapError .report, second) :=
    run_ofExcept (right second) second
  rw [readFirst] at ran
  rw [readSecond] at otherRan
  have same := alike first second states
  cases found : left first with
  | error failure =>
      rw [found] at ran
      cases ran
  | ok isResult =>
      cases otherFound : right second with
      | error failure =>
          rw [otherFound] at otherRan
          cases otherRan
      | ok isOther =>
          rw [found] at ran
          rw [otherFound] at otherRan
          cases ran
          cases otherRan
          exact ⟨same.of_ok found otherFound, implies first second states⟩

theorem get_alike :
    Alike aligned (get : Translation field (Machine field)) get (Machine.Agrees aligned) := by
  intro first second agrees _ _ _ _ ran otherRan
  cases ran
  cases otherRan
  exact ⟨agrees, agrees⟩

theorem bind_alike
    (id : ValueId)
    {slot otherSlot : Slot field}
    (slots : slot.Agrees aligned otherSlot) :
    Alike aligned (bind id slot) (bind id otherSlot) (fun _ _ => True) := by
  intro first second agrees _ _ _ _ ran otherRan
  cases ran
  cases otherRan
  exact ⟨trivial, agrees.frame.bind id slots, agrees.memory, agrees.transcript, agrees.instances⟩

theorem lay_alike
    {left : Synthesis field α}
    {right : Synthesis field β}
    {related : α → β → Prop}
    (alike : Synthesis.Alike aligned left right related) :
    Alike aligned (lay left) (lay right) related := by
  intro first second agrees _ _ _ _ ran otherRan
  obtain ⟨results, transcripts⟩ := alike first.transcript second.transcript agrees.transcript
  cases ran
  cases otherRan
  exact ⟨results, agrees.frame, agrees.memory, transcripts, agrees.instances⟩

/-- A gadget changes the transcript, also if it ends early. -/
theorem run_assemble (assembly : Assembly field α) (machine : Machine field) :
    (assemble assembly).run machine =
      match assembly.run machine.transcript with
      | (.ok result, transcript) => (.ok result, { machine with transcript })
      | (.error stop, transcript) =>
          (.error (stop.map .circuit), { machine with transcript }) := by
  have laid : (lay assembly.run : Translation field _).run machine =
      (.ok (assembly.run machine.transcript).1,
        { machine with transcript := (assembly.run machine.transcript).2 }) := rfl
  unfold assemble
  rw [run_bind, laid]
  rcases assembly.run machine.transcript with ⟨stop | result, transcript⟩ <;> rfl

theorem assemble_alike
    {left : Assembly field α}
    {right : Assembly field β}
    {related : α → β → Prop}
    (alike : Assembly.Alike aligned left right related) :
    Alike aligned (assemble left) (assemble right) related := by
  intro first second agrees _ _ _ _ ran otherRan
  rw [run_assemble] at ran otherRan
  rcases ended : left.run first.transcript with ⟨stop | result, transcript⟩
  · rw [ended] at ran
    cases ran
  rcases otherEnded : right.run second.transcript with ⟨stop | other, otherTranscript⟩
  · rw [otherEnded] at otherRan
    cases otherRan
  obtain ⟨results, transcripts⟩ :=
    alike first.transcript second.transcript agrees.transcript _ _ _ _ ended otherEnded
  rw [ended] at ran
  rw [otherEnded] at otherRan
  cases ran
  cases otherRan
  exact ⟨results, agrees.frame, agrees.memory, transcripts, agrees.instances⟩

theorem storeAll_alike
    {pointer otherPointer : Nat}
    (pointers : aligned → pointer = otherPointer)
    {cells otherCells : List (Cell field)}
    (cellsAgree : Cell.AllAgree aligned cells otherCells) :
    Alike aligned (storeAll pointer cells) (storeAll otherPointer otherCells)
      (fun _ _ => True) := by
  intro first second agrees _ _ _ _ ran otherRan
  rw [run_storeAll] at ran otherRan
  have memories := Memory.storeAll_alike agrees.memory pointers cellsAgree
  cases stored : first.memory.storeAll pointer cells with
  | error failure =>
      rw [stored] at ran
      cases ran
  | ok memory =>
      cases otherStored : second.memory.storeAll otherPointer otherCells with
      | error failure =>
          rw [otherStored] at otherRan
          cases otherRan
      | ok otherMemory =>
          rw [stored] at ran
          rw [otherStored] at otherRan
          cases ran
          cases otherRan
          exact ⟨trivial, agrees.frame, memories.of_ok stored otherStored, agrees.transcript,
            agrees.instances⟩

theorem allocate_alike (count bytes : Nat) :
    Alike aligned (allocate count bytes : Translation field Nat) (allocate count bytes) Eq := by
  intro first second agrees _ _ _ _ ran otherRan
  rw [run_allocate] at ran otherRan
  have outcomes := Memory.allocate_alike agrees.memory count bytes
  cases allocated : first.memory.allocate count bytes with
  | error failure =>
      rw [allocated] at ran
      cases ran
  | ok outcome =>
      cases otherAllocated : second.memory.allocate count bytes with
      | error failure =>
          rw [otherAllocated] at otherRan
          cases otherRan
      | ok otherOutcome =>
          rw [allocated] at ran
          rw [otherAllocated] at otherRan
          cases ran
          cases otherRan
          obtain ⟨pointers, memories⟩ := outcomes.of_ok allocated otherAllocated
          exact ⟨pointers, agrees.frame, memories, agrees.transcript, agrees.instances⟩

/-- Exposed cells sit at the same offsets, whether runs are aligned or not. -/
theorem expose_alike
    {cells otherCells : List (Cell field)}
    (cellsAgree : Cell.AllAgree True cells otherCells) :
    Alike aligned (expose cells) (expose otherCells) (fun _ _ => True) := by
  intro first second agrees _ _ _ _ ran otherRan
  cases ran
  cases otherRan
  refine ⟨trivial, agrees.frame, agrees.memory, agrees.transcript, ?_⟩
  have offsets : cells.map Cell.offset = otherCells.map Cell.offset := by
    rw [← List.forall₂_eq_eq_eq, List.forall₂_map_left_iff, List.forall₂_map_right_iff]
    exact cellsAgree.imp fun _ _ same => same trivial
  have columns := agrees.instances
  simp only [Array.toList_modify]
  generalize first.instances.toList = left at columns ⊢
  generalize second.instances.toList = right at columns ⊢
  cases left with
  | nil =>
      cases right with
      | nil => rfl
      | cons column rest => cases columns
  | cons column rest =>
      cases right with
      | nil => cases columns
      | cons otherColumn otherRest =>
          obtain ⟨columnSame, restSame⟩ := List.cons.inj columns
          simp [columnSame, restSame, offsets]

end Translation

end Plonkish
