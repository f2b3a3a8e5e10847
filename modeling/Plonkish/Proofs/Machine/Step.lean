import Plonkish.Proofs.Machine.Reading

namespace Plonkish

/-!
# Sound steps

The steps of which the translation of an instruction consists: reading, laying
out cells, binding a name, writing to memory and exposing public inputs. All of
them are sound; those that make cells reachable ask that these are settled.
-/

namespace Machine

variable {field : PrimeField}

/-- A machine stays sound if only settled cells become reachable. -/
theorem Sound.of_reached
    {machine later : Machine field}
    (sound : machine.Sound)
    (sameTranscript : later.transcript = machine.transcript)
    (sameInstances : later.instances = machine.instances)
    (reached : ∀ cell, later.Reaches cell → machine.Reaches cell ∨ machine.Settles cell) :
    later.Sound := by
  have settles : ∀ cell, machine.Settles cell → later.Settles cell := by
    intro cell settled
    unfold Settles Machine.exposed at settled ⊢
    rwa [sameTranscript, sameInstances]
  refine ⟨sameTranscript ▸ sound.consistent, fun cell isReached => ?_, fun cell isExposed => ?_,
    sameInstances ▸ sound.columns⟩
  · rcases reached cell isReached with earlier | settled
    · exact settles cell (sound.reached cell earlier)
    · exact settles cell settled
  · rw [sameTranscript]
    refine sound.exposed cell ?_
    unfold Exposes at isExposed ⊢
    rwa [sameInstances] at isExposed

theorem extendedBy_of_eq
    {machine later : Machine field}
    (samePolicy : later.policy = machine.policy)
    (sameTranscript : later.transcript = machine.transcript)
    (sameInstances : later.instances = machine.instances) :
    machine.ExtendedBy later := by
  refine ⟨samePolicy, sameTranscript ▸ .refl _, ?_⟩
  unfold exposed
  rw [sameInstances]
  exact List.Subset.refl _

end Machine

namespace Translation

variable {field : PrimeField} {known : Set (Cell field)}

theorem Sound.of_reading
    {translation : Translation field α}
    {outcome : Machine field → Except Failure α}
    {outputs : α → Set (Cell field)}
    (run : ∀ machine : Machine field,
      translation.run machine = ((outcome machine).mapError .report, machine))
    (yields : ∀ machine : Machine field, Yields (outcome machine)
      (fun result => ∀ cell ∈ outputs result, cell ∈ known ∨ machine.Reaches cell)) :
    Sound known translation outputs := by
  refine ⟨fun machine => ?_, fun machine sound _ => ?_,
    fun machine sound settled result gives => ?_, fun machine sound _ => ?_⟩
  · rw [run]
    exact .refl machine
  · rwa [run]
  · rw [run] at gives ⊢
    have expected := yields machine
    cases ended : outcome machine with
    | error failure => simp [ended, Except.mapError] at gives
    | ok found =>
        rw [ended] at gives expected
        obtain rfl : found = result := Except.ok.inj gives
        intro cell member
        rcases expected cell member with isKnown | isReached
        · exact settled cell isKnown
        · exact sound.reached cell isReached
  · rw [run]
    have expected := yields machine
    intro report
    cases ended : outcome machine with
    | ok found => simp [ended, Except.mapError] at report
    | error failure =>
        rw [ended] at report expected
        injection report with same
        injection same with sameFailure
        exact expected sameFailure

/-- A computation that does not depend on the state changes nothing. -/
theorem run_ofExcept (outcome : Except Failure α) (machine : Machine field) :
    (ofExcept outcome : Translation field α).run machine =
      (outcome.mapError .report, machine) := by
  cases outcome <;> rfl

/-- The result of a computation that does not depend on the state is settled if it is known. -/
theorem ofExcept_sound
    {outcome : Except Failure α}
    {outputs : α → Set (Cell field)}
    (yields : Yields outcome (fun result => outputs result ⊆ known)) :
    Sound known (ofExcept outcome) outputs :=
  Sound.of_reading (run_ofExcept outcome) fun _ =>
    yields.imp fun _ included _ member => .inl (included member)

theorem read_sound
    {reading : Reading field α}
    {outputs : α → Set (Cell field)}
    (yields : ∀ machine : Machine field,
      Yields (reading machine) (fun result => ∀ cell ∈ outputs result, machine.Reaches cell)) :
    Sound known (read reading) outputs := by
  refine Sound.of_reading (fun machine => run_ofExcept (reading machine) machine) fun machine => ?_
  exact (yields machine).imp fun _ reached cell member => .inr (reached cell member)

theorem get_sound : Sound known (get : Translation field (Machine field)) (fun _ => ∅) := by
  have run : ∀ machine : Machine field, (get : Translation field (Machine field)).run machine =
      ((Except.ok machine : Except Failure (Machine field)).mapError .report, machine) :=
    fun _ => rfl
  exact Sound.of_reading run fun _ _ member => member.elim

theorem report_sound
    {failure : Failure}
    (otherFailure : failure ≠ .circuit .unsatisfied)
    {outputs : α → Set (Cell field)} :
    Sound known (report failure) outputs := by
  have otherReport : (.report failure : Stop Failure) ≠ unsatisfied := by
    intro same
    injection same with sameFailure
    exact otherFailure sameFailure
  exact Sound.throw otherReport

/-- A step that changes nothing that was laid out or exposed is sound if what it gives is known. -/
theorem Sound.of_update
    {change : Machine field → Machine field}
    (samePolicy : ∀ machine, (change machine).policy = machine.policy)
    (sameTranscript : ∀ machine, (change machine).transcript = machine.transcript)
    (sameInstances : ∀ machine, (change machine).instances = machine.instances)
    (reached : ∀ machine cell, (change machine).Reaches cell →
      machine.Reaches cell ∨ cell ∈ known) :
    Sound known (modify change : Translation field Unit) (fun _ => ∅) where
  extended machine := Machine.extendedBy_of_eq (samePolicy machine) (sameTranscript machine)
    (sameInstances machine)
  sound machine sound settled :=
    sound.of_reached (sameTranscript machine) (sameInstances machine) fun cell isReached =>
      (reached machine cell isReached).imp_right (settled cell)
  settles _ _ _ _ _ _ member := member.elim
  reports _ _ _ report := nomatch report

theorem bind_sound
    {id : ValueId}
    {slot : Slot field}
    (slotKnown : ∀ cell ∈ slot.cells, cell ∈ known) :
    Sound known (bind id slot) (fun _ => ∅) := by
  refine Sound.of_update (fun _ => rfl) (fun _ => rfl) (fun _ => rfl)
    fun machine cell isReached => ?_
  rcases isReached with ⟨other, bound, isBound, member⟩ | stored
  · change (machine.frame.bind id slot).get? other = some bound at isBound
    rw [Frame.get?_bind] at isBound
    split at isBound
    · obtain rfl := Option.some.inj isBound
      exact .inr (slotKnown cell member)
    · exact .inl (.inl ⟨other, bound, isBound, member⟩)
  · exact .inl (.inr stored)

/-- Writing to memory changes the memory or nothing. -/
theorem run_storeAll (pointer : Nat) (cells : List (Cell field)) (machine : Machine field) :
    (storeAll pointer cells).run machine =
      match machine.memory.storeAll pointer cells with
      | .ok memory => (.ok (), { machine with memory })
      | .error failure => (.error (.report failure), machine) := by
  have unfolded : (storeAll pointer cells).run machine =
      ((ofExcept (machine.memory.storeAll pointer cells) : Translation field _) >>=
        setMemory).run machine := rfl
  rw [unfolded, run_bind, run_ofExcept]
  cases machine.memory.storeAll pointer cells <;> rfl

/-- Allocating changes the memory or nothing. -/
theorem run_allocate (count bytes : Nat) (machine : Machine field) :
    (allocate count bytes).run machine =
      match machine.memory.allocate count bytes with
      | .ok (pointer, memory) => (.ok pointer, { machine with memory })
      | .error failure => (.error (.report failure), machine) := by
  have unfolded : (allocate count bytes).run machine =
      ((ofExcept (machine.memory.allocate count bytes) : Translation field _) >>=
        fun result => do
          setMemory result.2
          return result.1).run machine := rfl
  rw [unfolded, run_bind, run_ofExcept]
  cases machine.memory.allocate count bytes <;> rfl

/-- A step that may replace the memory is sound if it stores known cells only. -/
theorem Sound.of_memory
    {translation : Translation field α}
    (outcome : Machine field → Except Failure (α × Memory field))
    (run : ∀ machine : Machine field, translation.run machine =
      match outcome machine with
      | .ok (result, memory) => (.ok result, { machine with memory })
      | .error failure => (.error (.report failure), machine))
    (yields : ∀ machine : Machine field, Yields (outcome machine) (fun result =>
      ∀ (address : Nat) cell, result.2.stored[address]? = some cell →
        machine.memory.stored[address]? = some cell ∨ cell ∈ known)) :
    Sound known translation (fun _ => ∅) := by
  refine ⟨fun machine => ?_, fun machine sound settled => ?_, fun _ _ _ _ _ _ member => member.elim,
    fun machine _ _ => ?_⟩
  · rw [run]
    split
    · exact Machine.extendedBy_of_eq rfl rfl rfl
    · exact .refl machine
  · rw [run]
    have expected := yields machine
    split
    next result memory ended =>
      rw [ended] at expected
      refine sound.of_reached rfl rfl fun cell isReached => ?_
      rcases isReached with bound | ⟨address, stored⟩
      · exact .inl (.inl bound)
      · rcases expected address cell stored with earlier | isKnown
        · exact .inl (.inr ⟨address, earlier⟩)
        · exact .inr (settled cell isKnown)
    next => exact sound
  · rw [run]
    have expected := yields machine
    split
    · exact fun report => nomatch report
    next failure ended =>
      rw [ended] at expected
      intro report
      injection report with same
      injection same with sameFailure
      exact expected sameFailure

theorem storeAll_sound
    {pointer : Nat}
    {cells : List (Cell field)}
    (cellsKnown : ∀ cell ∈ cells, cell ∈ known) :
    Sound known (storeAll pointer cells) (fun _ => ∅) := by
  refine Sound.of_memory
    (fun machine => (machine.memory.storeAll pointer cells).map fun memory => ((), memory))
    (fun machine => (run_storeAll pointer cells machine).trans ?_) fun machine => ?_
  · cases machine.memory.storeAll pointer cells <;> rfl
  · have written := machine.memory.storeAll_yields pointer cells
    cases ended : machine.memory.storeAll pointer cells with
    | error failure => rwa [ended] at written
    | ok memory =>
        rw [ended] at written
        intro address cell stored
        exact (written address cell stored).imp_right (cellsKnown cell)

theorem allocate_sound {count bytes : Nat} :
    Sound known (allocate count bytes) (fun _ => ∅) := by
  refine Sound.of_memory (fun machine => machine.memory.allocate count bytes)
    (fun machine => (run_allocate count bytes machine).trans ?_) fun machine => ?_
  · cases machine.memory.allocate count bytes <;> rfl
  refine (machine.memory.allocate_yields count bytes).imp fun result same address cell stored => ?_
  rw [same] at stored
  exact .inl stored

/-- Cells that are laid out by a sound computation are settled. -/
theorem lay_sound
    {synthesis : Synthesis field α}
    {outputs : α → Set (Cell field)}
    (sound : Synthesis.Sound known synthesis outputs) :
    Sound known (lay synthesis) outputs where
  extended machine := ⟨rfl, sound.extended machine.transcript, List.Subset.refl _⟩
  sound machine isSound settled := {
    consistent := sound.consistent machine.transcript machine.exposed isSound.consistent settled
    reached := fun cell isReached =>
      (isSound.reached cell isReached).mono (sound.extended machine.transcript) (List.Subset.refl _)
    exposed := fun cell isExposed =>
      (sound.extended machine.transcript).value_eq (isSound.exposed cell isExposed)
    columns := isSound.columns
  }
  settles machine isSound settled result gives cell member := by
    obtain rfl : (synthesis machine.transcript).1 = result := Except.ok.inj gives
    exact sound.settles machine.transcript machine.exposed isSound.consistent settled cell member
  reports _ _ _ report := nomatch report

/-- Cells that are laid out by a sound gadget are settled. -/
theorem assemble_sound
    {assembly : Assembly field α}
    {outputs : α → Set (Cell field)}
    (sound : Assembly.Sound known assembly outputs) :
    Sound known (assemble assembly) outputs := by
  refine (lay_sound sound.synthesis).bind fun ended arises => ?_
  cases ended with
  | ok result => exact Sound.pure Set.subset_union_right
  | error stop =>
      obtain ⟨machine, gives⟩ := arises
      have otherStop : stop ≠ .report .unsatisfied := by
        rintro rfl
        exact sound.reports machine.transcript (Except.ok.inj gives)
      refine Sound.throw ?_
      cases stop with
      | crash => exact fun same => nomatch same
      | report failure =>
          intro same
          injection same with sameFailure
          injection sameFailure with sameCircuit
          exact otherStop (congrArg Stop.report sameCircuit)

end Translation

namespace Synthesis

variable {field : PrimeField}

/-- Cells of the prover's choice are recorded, and keep a transcript consistent. -/
theorem witnesses_recorded (values : List (Element field)) (transcript : Transcript field) :
    transcript.ExtendedBy (witnesses values transcript).2
      ∧ (transcript.Consistent → (witnesses values transcript).2.Consistent)
      ∧ ∀ cell ∈ (witnesses values transcript).1, (witnesses values transcript).2.Records cell := by
  induction values generalizing transcript with
  | nil => exact ⟨.refl transcript, id, fun cell member => nomatch member⟩
  | cons value rest inductionHypothesis =>
      let block : Block field := ⟨[.plain (.witness value)], []⟩
      have laid : witnesses (value :: rest) transcript =
          (⟨transcript.size, value⟩ :: (witnesses rest (transcript.lay block)).1,
            (witnesses rest (transcript.lay block)).2) := by
        unfold witnesses
        rw [List.mapM_cons]
        rfl
      obtain ⟨extended, consistent, recorded⟩ := inductionHypothesis (transcript.lay block)
      rw [laid]
      refine ⟨(transcript.extendedBy_lay block).trans extended, fun isConsistent => ?_, ?_⟩
      · exact consistent (isConsistent.lay (Block.single_honest _) (by simp [block]))
      · refine List.forall_mem_cons.mpr ⟨?_, recorded⟩
        have first : block.entries[0]? = some (.plain (.witness value)) := rfl
        have new := transcript.value?_lay first
        exact extended.value_eq new

end Synthesis

namespace Instruction

variable {field : PrimeField} {known : Set (Cell field)}

theorem exposed_eq_of_toList
    {machine : Machine field}
    {first : Array (Cell field)}
    {rest : List (Array (Cell field))}
    (columns : machine.instances.toList = first :: rest) :
    machine.exposed = first.toList := by
  rw [Machine.exposed, Array.getD_eq_getD_getElem?, ← Array.getElem?_toList, columns]
  rfl

/-- The machine after elements were exposed. -/
def exposedMachine (elements : List (Element field)) (machine : Machine field) : Machine field :=
  ((exposeElements elements).run machine).2

/-- The exposed cells grow at the end of the first column. -/
theorem columns_exposedMachine
    (elements : List (Element field))
    {machine : Machine field}
    {first : Array (Cell field)}
    {rest : List (Array (Cell field))}
    (columns : machine.instances.toList = first :: rest) :
    (exposedMachine elements machine).instances.toList =
      (first ++ (Synthesis.witnesses elements machine.transcript).1) :: rest := by
  change (machine.instances.modify 0 _).toList = _
  rw [Array.toList_modify, columns]
  rfl

theorem exists_first_column
    {machine : Machine field}
    (nonempty : 0 < machine.instances.size) :
    ∃ first rest, machine.instances.toList = first :: rest := by
  rw [← Array.length_toList] at nonempty
  exact List.exists_cons_of_length_pos nonempty

/-- Exposing elements keeps what was laid out and exposed. -/
theorem extendedBy_exposedMachine (elements : List (Element field)) (machine : Machine field) :
    machine.ExtendedBy (exposedMachine elements machine) := by
  refine ⟨rfl, (Synthesis.witnesses_recorded elements machine.transcript).1, ?_⟩
  rcases Nat.eq_zero_or_pos machine.instances.size with empty | nonempty
  · have noColumns : machine.exposed = [] := by
      rw [Machine.exposed, Array.getD_eq_getD_getElem?, Array.getElem?_eq_none (by omega)]
      rfl
    rw [noColumns]
    exact List.nil_subset _
  · obtain ⟨first, rest, columns⟩ := exists_first_column nonempty
    rw [exposed_eq_of_toList columns,
      exposed_eq_of_toList (columns_exposedMachine elements columns)]
    simp

/-- Exposed elements are settled, although nothing but their exposure fixes them. -/
theorem exposeElements_sound {elements : List (Element field)} :
    Translation.Sound known (exposeElements elements) (fun cells => {cell | cell ∈ cells}) := by
  refine ⟨extendedBy_exposedMachine elements, fun machine sound settled => ?_,
    fun machine sound settled result gives cell member => ?_,
    fun machine sound settled report => nomatch report⟩
  all_goals
    have extended := extendedBy_exposedMachine elements machine
    obtain ⟨-, consistent, recorded⟩ :=
      Synthesis.witnesses_recorded elements machine.transcript
    obtain ⟨first, rest, columns⟩ := exists_first_column sound.columns
    have newColumns := columns_exposedMachine elements columns
  · refine ⟨consistent sound.consistent, fun cell isReached => ?_, fun cell isExposed => ?_, ?_⟩
    · exact extended.settles (sound.reached cell isReached)
    · obtain ⟨column, isColumn, member⟩ := isExposed
      change column ∈ (exposedMachine elements machine).instances.toList at isColumn
      rw [newColumns] at isColumn
      rcases List.mem_cons.mp isColumn with rfl | isOther
      · rw [Array.toList_appendList] at member
        rcases List.mem_append.mp member with earlier | new
        · refine extended.transcript.value_eq (sound.exposed cell ⟨first, ?_, earlier⟩)
          rw [columns]
          exact List.mem_cons_self
        · exact recorded cell new
      · refine extended.transcript.value_eq (sound.exposed cell ⟨column, ?_, member⟩)
        rw [columns]
        exact List.mem_cons_of_mem first isOther
    · change 0 < (exposedMachine elements machine).instances.size
      rw [← Array.length_toList, newColumns]
      exact Nat.zero_lt_succ _
  · obtain rfl : (Synthesis.witnesses elements machine.transcript).1 = result :=
      Except.ok.inj gives
    refine ⟨recorded cell member, fun assignment _ held => held cell ?_⟩
    change cell ∈ (exposedMachine elements machine).exposed
    rw [exposed_eq_of_toList newColumns, Array.toList_appendList]
    exact List.mem_append_right _ member

end Instruction

end Plonkish
