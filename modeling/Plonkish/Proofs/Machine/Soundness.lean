import Plonkish.Machine.State
import Plonkish.Proofs.Circuit.Soundness

namespace Plonkish

/-!
# Sound machines

A program can reach the cells that its frame binds and that its memory stores. A
machine is sound if its transcript is consistent, every cell that the program
can reach is settled, and every exposed cell holds the value of its handle.

A step of translation is sound if it keeps machines sound and settles the cells
that it gives, where some cells are settled already. A step that fails still
keeps machines sound, and never fails because a circuit is not satisfied.
-/

theorem Policy.instanceColumns_pos
    {policy : Policy}
    (accepted : policy.validate = .ok ()) :
    0 < policy.instanceColumns := by
  unfold Policy.validate at accepted
  split at accepted
  · cases accepted
  split at accepted
  · cases accepted
  split at accepted
  · cases accepted
  next noColumns => omega

namespace Machine

variable {field : PrimeField}

/-- A cell is bound in the frame or stored in memory. -/
def Reaches (machine : Machine field) (cell : Cell field) : Prop :=
  (∃ id slot, machine.frame.get? id = some slot ∧ cell ∈ slot.cells)
    ∨ ∃ pointer : Nat, machine.memory.stored[pointer]? = some cell

/-- A cell holds the value of its handle, and can hold no other. -/
def Settles (machine : Machine field) (cell : Cell field) : Prop :=
  machine.transcript.Settles machine.exposed cell

/-- A cell is exposed in some column of public inputs. -/
def Exposes (machine : Machine field) (cell : Cell field) : Prop :=
  ∃ column ∈ machine.instances.toList, cell ∈ column.toList

/-- The transcript is consistent, and what a program can reach is settled. -/
structure Sound (machine : Machine field) : Prop where
  consistent : machine.transcript.Consistent
  reached : ∀ cell, machine.Reaches cell → machine.Settles cell
  exposed : ∀ cell, machine.Exposes cell → machine.transcript.Records cell
  /-- There is a first column of public inputs. -/
  columns : 0 < machine.instances.size

/-- A later machine keeps its policy, what was laid out and what was exposed. -/
structure ExtendedBy (earlier later : Machine field) : Prop where
  policy : later.policy = earlier.policy
  transcript : earlier.transcript.ExtendedBy later.transcript
  exposed : earlier.exposed ⊆ later.exposed

namespace ExtendedBy

variable {first second third : Machine field}

theorem refl (machine : Machine field) : machine.ExtendedBy machine :=
  ⟨rfl, .refl _, List.Subset.refl _⟩

theorem trans (earlier : first.ExtendedBy second) (later : second.ExtendedBy third) :
    first.ExtendedBy third where
  policy := later.policy.trans earlier.policy
  transcript := earlier.transcript.trans later.transcript
  exposed _ member := later.exposed (earlier.exposed member)

theorem settles
    (extended : first.ExtendedBy second)
    {cell : Cell field}
    (settled : first.Settles cell) :
    second.Settles cell :=
  settled.mono extended.transcript extended.exposed

end ExtendedBy

/-- The exposed cells of the first column are exposed. -/
theorem exposes_of_mem_exposed
    {machine : Machine field}
    {cell : Cell field}
    (member : cell ∈ machine.exposed) :
    machine.Exposes cell := by
  rw [exposed, Array.getD_eq_getD_getElem?] at member
  cases present : machine.instances[0]? with
  | none => simp [present] at member
  | some column =>
      rw [present] at member
      exact ⟨column, Array.mem_toList_iff.mpr (Array.mem_of_getElem? present), member⟩

/-- A new machine has an accepted policy, and nothing else. -/
theorem eq_of_create
    {policy : Policy}
    {machine : Machine field}
    (created : create field policy = .ok machine) :
    policy.validate = .ok ()
      ∧ machine =
        ⟨policy, .empty, .empty, .empty, Array.replicate policy.instanceColumns #[], none⟩ := by
  unfold create at created
  cases accepted : policy.validate with
  | error failure =>
      rw [accepted] at created
      cases created
  | ok _ =>
      rw [accepted] at created
      cases created
      exact ⟨rfl, rfl⟩

theorem sound_of_create
    {policy : Policy}
    {machine : Machine field}
    (created : create field policy = .ok machine) :
    machine.Sound := by
  obtain ⟨accepted, rfl⟩ := eq_of_create created
  refine ⟨Transcript.consistent_empty, ?_, ?_, ?_⟩
  · rintro cell (⟨id, slot, bound, -⟩ | ⟨pointer, stored⟩)
    · simp [Frame.empty, Frame.get?] at bound
    · simp [Memory.empty] at stored
  · rintro cell ⟨column, isColumn, member⟩
    simp only [Array.toList_replicate, List.mem_replicate] at isColumn
    simp [isColumn.2] at member
  · rw [Array.size_replicate]
    exact Policy.instanceColumns_pos accepted

end Machine

namespace Translation

variable {field : PrimeField}

/-- A step can end with a result. -/
def Gives (translation : Translation field α) (result : α) : Prop :=
  ∃ machine : Machine field, (translation.run machine).1 = .ok result

/-- The failure that a circuit is not satisfied. -/
abbrev unsatisfied : Stop Failure := .report (.circuit .unsatisfied)

/-- Wherever some cells are settled, the machine stays sound and the results are settled. -/
structure Sound
    (known : Set (Cell field))
    (translation : Translation field α)
    (outputs : α → Set (Cell field)) :
    Prop where
  extended : ∀ machine : Machine field, machine.ExtendedBy (translation.run machine).2
  sound : ∀ machine : Machine field, machine.Sound → (∀ cell ∈ known, machine.Settles cell) →
    (translation.run machine).2.Sound
  settles : ∀ machine : Machine field, machine.Sound → (∀ cell ∈ known, machine.Settles cell) →
    ∀ result, (translation.run machine).1 = .ok result →
      ∀ cell ∈ outputs result, (translation.run machine).2.Settles cell
  reports : ∀ machine : Machine field, machine.Sound → (∀ cell ∈ known, machine.Settles cell) →
    (translation.run machine).1 ≠ .error unsatisfied

namespace Sound

variable {known : Set (Cell field)}

theorem pure
    {result : α}
    {outputs : α → Set (Cell field)}
    (given : outputs result ⊆ known) :
    Sound known (Pure.pure result : Translation field α) outputs where
  extended machine := .refl machine
  sound _ sound _ := sound
  settles _ _ settled result same cell member := by
    obtain rfl := Except.ok.inj same
    exact settled cell (given member)
  reports _ _ _ report := nomatch report

/-- After a step, what it gives is settled besides what was. -/
theorem after_run
    {translation : Translation field α}
    {outputs : α → Set (Cell field)}
    (translationSound : Sound known translation outputs)
    {machine after : Machine field}
    {result : α}
    (ended : translation.run machine = (.ok result, after))
    (sound : machine.Sound)
    (settled : ∀ cell ∈ known, machine.Settles cell) :
    translation.Gives result ∧ after.Sound ∧ ∀ cell ∈ known ∪ outputs result, after.Settles cell := by
  have gives : (translation.run machine).1 = .ok result := by rw [ended]
  have extended := translationSound.extended machine
  have soundAfter := translationSound.sound machine sound settled
  have new := translationSound.settles machine sound settled result gives
  rw [ended] at extended soundAfter new
  refine ⟨⟨machine, gives⟩, soundAfter, ?_⟩
  rintro cell (earlier | given)
  · exact extended.settles (settled cell earlier)
  · exact new cell given

/-- What one step settles is known to the next. -/
theorem bind
    {first : Translation field α}
    {next : α → Translation field β}
    {between : α → Set (Cell field)}
    {outputs : β → Set (Cell field)}
    (firstSound : Sound known first between)
    (nextSound : ∀ result, first.Gives result →
      Sound (known ∪ between result) (next result) outputs) :
    Sound known (first >>= next) outputs := by
  refine ⟨fun machine => ?_, fun machine sound settled => ?_,
    fun machine sound settled => ?_, fun machine sound settled => ?_⟩
  · have extended := firstSound.extended machine
    rw [run_bind]
    rcases ended : first.run machine with ⟨stop | result, after⟩
    · simpa [ended] using extended
    · rw [ended] at extended
      exact extended.trans ((nextSound result ⟨machine, by rw [ended]⟩).extended after)
  · have soundAfter := firstSound.sound machine sound settled
    rw [run_bind]
    rcases ended : first.run machine with ⟨stop | result, after⟩
    · simpa [ended] using soundAfter
    · obtain ⟨gives, soundBetween, settledBetween⟩ := firstSound.after_run ended sound settled
      exact (nextSound result gives).sound after soundBetween settledBetween
  · rw [run_bind]
    rcases ended : first.run machine with ⟨stop | result, after⟩
    · intro result impossible
      cases impossible
    · obtain ⟨gives, soundBetween, settledBetween⟩ := firstSound.after_run ended sound settled
      exact (nextSound result gives).settles after soundBetween settledBetween
  · have noReport := firstSound.reports machine sound settled
    rw [run_bind]
    rcases ended : first.run machine with ⟨stop | result, after⟩
    · intro report
      injection report with same
      exact noReport (by rw [ended, same])
    · obtain ⟨gives, soundBetween, settledBetween⟩ := firstSound.after_run ended sound settled
      exact (nextSound result gives).reports after soundBetween settledBetween

theorem throw
    {stop : Stop Failure}
    (otherReport : stop ≠ unsatisfied)
    {outputs : α → Set (Cell field)} :
    Sound known (MonadExcept.throw stop : Translation field α) outputs where
  extended machine := .refl machine
  sound _ sound _ := sound
  settles _ _ _ _ impossible := nomatch impossible
  reports _ _ _ report := otherReport (Except.error.inj report)

theorem crash {outputs : α → Set (Cell field)} :
    Sound known (Translation.crash : Translation field α) outputs := by
  have otherStop : (.crash : Stop Failure) ≠ unsatisfied := nofun
  exact throw otherStop

end Sound

end Translation

end Plonkish
