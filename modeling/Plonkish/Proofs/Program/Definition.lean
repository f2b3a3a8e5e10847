import Mathlib.Data.List.Nodup
import Plonkish.Proofs.Program.Effect

namespace Plonkish

/-!
# Definition before use

In a valid program every name that an instruction refers to is defined by exactly
one earlier instruction. An instruction that was translated has bound its name,
unless it is `fri_cosets`, whose result is in memory. So only the name of an
earlier `fri_cosets` can be missing, and it is missing wherever it is referred to.
-/

namespace Instruction

/-- When an instruction has no defect after some names were defined. -/
theorem defect?_eq_none_iff {defined : List ValueId} {instruction : Instruction} :
    instruction.defect? defined = none ↔
      instruction.operands.length = instruction.opcode.arity
        ∧ (∀ id ∈ instruction.uses, id ∈ defined)
        ∧ instruction.id ∉ defined := by
  unfold defect?
  split
  next different => simp [different]
  next sameArity =>
    cases found : instruction.uses.find? (fun operand => decide (operand ∉ defined)) with
    | some operand =>
        have member := List.mem_of_find?_eq_some found
        have undefined := List.find?_some found
        simp only [decide_eq_true_eq] at undefined
        simp only [reduceCtorEq, false_iff]
        rintro ⟨-, uses, -⟩
        exact undefined (uses operand member)
    | none =>
        have uses : ∀ id ∈ instruction.uses, id ∈ defined := by
          simpa using found
        have arity := not_not.mp sameArity
        by_cases redefined : instruction.id ∈ defined
        · simp [redefined]
        · simpa [arity, redefined] using uses

end Instruction

namespace Program

/-- Without a defect, names are new, and different instructions define different names. -/
theorem nodup_of_firstDefect?
    {defined : List ValueId}
    {instructions : List Instruction}
    (valid : firstDefect? defined instructions = none) :
    (instructions.map Instruction.id).Nodup
      ∧ ∀ instruction ∈ instructions, instruction.id ∉ defined := by
  induction instructions generalizing defined with
  | nil => simp
  | cons instruction rest inductionHypothesis =>
      unfold firstDefect? at valid
      cases first : instruction.defect? defined with
      | some defect =>
          rw [first] at valid
          cases valid
      | none =>
          rw [first] at valid
          obtain ⟨-, -, new⟩ := Instruction.defect?_eq_none_iff.mp first
          obtain ⟨distinct, later⟩ := inductionHypothesis valid
          constructor
          · rw [List.map_cons, List.nodup_cons, List.mem_map]
            refine ⟨?_, distinct⟩
            rintro ⟨other, member, same⟩
            exact later other member (same ▸ List.mem_cons_self)
          · rintro other (_ | ⟨_, member⟩)
            · exact new
            · intro isDefined
              exact later other member (List.mem_cons_of_mem _ isDefined)

/-- Without a defect, every name that is referred to was defined before. -/
theorem defined_of_firstDefect?
    {defined : List ValueId}
    {earlier later : List Instruction}
    {instruction : Instruction}
    (valid : firstDefect? defined (earlier ++ instruction :: later) = none)
    {id : ValueId}
    (used : id ∈ instruction.uses) :
    id ∈ defined ∨ ∃ definition ∈ earlier, definition.id = id := by
  induction earlier generalizing defined with
  | nil =>
      simp only [List.nil_append, firstDefect?] at valid
      cases first : instruction.defect? defined with
      | some defect =>
          rw [first] at valid
          cases valid
      | none =>
          obtain ⟨-, uses, -⟩ := Instruction.defect?_eq_none_iff.mp first
          exact .inl (uses id used)
  | cons head rest inductionHypothesis =>
      simp only [List.cons_append, firstDefect?] at valid
      cases first : head.defect? defined with
      | some defect =>
          rw [first] at valid
          cases valid
      | none =>
          rw [first] at valid
          rcases inductionHypothesis valid with isDefined | ⟨definition, member, same⟩
          · rcases List.mem_cons.mp isDefined with rfl | before
            · exact .inr ⟨head, List.mem_cons_self, rfl⟩
            · exact .inl before
          · exact .inr ⟨definition, List.mem_cons_of_mem head member, same⟩

theorem firstDefect?_of_validate
    {program : Program}
    (valid : program.validate = .ok ()) :
    firstDefect? [] program.instructions = none := by
  unfold validate at valid
  cases found : firstDefect? [] program.instructions with
  | some defect =>
      rw [found] at valid
      cases valid
  | none => rfl

variable {field : PrimeField}

/-- A run that stops has stopped at one of its instructions. -/
theorem exists_stop_of_handleAll
    {inputs : List InputValue}
    {instructions : List Instruction}
    {start final : Machine field}
    {stop : Stop Failure}
    (ended : (handleAll inputs instructions).run start = (.error stop, final)) :
    ∃ earlier instruction later machine, instructions = earlier ++ instruction :: later
      ∧ (handleAll inputs earlier).run start = (.ok (), machine)
      ∧ (instruction.handle inputs).run machine = (.error stop, final) := by
  induction instructions generalizing start with
  | nil => cases ended
  | cons instruction rest inductionHypothesis =>
      unfold handleAll at ended
      rw [run_bind] at ended
      rcases first : (instruction.handle inputs).run start with ⟨early | ⟨⟩, between⟩
      · rw [first] at ended
        refine ⟨[], instruction, rest, start, rfl, rfl, first.trans ?_⟩
        cases ended
        rfl
      · rw [first] at ended
        obtain ⟨earlier, stopping, later, machine, rfl, reached, stopped⟩ :=
          inductionHypothesis ended
        refine ⟨instruction :: earlier, stopping, later, machine, rfl, ?_, stopped⟩
        unfold handleAll
        rw [run_bind, first]
        exact reached

/-- After a run, the names are bound that were before, and those that its instructions bind. -/
theorem isSome_get?_of_handleAll
    {policy : Policy}
    {inputs : List InputValue}
    {instructions : List Instruction}
    {start handled : Machine field}
    (reachable : start.Reachable policy)
    (ended : (handleAll inputs instructions).run start = (.ok (), handled))
    (id : ValueId) :
    (handled.frame.get? id).isSome ↔
      (start.frame.get? id).isSome
        ∨ ∃ definition ∈ instructions,
          definition.id = id ∧ definition.opcode ≠ .friCosets := by
  induction instructions generalizing start with
  | nil =>
      cases ended
      simp
  | cons instruction rest inductionHypothesis =>
      obtain ⟨_, between, first, later⟩ := ok_of_run_bind ended
      have ends := reachable.ends inputs instruction
      have next := reachable.handle inputs instruction
      rw [first] at ends next
      rw [inductionHypothesis next later, Instruction.isSome_get?_of_ends ends]
      simp only [List.mem_cons, exists_eq_or_imp, or_assoc]

/-- In a valid program, what an instruction refers to is bound unless it is delivered in memory. -/
theorem definition_of_validate
    {program : Program}
    {policy : Policy}
    {start machine : Machine field}
    {earlier later : List Instruction}
    {instruction : Instruction}
    (valid : program.validate = .ok ())
    (created : Machine.create field policy = .ok start)
    (split : program.instructions = earlier ++ instruction :: later)
    (reached : (handleAll program.inputs earlier).run start = (.ok (), machine))
    {id : ValueId}
    (used : id ∈ instruction.uses) :
    ∃ definition ∈ earlier, definition.id = id
      ∧ ((machine.frame.get? id).isSome ↔ definition.opcode ≠ .friCosets) := by
  have noDefect := firstDefect?_of_validate valid
  rw [split] at noDefect
  obtain ⟨definition, member, rfl⟩ :=
    (defined_of_firstDefect? noDefect used).resolve_left List.not_mem_nil
  have distinct : (earlier.map Instruction.id).Nodup := by
    have all := (nodup_of_firstDefect? noDefect).1
    rw [List.map_append] at all
    exact all.of_append_left
  have unbound : start.frame.get? definition.id = none := by
    obtain ⟨-, rfl⟩ := Machine.eq_of_create created
    exact Std.TreeMap.getElem?_emptyc
  refine ⟨definition, member, rfl, ?_⟩
  rw [isSome_get?_of_handleAll (.create created) reached, unbound]
  constructor
  · rintro (isBound | ⟨other, otherMember, sameId, binds⟩)
    · cases isBound
    · obtain rfl := List.inj_on_of_nodup_map distinct otherMember member sameId
      exact binds
  · intro binds
    exact .inr ⟨definition, member, rfl, binds⟩

/--
A valid program refers to defined names, and misses only those that are not bound.

Whenever an instruction is reached, each name that it refers to was defined by an
earlier instruction, and is bound unless that is `fri_cosets`, which delivers its
result in memory. If a name is reported as missing, an instruction refers to it
and an earlier `fri_cosets` defines it.
-/
theorem missing_of_validate
    {program : Program}
    {policy : Policy}
    {start : Machine field}
    (valid : program.validate = .ok ())
    (created : Machine.create field policy = .ok start) :
    (∀ earlier instruction later, program.instructions = earlier ++ instruction :: later →
        ∀ machine, (handleAll program.inputs earlier).run start = (.ok (), machine) →
          ∀ id ∈ instruction.uses, ∃ definition ∈ earlier, definition.id = id
            ∧ ((machine.frame.get? id).isSome ↔ definition.opcode ≠ .friCosets))
      ∧ ∀ id final, (handleAll program.inputs program.instructions).run start =
          (.error (.report (.missingSymbol id)), final) →
        ∃ earlier instruction later, program.instructions = earlier ++ instruction :: later
          ∧ id ∈ instruction.uses
          ∧ ∃ definition ∈ earlier, definition.id = id ∧ definition.opcode = .friCosets := by
  constructor
  · intro earlier instruction later split machine reached id used
    exact definition_of_validate valid created split reached used
  · intro id final missing
    obtain ⟨earlier, instruction, later, machine, split, reached, refused⟩ :=
      exists_stop_of_handleAll missing
    obtain ⟨used, unbound⟩ := Instruction.justifies_of_handle refused id rfl
    obtain ⟨definition, member, sameId, isBound⟩ :=
      definition_of_validate valid created split reached used
    rw [unbound] at isBound
    refine ⟨earlier, instruction, later, split, used, definition, member, sameId, ?_⟩
    simpa using isBound

/-- Instructions that allocate three cells and write the cosets of an input there. -/
def computeCosets : List Instruction := [
  ⟨⟨0⟩, .param, [.constant (.integer 0)]⟩,
  ⟨⟨1⟩, .alloca, [.constant (.integer 3)]⟩,
  ⟨⟨2⟩, .friCosets, [.value ⟨1⟩ .pointer, .constant (.integer 1),
    .constant (.field .bn254Scalar "5"), .constant (.integer 1),
    .value ⟨0⟩ (.field .bn254Scalar)]⟩]

/-- A program that loads a coset from memory. -/
def loadCoset : Program where
  inputs := [.field "1"]
  instructions := computeCosets ++
    [⟨⟨3⟩, .load, [.value ⟨1⟩ .pointer, .constant (.integer 0)]⟩]

/-- A program that loads a coset does not refer to the name of the computation. -/
theorem loadCoset_not_missing :
    ¬∃ id final, (handleAll loadCoset.inputs loadCoset.instructions).run freshMachine =
      (.error (.report (.missingSymbol id)), final) := by
  rintro ⟨id, final, missing⟩
  have valid : loadCoset.validate = .ok () := by decide
  have created : Machine.create .bn254Scalar .standard = .ok freshMachine := rfl
  obtain ⟨earlier, instruction, later, split, used, definition, member, sameId, cosets⟩ :=
    (missing_of_validate valid created).2 id final missing
  have noReference : ∀ instruction ∈ loadCoset.instructions, ∀ id ∈ instruction.uses,
      ∀ definition ∈ loadCoset.instructions, definition.id = id →
        definition.opcode ≠ .friCosets := by
    decide
  have instructionMember : instruction ∈ loadCoset.instructions := by
    rw [split]
    simp
  have definitionMember : definition ∈ loadCoset.instructions := by
    rw [split]
    exact List.mem_append_left _ member
  exact noReference instruction instructionMember id used definition definitionMember sameId cosets

/-- A program that refers to the cosets by the name of their computation. -/
def nameCosets : Program where
  inputs := [.field "1"]
  instructions := computeCosets ++
    [⟨⟨3⟩, .gateArgument, [.value ⟨2⟩ (.vector 3), .constant (.array [1, 1, 1]),
      .constant (.integer 3), .value ⟨2⟩ (.vector 3), .constant (.integer 3),
      .value ⟨0⟩ (.field .bn254Scalar)]⟩]

/-- A valid program can miss a name. -/
theorem nameCosets_missing :
    ¬∀ (program : Program) (start : Machine .bn254Scalar),
      program.validate = .ok () → Machine.create .bn254Scalar .standard = .ok start →
        ∀ id, ((handleAll program.inputs program.instructions).run start).1 ≠
          .error (.report (.missingSymbol id)) := by
  intro neverMissing
  have valid : nameCosets.validate = .ok () := by decide
  have created : Machine.create .bn254Scalar .standard = .ok freshMachine := rfl
  have missing : ((handleAll nameCosets.inputs nameCosets.instructions).run freshMachine).1 =
      .error (.report (.missingSymbol ⟨2⟩)) := by
    decide +kernel
  exact neverMissing nameCosets freshMachine valid created ⟨2⟩ missing

end Program

end Plonkish
