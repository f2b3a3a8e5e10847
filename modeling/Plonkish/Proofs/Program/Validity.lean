import Plonkish.Proofs.Program.Definition

namespace Plonkish

/-!
# Exact validation

Which programs are valid, said without the loop that checks them: instructions
have as many operands as their opcodes take, refer to names of earlier
instructions, and have different names. Validation accepts these programs, and
otherwise reports the first defect of the first instruction that has one. What
carries this over the loop is that a list of instructions is checked as its front
is, and then its back with the names of the front defined.
-/

namespace Instruction

/-- An instruction refers to the values that its operands are. -/
theorem mem_uses_iff {instruction : Instruction} {id : ValueId} :
    id ∈ instruction.uses ↔ ∃ type, .value id type ∈ instruction.operands := by
  rw [uses, List.mem_filterMap]
  constructor
  · rintro ⟨operand, member, isValue⟩
    cases operand with
    | constant content => cases isValue
    | value other type =>
        obtain rfl := Option.some.inj isValue
        exact ⟨type, member⟩
  · rintro ⟨type, member⟩
    exact ⟨.value id type, member, rfl⟩

/--
The defect of an instruction that comes after others.

Of several it is the first in this order: the number of operands, the first
operand that is not defined, the name.
-/
inductive Offends (earlier : List Instruction) (instruction : Instruction) : Defect → Prop
  | arity
      (miscounted : instruction.operands.length ≠ instruction.opcode.arity) :
      Offends earlier instruction
        (.arity instruction.id instruction.opcode instruction.operands.length)
  | useBeforeDefinition
      {front back : List Operand}
      {id : ValueId}
      {type : ValueType}
      (counted : instruction.operands.length = instruction.opcode.arity)
      (split : instruction.operands = front ++ .value id type :: back)
      (undefined : id ∉ earlier.map Instruction.id)
      (defined : ∀ other type, .value other type ∈ front → other ∈ earlier.map Instruction.id) :
      Offends earlier instruction (.useBeforeDefinition instruction.id id)
  | redefinition
      (counted : instruction.operands.length = instruction.opcode.arity)
      (defined : ∀ other type, .value other type ∈ instruction.operands →
        other ∈ earlier.map Instruction.id)
      (again : instruction.id ∈ earlier.map Instruction.id) :
      Offends earlier instruction (.redefinition instruction.id)

/-- The first value that is not defined is the one whose operand comes first. -/
theorem find?_uses_eq_some_iff {instruction : Instruction} {defined : List ValueId} {id : ValueId} :
    instruction.uses.find? (fun operand => decide (operand ∉ defined)) = some id ↔
      ∃ front type back, instruction.operands = front ++ .value id type :: back ∧ id ∉ defined
        ∧ ∀ other type, .value other type ∈ front → other ∈ defined := by
  rw [uses, List.find?_filterMap, Option.bind_eq_some_iff]
  simp only [List.find?_eq_some_iff_append]
  constructor
  · rintro ⟨operand, ⟨undefined, front, back, split, earlier⟩, isValue⟩
    cases operand with
    | constant content => cases isValue
    | value other type =>
        obtain rfl := Option.some.inj isValue
        refine ⟨front, type, back, split, by simpa [Operand.valueId?] using undefined, ?_⟩
        intro other otherType member
        simpa [Operand.valueId?] using earlier _ member
  · rintro ⟨front, type, back, split, undefined, earlier⟩
    refine ⟨.value id type, ⟨by simpa [Operand.valueId?] using undefined, front, back, split, ?_⟩,
      rfl⟩
    intro operand member
    cases operand with
    | constant content => rfl
    | value other otherType => simpa [Operand.valueId?] using earlier other otherType member

/-- The check of an instruction finds its defect after those whose names are defined. -/
theorem defect?_eq_some_iff
    {earlier : List Instruction}
    {instruction : Instruction}
    {defined : List ValueId}
    (same : ∀ id, id ∈ defined ↔ id ∈ earlier.map Instruction.id)
    {defect : Defect} :
    instruction.defect? defined = some defect ↔ instruction.Offends earlier defect := by
  constructor
  · intro found
    unfold defect? at found
    split at found
    next miscounted =>
      cases found
      exact .arity miscounted
    next counted =>
      split at found
      next id undefinedFirst =>
        cases found
        obtain ⟨front, type, back, split, undefined, earlierDefined⟩ :=
          find?_uses_eq_some_iff.mp undefinedFirst
        exact .useBeforeDefinition (not_not.mp counted) split ((same id).not.mp undefined)
          fun other type member => (same other).mp (earlierDefined other type member)
      next allDefined =>
        split at found
        next again =>
          cases found
          refine .redefinition (not_not.mp counted) (fun other type member => ?_)
            ((same _).mp again)
          have noneUndefined := List.find?_eq_none.mp allDefined other
            (mem_uses_iff.mpr ⟨type, member⟩)
          exact (same other).mp (by simpa using noneUndefined)
        next => cases found
  · intro offends
    unfold defect?
    cases offends with
    | arity miscounted => rw [if_pos miscounted]
    | useBeforeDefinition counted split undefined earlierDefined =>
        have undefinedFirst := find?_uses_eq_some_iff.mpr
          ⟨_, _, _, split, (same _).not.mpr undefined,
            fun other type member => (same other).mpr (earlierDefined other type member)⟩
        rw [if_neg (not_not.mpr counted), undefinedFirst]
    | redefinition counted earlierDefined again =>
        have allDefined :
            instruction.uses.find? (fun operand => decide (operand ∉ defined)) = none := by
          rw [List.find?_eq_none]
          intro id used
          obtain ⟨type, member⟩ := mem_uses_iff.mp used
          simpa using (same id).mpr (earlierDefined id type member)
        rw [if_neg (not_not.mpr counted), allDefined]
        exact if_pos ((same _).mpr again)

/-- An instruction has no defect if it is as a valid program asks of it. -/
theorem not_offends_iff {earlier : List Instruction} {instruction : Instruction} :
    (∀ defect, ¬instruction.Offends earlier defect) ↔
      instruction.operands.length = instruction.opcode.arity
        ∧ (∀ id type, .value id type ∈ instruction.operands → id ∈ earlier.map Instruction.id)
        ∧ instruction.id ∉ earlier.map Instruction.id := by
  have noDefect : instruction.defect? (earlier.map Instruction.id) = none ↔ _ :=
    defect?_eq_none_iff
  simp only [mem_uses_iff, forall_exists_index] at noDefect
  rw [← noDefect, Option.eq_none_iff_forall_ne_some]
  simp only [ne_eq, defect?_eq_some_iff fun _ => Iff.rfl]

/-- An instruction that refers to its own name, which no earlier one has, is at fault for a use. -/
theorem Offends.of_ownName
    {earlier : List Instruction}
    {instruction : Instruction}
    (counted : instruction.operands.length = instruction.opcode.arity)
    {type : ValueType}
    (ownName : .value instruction.id type ∈ instruction.operands)
    (new : instruction.id ∉ earlier.map Instruction.id) :
    ∃ operand, instruction.Offends earlier (.useBeforeDefinition instruction.id operand) := by
  have offends : ∃ defect, instruction.Offends earlier defect := by
    by_contra none
    exact new ((not_offends_iff.mp (not_exists.mp none)).2.1 _ _ ownName)
  obtain ⟨defect, offends⟩ := offends
  cases offends with
  | arity miscounted => exact (miscounted counted).elim
  | useBeforeDefinition counted split undefined defined =>
      exact ⟨_, .useBeforeDefinition counted split undefined defined⟩
  | redefinition counted defined again => exact (new again).elim

end Instruction

namespace Program

/--
A program that can be translated in the order of its instructions.

A value operand has the name of a strictly earlier instruction.
-/
structure Valid (program : Program) : Prop where
  counted : ∀ instruction ∈ program.instructions,
    instruction.operands.length = instruction.opcode.arity
  defined : ∀ earlier instruction later, program.instructions = earlier ++ instruction :: later →
    ∀ id type, .value id type ∈ instruction.operands → id ∈ earlier.map Instruction.id
  distinct : (program.instructions.map Instruction.id).Nodup

/-- The back of a list is checked if its front has no defect, whose names are defined then. -/
theorem firstDefect?_append (defined : List ValueId) (front back : List Instruction) :
    firstDefect? defined (front ++ back) =
      (firstDefect? defined front).or
        (firstDefect? ((front.map Instruction.id).reverse ++ defined) back) := by
  induction front generalizing defined with
  | nil => rfl
  | cons instruction rest inductionHypothesis =>
      simp only [List.cons_append, firstDefect?]
      cases instruction.defect? defined with
      | some defect => rfl
      | none => simp [inductionHypothesis]

/-- The defect that is found belongs to the first instruction that has one. -/
theorem firstDefect?_eq_some_iff {instructions : List Instruction} {defect : Defect} :
    firstDefect? [] instructions = some defect ↔
      ∃ earlier instruction later, instructions = earlier ++ instruction :: later
        ∧ firstDefect? [] earlier = none ∧ instruction.Offends earlier defect := by
  have single : ∀ (earlier : List Instruction) (instruction : Instruction) (defect : Defect),
      instruction.defect? ((earlier.map Instruction.id).reverse ++ []) = some defect ↔
        instruction.Offends earlier defect := by
    intro earlier instruction defect
    exact Instruction.defect?_eq_some_iff fun id => by simp
  constructor
  · -- From the last instruction on, so that what comes before it is the list of the hypothesis.
    intro found
    induction instructions using List.reverseRecOn with
    | nil => cases found
    | append_singleton front last inductionHypothesis =>
        rw [firstDefect?_append, Option.or_eq_some_iff] at found
        rcases found with inFront | ⟨noneInFront, inLast⟩
        · obtain ⟨earlier, instruction, later, rfl, noneEarlier, offends⟩ :=
            inductionHypothesis inFront
          exact ⟨earlier, instruction, later ++ [last], by simp, noneEarlier, offends⟩
        · refine ⟨front, last, [], rfl, noneInFront, (single front last defect).mp ?_⟩
          unfold firstDefect? at inLast
          split at inLast
          next found => exact found.trans inLast
          next => cases inLast
  · rintro ⟨earlier, instruction, later, rfl, noneEarlier, offends⟩
    rw [firstDefect?_append, noneEarlier, Option.none_or, firstDefect?,
      (single earlier instruction defect).mpr offends]

/-- No defect is found exactly if no instruction has one. -/
theorem firstDefect?_eq_none_iff {instructions : List Instruction} :
    firstDefect? [] instructions = none ↔
      ∀ earlier instruction later, instructions = earlier ++ instruction :: later →
        ∀ defect, ¬instruction.Offends earlier defect := by
  constructor
  · rintro valid earlier instruction later rfl defect offends
    have noneEarlier := valid
    rw [firstDefect?_append, Option.or_eq_none_iff] at noneEarlier
    have found := firstDefect?_eq_some_iff.mpr
      ⟨earlier, instruction, later, rfl, noneEarlier.1, offends⟩
    rw [valid] at found
    cases found
  · intro none
    by_contra some
    obtain ⟨defect, found⟩ := Option.ne_none_iff_exists'.mp some
    obtain ⟨earlier, instruction, later, split, -, offends⟩ := firstDefect?_eq_some_iff.mp found
    exact none earlier instruction later split defect offends

/-- A program is valid exactly if none of its instructions has a defect. -/
theorem valid_iff {program : Program} :
    program.Valid ↔
      ∀ earlier instruction later, program.instructions = earlier ++ instruction :: later →
        ∀ defect, ¬instruction.Offends earlier defect := by
  constructor
  · intro valid earlier instruction later split
    refine Instruction.not_offends_iff.mpr ⟨?_, valid.defined earlier instruction later split, ?_⟩
    · exact valid.counted instruction (by simp [split])
    · have distinct := valid.distinct
      rw [split, List.map_append, List.map_cons] at distinct
      exact fun member => distinct.disjoint member List.mem_cons_self
  · intro none
    refine ⟨?_, ?_, (nodup_of_firstDefect? (firstDefect?_eq_none_iff.mpr none)).1⟩
    · intro instruction member
      obtain ⟨earlier, later, split⟩ := List.append_of_mem member
      exact (Instruction.not_offends_iff.mp (none earlier instruction later split)).1
    · intro earlier instruction later split
      exact (Instruction.not_offends_iff.mp (none earlier instruction later split)).2.1

theorem validate_eq_ok_iff {program : Program} : program.validate = .ok () ↔ program.Valid := by
  rw [valid_iff, ← firstDefect?_eq_none_iff, validate]
  cases firstDefect? [] program.instructions with
  | some defect => exact iff_of_false nofun nofun
  | none => exact iff_of_true rfl rfl

theorem validate_eq_error_iff {program : Program} {defect : Defect} :
    program.validate = .error defect ↔ firstDefect? [] program.instructions = some defect := by
  rw [validate]
  cases firstDefect? [] program.instructions with
  | some found => simp
  | none => exact iff_of_false nofun nofun

/--
Validation accepts the valid programs and otherwise finds the first defect.

The defect that is reported is that of the first instruction with a defect. A
program that is accepted stays so without its last instructions. And an instruction
that refers to its own name, where no earlier one has it, uses it before it is
defined.
-/
theorem validate_exact (program : Program) :
    (program.validate = .ok () ↔ program.Valid)
      ∧ (∀ defect, program.validate = .error defect ↔
        ∃ earlier instruction later, program.instructions = earlier ++ instruction :: later
          ∧ instruction.Offends earlier defect
          ∧ ∀ front other back, earlier = front ++ other :: back →
            ∀ lesser, ¬other.Offends front lesser)
      ∧ (∀ earlier later, program.instructions = earlier ++ later → program.validate = .ok () →
        validate { program with instructions := earlier } = .ok ())
      ∧ ∀ earlier instruction later, program.instructions = earlier ++ instruction :: later →
        validate { program with instructions := earlier } = .ok () →
        instruction.operands.length = instruction.opcode.arity →
        (∃ type, .value instruction.id type ∈ instruction.operands) →
        instruction.id ∉ earlier.map Instruction.id →
          ∃ operand,
            program.validate = .error (.useBeforeDefinition instruction.id operand) := by
  refine ⟨validate_eq_ok_iff, fun defect => ?_, fun earlier later split accepted => ?_, ?_⟩
  · rw [validate_eq_error_iff, firstDefect?_eq_some_iff]
    simp only [firstDefect?_eq_none_iff, and_comm]
  · rw [validate_eq_ok_iff, valid_iff] at accepted ⊢
    rintro front instruction back rfl
    exact accepted front instruction (back ++ later) (by simp [split])
  · rintro earlier instruction later split accepted counted ⟨type, ownName⟩ new
    obtain ⟨operand, offends⟩ := Instruction.Offends.of_ownName counted ownName new
    rw [validate_eq_ok_iff, valid_iff, ← firstDefect?_eq_none_iff] at accepted
    exact ⟨operand, validate_eq_error_iff.mpr (firstDefect?_eq_some_iff.mpr
      ⟨earlier, instruction, later, split, accepted, offends⟩)⟩

/-- A program whose second instruction, a load, refers to its own name. -/
def loadSelf : Program where
  inputs := [.field "1"]
  instructions := [⟨⟨0⟩, .param, [.constant (.integer 0)]⟩,
    ⟨⟨5⟩, .load, [.value ⟨5⟩ .pointer, .constant (.integer 0)]⟩]

/-- The load is at fault for the use, although its name is new; what is before it is accepted. -/
theorem validate_exact_loadSelf :
    validate { loadSelf with instructions := loadSelf.instructions.take 1 } = .ok ()
      ∧ (∃ operand, loadSelf.validate = .error (.useBeforeDefinition ⟨5⟩ operand))
      ∧ ¬loadSelf.Valid := by
  obtain ⟨accepts, -, -, ownName⟩ := validate_exact loadSelf
  have front : validate { loadSelf with instructions := loadSelf.instructions.take 1 } = .ok () :=
    rfl
  obtain ⟨operand, refused⟩ := ownName (loadSelf.instructions.take 1) _ [] rfl front rfl
    ⟨.pointer, List.mem_cons_self⟩ (by decide)
  refine ⟨front, ⟨operand, refused⟩, fun valid => ?_⟩
  rw [accepts.mpr valid] at refused
  cases refused

end Program

end Plonkish
