import Plonkish.Machine.Assignment
import Plonkish.Proofs.Machine.HandlerRenaming
import Plonkish.Proofs.Program.Agreement

namespace Plonkish

/-!
# Renamed programs

The names of values mean nothing beyond which of them are the same, and the
declared types of operands mean nothing but for the points that are added. A
program with other names and other types is valid exactly if the program is, each
of its instructions does the same, and so it comes to the same export or to the
same failure of the same instruction, about the new names.
-/

/-! ## Validation -/

section Validation

variable {newName : ValueId → ValueId} {instruction other : Instruction}
variable {names : Set ValueId} {defined : List ValueId}

/-- The names of operands are renamed in their order. -/
theorem Operand.filterMap_valueId?
    {typed : Prop}
    {operands others : List Operand}
    (same : List.Forall₂ (Operand.Recasts newName typed) operands others) :
    others.filterMap Operand.valueId? = (operands.filterMap Operand.valueId?).map newName := by
  induction same with
  | nil => rfl
  | cons first rest inductionHypothesis =>
      cases first with
      | @value id => exact congrArg (newName id :: ·) inductionHypothesis
      | constant content => exact inductionHypothesis

/-- A new name is defined exactly if the name it stands for is. -/
theorem mem_map_newName
    (injective : Set.InjOn newName names)
    (definedNames : ∀ id ∈ defined, id ∈ names)
    {id : ValueId}
    (mentioned : id ∈ names) :
    newName id ∈ defined.map newName ↔ id ∈ defined := by
  rw [List.mem_map]
  constructor
  · rintro ⟨found, isDefined, same⟩
    rwa [← injective (definedNames found isDefined) mentioned same]
  · intro isDefined
    exact ⟨id, isDefined, rfl⟩

/-- The first new name that is not defined stands for the first name that is not. -/
theorem find?_undefined_map
    (injective : Set.InjOn newName names)
    (definedNames : ∀ id ∈ defined, id ∈ names)
    {ids : List ValueId}
    (mentioned : ∀ id ∈ ids, id ∈ names) :
    (ids.map newName).find? (fun id => decide (id ∉ defined.map newName)) =
      (ids.find? fun id => decide (id ∉ defined)).map newName := by
  rw [List.find?_map]
  apply congrArg (Option.map newName)
  apply List.find?_congr
  intro id member
  simp only [Function.comp_apply, mem_map_newName injective definedNames (mentioned id member)]

/-- An instruction with new names has the same defect, about the new names. -/
theorem Instruction.Recasts.defect?
    (recasts : instruction.Recasts newName other)
    (injective : Set.InjOn newName names)
    (mentioned : ∀ id ∈ instruction.names, id ∈ names)
    (definedNames : ∀ id ∈ defined, id ∈ names) :
    other.defect? (defined.map newName) =
      (instruction.defect? defined).map (Defect.rename newName) := by
  have uses : other.uses = instruction.uses.map newName :=
    Operand.filterMap_valueId? recasts.operands
  have sameSearch : other.uses.find? (fun operand => decide (operand ∉ defined.map newName)) =
      (instruction.uses.find? fun operand => decide (operand ∉ defined)).map newName := by
    rw [uses]
    exact find?_undefined_map injective definedNames (mentions_uses mentioned)
  unfold Instruction.defect?
  rw [recasts.length_operands, recasts.opcode, recasts.id, sameSearch]
  split
  · rfl
  · cases instruction.uses.find? fun operand => decide (operand ∉ defined) with
    | some operand => rfl
    | none =>
        have sameName := mem_map_newName injective definedNames
          (mentioned instruction.id List.mem_cons_self)
        dsimp only [Option.map_none]
        by_cases redefined : instruction.id ∈ defined
        · rw [if_pos redefined, if_pos (sameName.mpr redefined)]
          rfl
        · rw [if_neg redefined, if_neg (mt sameName.mp redefined)]
          rfl

end Validation

/-! ## The end of a run -/

namespace Translation.Renames

variable {field : PrimeField} {newName : ValueId → ValueId} {names : Set ValueId}

/-- What a machine is laid out as does not depend on its frame. -/
theorem layout : Renames newName names (Translation.layout : Translation field Layout) .layout := by
  intro machine frame renamed
  unfold Translation.layout
  rw [run_bind, run_bind, run_get, run_get]
  dsimp only [Machine.withFrame]
  cases machine.policy.layout machine.transcript <;> exact ⟨frame, renamed, rfl⟩

/-- What a check comes to does not depend on the frame. -/
theorem check : Renames newName names (Translation.check : Translation field Layout) .check := by
  apply bind layout
  intro columns machine frame renamed
  rw [run_bind, run_bind, run_get, run_get]
  dsimp only [Machine.withFrame]
  cases Placement.ofTranscript? columns (machine.instances.toList.map Array.size)
      machine.transcript with
  | none => exact ⟨frame, renamed, rfl⟩
  | some breakPoints =>
      dsimp only
      split
      · by_cases satisfied : machine.Satisfied
        · have otherSatisfied : Machine.Satisfied { machine with frame } := satisfied
          simp only [satisfied, otherSatisfied, ↓reduceIte]
          exact ⟨frame, renamed, rfl⟩
        · have otherUnsatisfied : ¬Machine.Satisfied { machine with frame } := satisfied
          simp only [satisfied, otherUnsatisfied, ↓reduceIte]
          exact ⟨frame, renamed, rfl⟩
      · exact ⟨frame, renamed, rfl⟩

theorem finish (checked : Bool) :
    Renames newName names (Translation.finish checked : Translation field (Export field))
      (.finish checked) := by
  have ending (columns : Layout) : Renames newName names
      (do return .ofTranscript columns (← get).exposed (← get).transcript :
        Translation field (Export field))
      (do return .ofTranscript columns (← get).exposed (← get).transcript) :=
    fun _ frame renamed => ⟨frame, renamed, rfl⟩
  cases checked with
  | false => exact bind layout ending
  | true => exact bind check ending

end Translation.Renames

namespace Program

/-- The names that instructions mention. -/
def names (instructions : List Instruction) : Set ValueId :=
  { id | ∃ instruction ∈ instructions, id ∈ instruction.names }

/-- A program with new names, and with other types where no points are added. -/
structure Recasts (newName : ValueId → ValueId) (program other : Program) : Prop where
  inputs : other.inputs = program.inputs
  instructions : List.Forall₂ (Instruction.Recasts newName)
    program.instructions other.instructions

variable {field : PrimeField} {newName : ValueId → ValueId} {names : Set ValueId}
variable {instructions others : List Instruction}

theorem firstDefect?_of_recasts
    (injective : Set.InjOn newName names)
    (recasts : List.Forall₂ (Instruction.Recasts newName) instructions others)
    (mentioned : ∀ instruction ∈ instructions, ∀ id ∈ instruction.names, id ∈ names)
    {defined : List ValueId}
    (definedNames : ∀ id ∈ defined, id ∈ names) :
    firstDefect? (defined.map newName) others =
      (firstDefect? defined instructions).map (Defect.rename newName) := by
  induction recasts generalizing defined with
  | nil => rfl
  | @cons instruction other rest otherRest first _ inductionHypothesis =>
      obtain ⟨isMentioned, restMentioned⟩ := List.forall_mem_cons.mp mentioned
      rw [firstDefect?, firstDefect?, first.defect? injective isMentioned definedNames, first.id]
      cases instruction.defect? defined with
      | some defect => rfl
      | none =>
          exact inductionHypothesis restMentioned
            (List.forall_mem_cons.mpr ⟨isMentioned _ List.mem_cons_self, definedNames⟩)

/-- Instructions with new names do the same with them, one after the other. -/
theorem handleAll_renames
    (injective : Set.InjOn newName names)
    (recasts : List.Forall₂ (Instruction.Recasts newName) instructions others)
    (mentioned : ∀ instruction ∈ instructions, ∀ id ∈ instruction.names, id ∈ names)
    (inputs : List InputValue) :
    Translation.Renames newName names (handleAll inputs instructions : Translation field Unit)
      (handleAll inputs others) := by
  induction recasts with
  | nil => exact .pure ()
  | cons first _ inductionHypothesis =>
      obtain ⟨isMentioned, restMentioned⟩ := List.forall_mem_cons.mp mentioned
      exact .bind (first.handle injective isMentioned inputs)
        fun _ => inductionHypothesis restMentioned

/-- From a new machine, two translations that differ in names only come to the same. -/
theorem outcome_of_renames
    {policy : Policy}
    {start : Machine field}
    (created : Machine.create field policy = .ok start)
    {translation other : Translation field α}
    (renames : Translation.Renames newName names translation other) :
    (other.run start).1 =
      (translation.run start).1.mapError (Stop.map (Failure.rename newName)) := by
  have unbound : start.frame.Renamed newName names start.frame := by
    obtain ⟨-, rfl⟩ := Machine.eq_of_create created
    intro id _
    exact Std.TreeMap.getElem?_emptyc.trans Std.TreeMap.getElem?_emptyc.symm
  obtain ⟨later, -, ran⟩ := renames start start.frame unbound
  exact congrArg Prod.fst ran

/--
Names count up to renaming, and types only where points are added.

Where different names stay different, the program with the new names and types
has the same first defect, the first instructions of both come to the same,
however many they are, and so does the whole: to the same export, or to the same
failure at the same stage, about the new names.
-/
theorem assign_of_recasts
    {program other : Program}
    (injective : Set.InjOn newName (Program.names program.instructions))
    (recasts : program.Recasts newName other)
    (config : Config) :
    other.validate = program.validate.mapError (Defect.rename newName)
      ∧ (∀ start : Machine field, Machine.create field config.policy = .ok start → ∀ count,
        ((handleAll other.inputs (other.instructions.take count)).run start).1 =
          ((handleAll program.inputs (program.instructions.take count)).run start).1.mapError
            (Stop.map (Failure.rename newName)))
      ∧ other.assign field config =
        (program.assign field config).mapError (Stop.map (Failure.rename newName)) := by
  have mentioned : ∀ instruction ∈ program.instructions, ∀ id ∈ instruction.names,
      id ∈ Program.names program.instructions :=
    fun instruction member id named => ⟨instruction, member, named⟩
  have validated : other.validate = program.validate.mapError (Defect.rename newName) := by
    have sameDefect : firstDefect? ([].map newName) other.instructions = _ :=
      firstDefect?_of_recasts injective recasts.instructions mentioned nofun
    rw [List.map_nil] at sameDefect
    unfold validate
    rw [sameDefect]
    cases firstDefect? [] program.instructions <;> rfl
  refine ⟨validated, fun start created count => ?_, ?_⟩
  · rw [recasts.inputs]
    apply outcome_of_renames created
    apply handleAll_renames injective (List.forall₂_take count recasts.instructions)
    exact fun instruction member => mentioned instruction (List.mem_of_mem_take member)
  · unfold assign
    cases created : Machine.create field config.policy with
    | error failure => rfl
    | ok start =>
        dsimp only
        rw [validated]
        cases program.validate with
        | error defect => rfl
        | ok _ =>
            apply outcome_of_renames created
            unfold translate
            rw [recasts.inputs]
            exact .bind (handleAll_renames injective recasts.instructions mentioned _)
              fun _ => .finish config.checked

/-- Names that are ten further on. -/
def tenFurther (id : ValueId) : ValueId :=
  ⟨id.number + 10⟩

/-- A selection with other names, the operands of which are declared to be something else. -/
def renamedSelection : Program where
  inputs := selection.inputs
  instructions := [
    bindInput ⟨10⟩ 0,
    bindInput ⟨11⟩ 1,
    bindInput ⟨12⟩ 2,
    ⟨⟨13⟩, .select, [.value ⟨12⟩ .pointer, .value ⟨10⟩ (.vector 9), .value ⟨11⟩ .pointer]⟩]

theorem selection_recasts : selection.Recasts tenFurther renamedSelection where
  inputs := rfl
  instructions := by
    have binds (name : ValueId) (index : UInt64) :
        (bindInput name index).Recasts tenFurther (bindInput (tenFurther name) index) :=
      ⟨rfl, rfl, .cons (.constant _) .nil⟩
    refine .cons (binds ⟨0⟩ 0) (.cons (binds ⟨1⟩ 1) (.cons (binds ⟨2⟩ 2) (.cons ?_ .nil)))
    exact ⟨rfl, rfl, .cons (.value nofun) (.cons (.value nofun) (.cons (.value nofun) .nil))⟩

/-- A selection is exported in the same way whatever its names and types are. -/
theorem renamedSelection_assign :
    ∃ result : Export .bn254Scalar, selection.assign .bn254Scalar .standard = .ok result
      ∧ renamedSelection.assign .bn254Scalar .standard = .ok result := by
  have succeeds : (selection.assign .bn254Scalar .standard).isOk = true := by
    decide +kernel
  obtain ⟨result, assigned⟩ := exists_of_isOk succeeds
  have injective : Set.InjOn tenFurther (Program.names selection.instructions) := by
    intro first _ second _ same
    exact congrArg ValueId.mk ((UInt32.add_left_inj 10).mp (ValueId.mk.inj same))
  obtain ⟨-, -, sameOutcome⟩ :
      _ ∧ _ ∧ renamedSelection.assign .bn254Scalar .standard = _ :=
    assign_of_recasts injective selection_recasts .standard
  rw [assigned] at sameOutcome
  exact ⟨result, assigned, sameOutcome⟩

end Program

end Plonkish
