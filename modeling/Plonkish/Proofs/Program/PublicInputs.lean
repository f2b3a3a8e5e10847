import Plonkish.Proofs.Machine.Exposure
import Plonkish.Proofs.Program.Agreement
import Plonkish.Proofs.Program.Effect

namespace Plonkish

/-!
# Public inputs

The public inputs of a program are the inputs that its `param` instructions name,
in the order of these instructions: an input that is named twice is there twice,
and one that is never named is not there. Their cells are laid out in this order,
so their offsets increase. All of them are in the first column.
-/

namespace Program

/-- The numbers that each instruction makes public, in the order of the instructions. -/
def Publishes
    (inputs : List InputValue)
    (instructions : List Instruction)
    (numbers : List (List Nat)) :
    Prop :=
  List.Forall₂ (Instruction.Publishes inputs) instructions numbers

variable {field : PrimeField} {policy : Policy} {inputs : List InputValue}
variable {instructions : List Instruction} {start handled : Machine field}
variable {numbers others : List (List Nat)}

/-- What instructions make public is determined by the inputs. -/
theorem Publishes.unique
    (first : Publishes inputs instructions numbers)
    (second : Publishes inputs instructions others) :
    numbers = others :=
  List.right_unique_forall₂' (Instruction.publishes_rightUnique inputs) first second

/-- What a run exposed in new cells. -/
structure RunExposes
    (inputs : List InputValue)
    (instructions : List Instruction)
    (start handled : Machine field)
    (numbers : List (List Nat))
    (cells : List (Cell field)) :
    Prop where
  exposed : handled.exposed = start.exposed ++ cells
  publishes : Publishes inputs instructions numbers
  values : cells.map Cell.value = numbers.flatten.map (Element.ofNat field)
  increasing : (cells.map Cell.offset).Pairwise (· < ·)
  new : ∀ cell ∈ cells, start.transcript.size ≤ cell.offset
  others : handled.instances.toList.tail = start.instances.toList.tail

namespace RunExposes

/-- A run that has not begun exposes nothing. -/
theorem nil : RunExposes inputs [] start start [] [] where
  exposed := (List.append_nil _).symm
  publishes := .nil
  values := rfl
  increasing := .nil
  new := nofun
  others := rfl

/-- One instruction after the other exposes the cells of one after those of the other. -/
theorem cons
    {instruction : Instruction}
    {between : Machine field}
    {own : List Nat}
    {first rest : List (Cell field)}
    (recorded : ∀ cell ∈ first, cell.offset < between.transcript.size)
    (grown : start.transcript.size ≤ between.transcript.size)
    (exposes : instruction.Exposes inputs start between own first)
    (continues : RunExposes inputs instructions between handled numbers rest) :
    RunExposes inputs (instruction :: instructions) start handled (own :: numbers)
      (first ++ rest) where
  exposed := by rw [continues.exposed, exposes.exposed, List.append_assoc]
  publishes := .cons exposes.publishes continues.publishes
  values := by
    rw [List.map_append, exposes.values, continues.values, List.flatten_cons, List.map_append]
  increasing := by
    rw [List.map_append, List.pairwise_append]
    refine ⟨?_, continues.increasing, ?_⟩
    · rw [exposes.offsets]
      exact List.pairwise_lt_range'
    · intro earlier isFirst later isRest
      obtain ⟨cell, member, rfl⟩ := List.mem_map.mp isFirst
      obtain ⟨other, otherMember, rfl⟩ := List.mem_map.mp isRest
      exact Nat.lt_of_lt_of_le (recorded cell member) (continues.new other otherMember)
  new := by
    intro cell member
    rcases List.mem_append.mp member with isFirst | isRest
    · have offset := List.mem_map_of_mem (f := Cell.offset) isFirst
      rw [exposes.offsets, List.mem_range'_1] at offset
      exact offset.1
    · exact grown.trans (continues.new cell isRest)
  others := continues.others.trans exposes.others

end RunExposes

/-- A run that succeeds exposes the inputs that its instructions name, and nothing else. -/
theorem exists_runExposes_of_handleAll
    (reachable : start.Reachable policy)
    (ended : (handleAll inputs instructions).run start = (.ok (), handled)) :
    ∃ numbers cells, RunExposes inputs instructions start handled numbers cells := by
  induction instructions generalizing start with
  | nil =>
      cases ended
      exact ⟨[], [], .nil⟩
  | cons instruction rest inductionHypothesis =>
      obtain ⟨_, between, first, later⟩ := ok_of_run_bind ended
      have ends := reachable.ends inputs instruction
      have next := reachable.handle inputs instruction
      rw [first] at ends next
      obtain ⟨own, cells, exposes⟩ :=
        Instruction.exists_exposes_of_ends reachable.sound.columns ends
      obtain ⟨numbers, others, continues⟩ := inductionHypothesis next later
      have recorded : ∀ cell ∈ cells, cell.offset < between.transcript.size := by
        intro cell member
        apply (next.sound.records_exposed cell ?_).offset_lt
        rw [exposes.exposed]
        exact List.mem_append_right _ member
      have grown : start.transcript.size ≤ between.transcript.size := by
        have values := (reachable.appendedBy first).values.length_le
        rwa [Transcript.length_values, Transcript.length_values] at values
      exact ⟨own :: numbers, cells ++ others, .cons recorded grown exposes continues⟩

/-- A new machine has exposed nothing. -/
theorem exposed_of_create (created : Machine.create field policy = .ok start) :
    start.exposed = [] ∧ ∀ column ∈ start.instances.toList, column = #[] := by
  obtain ⟨-, rfl⟩ := Machine.eq_of_create created
  have columns : ∀ column ∈ (Array.replicate policy.instanceColumns (#[] : Array (Cell field))).toList,
      column = #[] := by
    intro column member
    rw [Array.toList_replicate] at member
    exact List.eq_of_mem_replicate member
  refine ⟨List.eq_nil_iff_forall_not_mem.mpr fun cell member => ?_, columns⟩
  obtain ⟨column, isColumn, inside⟩ := Machine.exposes_of_mem_exposed member
  rw [columns column isColumn] at inside
  cases inside

/-- From a new machine on, a run exposes everything that is exposed at its end. -/
theorem exists_runExposes_of_create
    (created : Machine.create field policy = .ok start)
    (ended : (handleAll inputs instructions).run start = (.ok (), handled)) :
    ∃ numbers, RunExposes inputs instructions start handled numbers handled.exposed := by
  obtain ⟨numbers, cells, runs⟩ := exists_runExposes_of_handleAll (.create created) ended
  have exposed : handled.exposed = cells := by
    rw [runs.exposed, (exposed_of_create created).1, List.nil_append]
  rw [exposed]
  exact ⟨numbers, runs⟩

/--
The cells that an instruction exposed stay behind those of earlier instructions,
and its numbers behind their numbers.
-/
theorem exists_delivered_of_handleAll
    {earlier later : List Instruction}
    {instruction : Instruction}
    (created : Machine.create field policy = .ok start)
    (ended : (handleAll inputs (earlier ++ instruction :: later)).run start = (.ok (), handled))
    (publishes : Publishes inputs (earlier ++ instruction :: later) numbers) :
    ∃ before after own cells, (handleAll inputs earlier).run start = (.ok (), before)
      ∧ (instruction.handle inputs).run before = (.ok (), after)
      ∧ instruction.Exposes inputs before after own cells
      ∧ numbers[earlier.length]? = some own
      ∧ cells <+: handled.exposed.drop (numbers.take earlier.length).flatten.length := by
  obtain ⟨before, after, reached, handles, continues⟩ := exists_cut_of_handleAll ended
  have reachable := reachable_of_handleAll (.create created) reached
  have ends := reachable.ends inputs instruction
  have next := reachable.handle inputs instruction
  rw [handles] at ends next
  obtain ⟨front, runsEarlier⟩ := exists_runExposes_of_create created reached
  obtain ⟨own, cells, exposes⟩ := Instruction.exists_exposes_of_ends reachable.sound.columns ends
  obtain ⟨rest, back, runsLater⟩ := exists_runExposes_of_handleAll next continues
  obtain rfl : numbers = front ++ own :: rest :=
    publishes.unique (List.rel_append runsEarlier.publishes
      (.cons exposes.publishes runsLater.publishes))
  have sameLength : earlier.length = front.length := runsEarlier.publishes.length_eq
  have frontLength : before.exposed.length = front.flatten.length := by
    rw [← List.length_map (f := Cell.value), runsEarlier.values, List.length_map]
  refine ⟨before, after, own, cells, reached, handles, exposes, ?_, back, ?_⟩
  · rw [sameLength, List.getElem?_append_right le_rfl, Nat.sub_self]
    rfl
  · rw [sameLength, List.take_left, ← frontLength, runsLater.exposed, exposes.exposed,
      List.append_assoc, List.drop_left]

/--
The public inputs of a circuit and its table are those of a program, of which
each instruction makes some numbers public.
-/
structure PublicInputsOf
    (program : Program)
    (start handled : Machine field)
    (result : Export field)
    (numbers : List (List Nat)) :
    Prop where
  /-- Every `param` instruction names an input, whose numbers these are; others have none. -/
  publishes : Publishes program.inputs program.instructions numbers
  /-- The values are the residues of these numbers, one instruction after the other. -/
  values : result.table.publicInputs = numbers.flatten.map (Element.ofNat field)
  increasing : result.circuit.publicInputs.Pairwise (· < ·)
  /-- There is one cell for each value, in the same order, which holds it. -/
  placed : result.circuit.publicInputs.map result.table.value? =
    result.table.publicInputs.map some
  /-- What was exposed is in the first column, and all of it is exported. -/
  first : result.circuit.publicInputs = handled.exposed.map Cell.offset
    ∧ result.table.publicInputs = handled.exposed.map Cell.value
  others : ∀ column ∈ handled.instances.toList.tail, column = #[]
  /-- An instruction delivers the very cells that it exposed, which hold its own numbers. -/
  delivered : ∀ earlier instruction later, program.instructions = earlier ++ instruction :: later →
    instruction.opcode = .param →
      ∃ before after own cells, (handleAll program.inputs earlier).run start = (.ok (), before)
        ∧ (instruction.handle program.inputs).run before = (.ok (), after)
        ∧ after.Delivers instruction.id cells
        ∧ numbers[earlier.length]? = some own
        ∧ cells.map Cell.value = own.map (Element.ofNat field)
        ∧ cells <+: handled.exposed.drop (numbers.take earlier.length).flatten.length

/--
The public inputs of an assigned program are exactly the inputs that it names.

They are the numbers of these inputs, one input after the other in the order of
the `param` instructions that name them, each reduced to the field: the number of
an element, the numbers of a vector or an array in order, and the coordinates of
a point. There is one cell for each of them, at increasing offsets, and no column
of public inputs but the first holds any.
-/
theorem publicInputs_of_assign
    {config : Config}
    {program : Program}
    {result : Export field}
    (assigned : program.assign field config = .ok result) :
    ∃ start handled numbers, Machine.create field config.policy = .ok start
      ∧ (handleAll program.inputs program.instructions).run start = (.ok (), handled)
      ∧ program.PublicInputsOf start handled result numbers := by
  obtain ⟨start, handled, columns, created, ended, -, rfl⟩ := exists_handled_of_assign assigned
  have reachable := reachable_of_handleAll (.create created) ended
  obtain ⟨numbers, runs⟩ := exists_runExposes_of_create created ended
  refine ⟨start, handled, numbers, created, ended, {
    publishes := runs.publishes
    values := runs.values
    increasing := runs.increasing
    placed := ?_
    first := ⟨rfl, rfl⟩
    others := fun column member => ?_
    delivered := fun earlier instruction later split isParam => ?_
  }⟩
  · change (handled.exposed.map Cell.offset).map _ = (handled.exposed.map Cell.value).map some
    rw [List.map_map, List.map_map, List.map_inj_left]
    intro cell member
    have recorded := reachable.sound.records_exposed cell member
    change handled.transcript.values[cell.offset]? = some cell.value
    rw [Transcript.getElem?_values]
    exact recorded
  · rw [runs.others] at member
    exact (exposed_of_create created).2 column (List.mem_of_mem_tail member)
  · have publishes := runs.publishes
    rw [split] at ended publishes
    obtain ⟨before, after, own, cells, reached, handles, exposes, isOwn, inPlace⟩ :=
      exists_delivered_of_handleAll created ended publishes
    exact ⟨before, after, own, cells, reached, handles, exposes.delivered isParam, isOwn,
      exposes.values, inPlace⟩

/-- A program that names inputs of every kind, one of them twice, and one input never. -/
def bindTwice : Program where
  inputs := [
    .array ["7", "8"],
    .field "9",
    .field "21888242871839275222246405745257275088548364400416034343698204186575808495622",
    .vector ["3", "1", "2"],
    .curve "11" "10"]
  instructions := [
    bindInput ⟨0⟩ 2,
    bindInput ⟨1⟩ 0,
    bindInput ⟨2⟩ 4,
    bindInput ⟨3⟩ 3,
    bindInput ⟨4⟩ 2]

/-- What the instructions of this program make public. -/
theorem bindTwice_publishes :
    Publishes bindTwice.inputs bindTwice.instructions
      [[PrimeField.bn254Scalar.modulus + 5], [7, 8], [11, 10], [3, 1, 2],
        [PrimeField.bn254Scalar.modulus + 5]] := by
  have large := InputValue.Denotes.field (PrimeField.bn254Scalar.modulus + 5)
  refine .cons (.input rfl rfl large) (.cons (.input rfl rfl (.array [7, 8])) ?_)
  refine .cons (.input rfl rfl (.curve 11 10)) (.cons (.input rfl rfl (.vector [3, 1, 2])) ?_)
  exact .cons (.input rfl rfl large) .nil

/-- An input is exposed as often as it is named, and a number beyond the modulus as its residue. -/
theorem bindTwice_publicInputs :
    ∃ result : Export .bn254Scalar, bindTwice.assign .bn254Scalar .standard = .ok result
      ∧ result.table.publicInputs = [5, 7, 8, 11, 10, 3, 1, 2, 5]
      ∧ result.circuit.publicInputs.Pairwise (· < ·) := by
  have succeeds : (bindTwice.assign .bn254Scalar .standard).isOk = true := by
    decide +kernel
  obtain ⟨result, assigned⟩ := exists_of_isOk succeeds
  obtain ⟨start, handled, numbers, -, -, isPublic⟩ := publicInputs_of_assign assigned
  refine ⟨result, assigned, ?_, isPublic.increasing⟩
  rw [isPublic.values, isPublic.publishes.unique bindTwice_publishes]
  decide +kernel

end Program

end Plonkish
