import Std.Data.String.ToNat
import Plonkish.Proofs.Field.Decimal
import Plonkish.Proofs.Machine.Binding

namespace Plonkish

/-!
# What instructions expose

A `param` instruction exposes the elements of its input in new cells, one after
the other, and no other instruction exposes anything. What numbers these elements
are is said for each kind of input. The cells that are exposed are the ones that
the program gets: they are bound to the name of the instruction, or they are
stored in memory behind the address that is bound.
-/

namespace Synthesis

variable {field : PrimeField} (values : List (Element field)) (transcript : Transcript field)

/-- Cells of the prover's choice are laid out one after the other, without a gate or a copy. -/
theorem run_witnesses :
    witnesses values transcript =
      (values.mapIdx fun index value => ⟨transcript.size + index, value⟩,
        ⟨transcript.rows ++ values.map (Row.mk · false), transcript.copies,
          transcript.constants⟩) := by
  induction values generalizing transcript with
  | nil => exact congrArg (Prod.mk _) (by simp)
  | cons value rest inductionHypothesis =>
      let laid := transcript.lay ⟨[.plain (.witness value)], []⟩
      have next : witnesses (value :: rest) transcript =
          (⟨transcript.size, value⟩ :: (witnesses rest laid).1, (witnesses rest laid).2) := by
        unfold witnesses
        rw [List.mapM_cons]
        rfl
      have isLaid : laid =
          ⟨transcript.rows.push ⟨value, false⟩, transcript.copies, transcript.constants⟩ := rfl
      rw [next, inductionHypothesis laid, isLaid]
      simp [List.mapIdx_cons, Transcript.size, Nat.add_assoc, Nat.add_comm 1]

/-- The cells follow each other, and hold the values. -/
theorem witnesses_eq :
    (witnesses values transcript).1.map Cell.offset =
        List.range' transcript.size values.length
      ∧ (witnesses values transcript).1.map Cell.value = values := by
  rw [run_witnesses]
  constructor
  · refine List.ext_getElem (by simp) fun index _ _ => by simp
  · refine List.ext_getElem (by simp) fun index _ _ => by simp

end Synthesis

namespace Machine

variable {field : PrimeField}

/-- The address that a name is bound to. -/
def address? (machine : Machine field) (id : ValueId) : Option Nat :=
  match machine.frame.get? id with
  | some (.scalar cell) => cell.value.word?.map UInt64.toNat
  | _ => none

/-- Cells are bound to a name, or stored in memory behind the address that is bound to it. -/
def Delivers (machine : Machine field) (id : ValueId) (cells : List (Cell field)) : Prop :=
  (∃ slot, machine.frame.get? id = some slot ∧ slot.cells = cells)
    ∨ ∃ pointer, machine.address? id = some pointer
      ∧ ∀ index < cells.length, machine.memory.stored[pointer + index]? = cells[index]?

/-- An address of memory that is bound to the name of an instruction is read back. -/
theorem address?_addressMachine
    (instruction : Instruction)
    (machine : Machine field)
    {pointer : Nat}
    (within : pointer ≤ memoryLimit) :
    (instruction.addressMachine pointer machine).address? instruction.id = some pointer := by
  have sameAddress : (UInt64.ofNat pointer).toNat = pointer :=
    UInt64.toNat_ofNat_of_lt' (Nat.lt_of_le_of_lt within (by decide))
  have isWord := Element.word?_ofNat_toNat field (.ofNat pointer)
  rw [sameAddress] at isWord
  have bound : (instruction.addressMachine pointer machine).frame.get? instruction.id =
      some (.scalar ⟨machine.transcript.size, .ofNat field pointer⟩) := by
    change (Frame.bind _ instruction.id _).get? instruction.id = _
    rw [Frame.get?_bind, if_pos rfl]
  rw [address?, bound]
  dsimp only
  rw [isWord, Option.map_some, sameAddress]

end Machine

/--
The numbers that an input is made of, in the order in which they are exposed.
An input holds the text of each of them in decimal.
-/
inductive InputValue.Denotes : InputValue → List Nat → Prop where
  | field (number : Nat) : Denotes (.field number.repr) [number]
  | vector (numbers : List Nat) : Denotes (.vector (numbers.map Nat.repr)) numbers
  /-- The abscissa of a point comes before its ordinate. -/
  | curve (x y : Nat) : Denotes (.curve x.repr y.repr) [x, y]
  | array (numbers : List Nat) : Denotes (.array (numbers.map Nat.repr)) numbers

namespace InputValue

variable {input : InputValue} {numbers others : List Nat}

/-- The elements of an input are the texts of the numbers that it is made of. -/
theorem denotes_iff : input.Denotes numbers ↔ input.elements = numbers.map Nat.repr := by
  constructor
  · rintro (_ | _ | _ | _) <;> rfl
  · intro texts
    cases input with
    | field element =>
        obtain ⟨number, rfl, rfl⟩ := List.map_eq_singleton_iff.mp texts.symm
        exact .field number
    | vector elements =>
        obtain rfl : elements = _ := texts
        exact .vector numbers
    | curve first second =>
        obtain ⟨x, rest, rfl, rfl, last⟩ := List.map_eq_cons_iff.mp texts.symm
        obtain ⟨y, rfl, rfl⟩ := List.map_eq_singleton_iff.mp last
        exact .curve x y
    | array elements =>
        obtain rfl : elements = _ := texts
        exact .array numbers

/-- An input is made of one list of numbers only. -/
theorem Denotes.unique (first : input.Denotes numbers) (second : input.Denotes others) :
    numbers = others :=
  List.map_injective_iff.mpr (fun _ _ => Nat.repr_inj.mp)
    ((denotes_iff.mp first).symm.trans (denotes_iff.mp second))

end InputValue

namespace Instruction

/-- The numbers that an instruction makes public: those of the input that a `param` names. -/
inductive Publishes (inputs : List InputValue) (instruction : Instruction) : List Nat → Prop where
  | input
      {input : InputValue}
      {numbers : List Nat}
      (opcode : instruction.opcode = .param)
      (named : instruction.input? inputs = some input)
      (denotes : input.Denotes numbers) :
      Publishes inputs instruction numbers
  | nothing (opcode : instruction.opcode ≠ .param) : Publishes inputs instruction []

/-- What an instruction makes public is determined by the inputs. -/
theorem publishes_rightUnique (inputs : List InputValue) :
    Relator.RightUnique (Publishes inputs) := by
  rintro instruction numbers others (⟨opcode, named, denotes⟩ | opcode) second
  · cases second with
    | input _ otherNamed otherDenotes =>
        obtain rfl := Option.some.inj (named.symm.trans otherNamed)
        exact denotes.unique otherDenotes
    | nothing notParam => exact (notParam opcode).elim
  · cases second with
    | input isParam => exact (opcode isParam).elim
    | nothing => rfl

variable {field : PrimeField} {inputs : List InputValue} {instruction : Instruction}
variable {machine after : Machine field}

/-- Texts that are read as elements are those of numbers, of which the elements are the residues. -/
theorem numbers_of_mapM
    {read : String → Except Failure (Element field)}
    (decodes : ∀ text element, read text = .ok element →
      Element.ofDecimal? field text = some element)
    {texts : List String}
    {elements : List (Element field)}
    (readAll : texts.mapM read = .ok elements) :
    ∃ numbers : List Nat, texts = numbers.map Nat.repr
      ∧ elements = numbers.map (Element.ofNat field) := by
  induction texts generalizing elements with
  | nil =>
      cases readAll
      exact ⟨[], rfl, rfl⟩
  | cons text rest inductionHypothesis =>
      rw [List.mapM_cons] at readAll
      obtain ⟨element, readFirst, readAll⟩ := ok_of_bind readAll
      obtain ⟨others, readRest, readAll⟩ := ok_of_bind readAll
      cases readAll
      obtain ⟨number, rfl, rfl⟩ := Element.ofDecimal?_eq_some_iff.mp (decodes text element readFirst)
      obtain ⟨numbers, rfl, rfl⟩ := inductionHypothesis readRest
      exact ⟨number :: numbers, rfl, rfl⟩

/-- What is read of an input are the residues of the numbers that it is made of. -/
theorem denotes_of_inputElements
    {input : InputValue}
    {elements : List (Element field)}
    (read : instruction.inputElements field inputs = .ok (input, elements)) :
    ∃ numbers : List Nat, input.Denotes numbers
      ∧ elements = numbers.map (Element.ofNat field) := by
  obtain ⟨index, -, read⟩ := ok_of_bind read
  cases named : inputs[index]? with
  | none =>
      rw [named] at read
      cases read
  | some found =>
      rw [named] at read
      obtain ⟨decoded, decodes, read⟩ := ok_of_bind read
      cases read
      simp only [InputValue.denotes_iff]
      refine numbers_of_mapM (fun text element decoded => ?_) decodes
      split at decoded
      next isElement =>
        obtain rfl := Except.ok.inj decoded
        exact isElement
      next => cases decoded

/-- What an instruction that succeeds exposed, and how the program gets it. -/
structure Exposes
    (inputs : List InputValue)
    (instruction : Instruction)
    (machine after : Machine field)
    (numbers : List Nat)
    (cells : List (Cell field)) :
    Prop where
  exposed : after.exposed = machine.exposed ++ cells
  publishes : instruction.Publishes inputs numbers
  values : cells.map Cell.value = numbers.map (Element.ofNat field)
  /-- The cells are new, and follow each other. -/
  offsets : cells.map Cell.offset = List.range' machine.transcript.size cells.length
  /-- There are as many columns as before, and only the first has changed. -/
  others : after.instances.toList.tail = machine.instances.toList.tail
  delivered : instruction.opcode = .param → after.Delivers instruction.id cells

/-- The cells of elements that were exposed come after those that had been. -/
theorem exposed_of_exposedMachine
    {elements : List (Element field)}
    (columns : 0 < machine.instances.size)
    (instances : after.instances = (exposedMachine elements machine).instances) :
    after.exposed = machine.exposed ++ (Synthesis.witnesses elements machine.transcript).1
      ∧ after.instances.toList.tail = machine.instances.toList.tail := by
  obtain ⟨first, rest, isColumns⟩ := exists_first_column columns
  have newColumns := columns_exposedMachine elements isColumns
  rw [← instances] at newColumns
  rw [exposed_eq_of_toList newColumns, exposed_eq_of_toList isColumns, Array.toList_appendList,
    newColumns, isColumns]
  exact ⟨rfl, rfl⟩

/-- An input that was exposed is exposed, whatever else has happened since. -/
theorem exists_exposes_of_inputElements
    {input : InputValue}
    {elements : List (Element field)}
    (columns : 0 < machine.instances.size)
    (opcode : instruction.opcode = .param)
    (read : instruction.inputElements field inputs = .ok (input, elements))
    (instances : after.instances = (exposedMachine elements machine).instances)
    (delivered : after.Delivers instruction.id (Synthesis.witnesses elements machine.transcript).1) :
    ∃ numbers cells, Exposes inputs instruction machine after numbers cells := by
  obtain ⟨exposed, others⟩ := exposed_of_exposedMachine columns instances
  obtain ⟨numbers, denotes, rfl⟩ := denotes_of_inputElements read
  obtain ⟨offsets, values⟩ := Synthesis.witnesses_eq (numbers.map (Element.ofNat field))
    machine.transcript
  refine ⟨numbers, _, {
    exposed
    publishes := .input opcode (input?_of_inputElements read).1 denotes
    values
    offsets := ?_
    others
    delivered := fun _ => delivered
  }⟩
  rw [offsets, Synthesis.length_witnesses]

/-- An instruction that binds no input exposes nothing. -/
theorem exposes_nothing
    (opcode : instruction.opcode ≠ .param)
    (instances : after.instances = machine.instances) :
    Exposes inputs instruction machine after [] [] where
  exposed := by rw [List.append_nil, Machine.exposed, Machine.exposed, instances]
  publishes := .nothing opcode
  values := rfl
  offsets := rfl
  others := congrArg (fun columns => columns.toList.tail) instances
  delivered := fun isParam => (opcode isParam).elim

/-- An array is delivered where it was allocated, behind the address that is bound. -/
theorem delivers_array
    {elements : List (Element field)}
    {pointer : Nat}
    {allocated memory : Memory field}
    (allocates :
      machine.memory.allocate elements.length field.elementBytes = .ok (pointer, allocated))
    (stores : allocated.storeAll pointer
      (Synthesis.witnesses elements machine.transcript).1 = .ok memory) :
    (instruction.addressMachine pointer { exposedMachine elements machine with memory }).Delivers
      instruction.id (Synthesis.witnesses elements machine.transcript).1 := by
  obtain ⟨fits, rfl, -⟩ := Memory.allocate_eq_ok_iff.mp allocates
  have written := Memory.written_of_storeAll stores
  refine .inr ⟨machine.memory.size, ?_, fun index inside => ?_⟩
  · exact Machine.address?_addressMachine _ _ ((Nat.le_add_right _ elements.length).trans fits)
  · change memory.stored[_]? = _
    rw [written.stored, if_pos ⟨Nat.le_add_right _ _, Nat.add_lt_add_left inside _⟩,
      Nat.add_sub_cancel_left]

/-- An instruction that succeeds exposes its input, or nothing. -/
theorem exists_exposes_of_ends
    (columns : 0 < machine.instances.size)
    (ends : Ends inputs instruction machine (.ok (), after)) :
    ∃ numbers cells, Exposes inputs instruction machine after numbers cells := by
  cases ends with
  | @boundInput input elements slot opcode read notArray kind cells =>
      refine exists_exposes_of_inputElements columns opcode read rfl (.inl ⟨slot, ?_, cells⟩)
      rw [Frame.get?_bind, if_pos rfl]
  | @boundArray texts elements pointer allocated memory opcode read allocates stores =>
      exact exists_exposes_of_inputElements columns opcode read rfl
        (delivers_array allocates stores)
  | allocated opcode | loaded opcode | selected opcode | added opcode | wroteCosets opcode
  | evaluatedGates opcode | evaluatedLookups opcode =>
      exact ⟨[], [], exposes_nothing (by rw [opcode]; nofun) rfl⟩

end Instruction

end Plonkish
