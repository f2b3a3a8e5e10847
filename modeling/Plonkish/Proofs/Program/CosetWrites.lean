import Plonkish.Proofs.Gadget.CosetValues
import Plonkish.Proofs.Machine.Loading
import Plonkish.Proofs.Program.Effect

namespace Plonkish

/-!
# Written cosets

When the rounds of an index are written to memory, and when they are refused.
First the lengths are checked, then the range and every cell in it, and the
index last; only what passes all of that is written, three cells for each round,
and nothing else is changed.
-/

/-- The cells of a round come one after the other, after those of the earlier rounds. -/
theorem CosetCells.getElem?_flatMap_toList
    {field : PrimeField}
    {rounds : List (CosetCells field)}
    {round : Nat}
    {cells : CosetCells field}
    (isRound : rounds[round]? = some cells) :
    (rounds.flatMap toList)[3 * round]? = some cells.member
      ∧ (rounds.flatMap toList)[3 * round + 1]? = some cells.opposite
      ∧ (rounds.flatMap toList)[3 * round + 2]? = some cells.bit := by
  induction rounds generalizing round with
  | nil => cases isRound
  | cons first rest inductionHypothesis =>
      rw [List.flatMap_cons]
      cases round with
      | zero =>
          obtain rfl : first = cells := Option.some.inj isRound
          exact ⟨rfl, rfl, rfl⟩
      | succ round => exact inductionHypothesis isRound

namespace Memory

variable {field : PrimeField} {memory : Memory field}

/-- A cell cannot be accessed, or it has not the width of an element. -/
inductive RefusesElement (memory : Memory field) (address : Nat) : Failure → Prop
  | inaccessible
      {fault : MemoryFault}
      (faults : memory.accessFault? address = some fault) :
      RefusesElement memory address (.memory address fault)
  | width
      {bytes : Nat}
      (wide : memory.cellBytes address = .ok bytes)
      (other : bytes ≠ field.elementBytes) :
      RefusesElement memory address (.size (.resultCell address bytes field.elementBytes))

/-- The first of some consecutive cells that cannot hold an element is the reason of a failure. -/
def RefusesFirst (memory : Memory field) (pointer count : Nat) (failure : Failure) : Prop :=
  ∃ position < count,
    (∀ earlier < position, memory.cellBytes (pointer + earlier) = .ok field.elementBytes)
      ∧ memory.RefusesElement (pointer + position) failure

/-- A cell has the width of an element, or it is refused for a reason. -/
theorem elementBytes_or_refuses (memory : Memory field) (address : Nat) :
    memory.cellBytes address = .ok field.elementBytes
      ∨ ∃ failure, memory.RefusesElement address failure := by
  cases faults : memory.accessFault? address with
  | some fault => exact .inr ⟨_, .inaccessible faults⟩
  | none =>
      obtain ⟨bytes, wide⟩ : ∃ bytes, memory.cellBytes address = .ok bytes := by
        rw [cellBytes, checkAddress_eq, faults]
        cases memory.segments.find? (·.contains address) with
        | some segment => exact ⟨segment.bytes, rfl⟩
        | none => exact ⟨0, rfl⟩
      by_cases same : bytes = field.elementBytes
      · exact .inl (same ▸ wide)
      · exact .inr ⟨_, .width wide same⟩

/-- All cells have the width of an element, or there is a first one that is refused. -/
theorem elementBytes_or_refusesFirst (memory : Memory field) (pointer count : Nat) :
    (∀ position < count, memory.cellBytes (pointer + position) = .ok field.elementBytes)
      ∨ ∃ failure, memory.RefusesFirst pointer count failure := by
  induction count with
  | zero => exact .inl fun _ inside => absurd inside (Nat.not_lt_zero _)
  | succ count inductionHypothesis =>
      rcases inductionHypothesis with before | ⟨failure, position, inside, refused⟩
      · rcases memory.elementBytes_or_refuses (pointer + count) with wide | ⟨failure, refuses⟩
        · exact .inl (Nat.forall_lt_succ_right.mpr ⟨before, wide⟩)
        · exact .inr ⟨failure, count, Nat.lt_succ_self count, before, refuses⟩
      · exact .inr ⟨failure, position, Nat.lt_succ_of_lt inside, refused⟩

end Memory

namespace Instruction

variable {field : PrimeField} {memory : Memory field} {pointer count : Nat}

theorem checkResultCells_of_elementBytes
    (wide : memory.cellBytes pointer = .ok field.elementBytes) :
    checkResultCells memory pointer (count + 1) = checkResultCells memory (pointer + 1) count := by
  rw [checkResultCells, wide]
  exact if_pos rfl

theorem checkResultCells_of_refuses
    {failure : Failure}
    (refuses : memory.RefusesElement pointer failure) :
    checkResultCells memory pointer (count + 1) = .error failure := by
  rw [checkResultCells]
  cases refuses with
  | inaccessible faults =>
      rw [Memory.cellBytes, Memory.checkAddress_eq, faults]
      rfl
  | width wide other =>
      rw [wide]
      exact if_neg other

theorem checkResultCells_of_all
    (wide : ∀ position < count,
      memory.cellBytes (pointer + position) = .ok field.elementBytes) :
    checkResultCells memory pointer count = .ok () := by
  induction count generalizing pointer with
  | zero => rfl
  | succ count inductionHypothesis =>
      have first : memory.cellBytes pointer = .ok field.elementBytes :=
        wide 0 (Nat.zero_lt_succ count)
      rw [checkResultCells_of_elementBytes first]
      apply inductionHypothesis
      intro position inside
      rw [Nat.add_assoc, Nat.add_comm 1]
      exact wide (position + 1) (Nat.succ_lt_succ inside)

theorem checkResultCells_of_refusesFirst
    {failure : Failure}
    (refuses : memory.RefusesFirst pointer count failure) :
    checkResultCells memory pointer count = .error failure := by
  obtain ⟨position, inside, before, refuses⟩ := refuses
  induction position generalizing pointer count with
  | zero =>
      obtain ⟨count, rfl⟩ := Nat.exists_eq_add_one.mpr inside
      exact checkResultCells_of_refuses refuses
  | succ position inductionHypothesis =>
      obtain ⟨count, rfl⟩ := Nat.exists_eq_add_one.mpr (Nat.zero_lt_of_lt inside)
      have first : memory.cellBytes pointer = .ok field.elementBytes :=
        before 0 (Nat.zero_lt_succ position)
      rw [checkResultCells_of_elementBytes first]
      apply inductionHypothesis (Nat.lt_of_succ_lt_succ inside)
      · intro earlier isEarlier
        rw [Nat.add_assoc, Nat.add_comm 1]
        exact before (earlier + 1) (Nat.succ_lt_succ isEarlier)
      · rw [Nat.add_assoc, Nat.add_comm 1]
        exact refuses

/-- The lengths of a coset computation are those of a shape. -/
def CosetLengths (rounds bits : Nat) : Prop :=
  1 ≤ rounds ∧ rounds ≤ bits ∧ bits ≤ 64

instance (rounds bits : Nat) : Decidable (CosetLengths rounds bits) :=
  inferInstanceAs (Decidable (_ ∧ _))

/-- Why cosets are not written, in the order in which it is checked. -/
inductive CosetRefusal
    (memory : Memory field)
    (pointer rounds bits : Nat)
    (index : Element field) :
    Failure → Prop
  | lengths
      (wrong : ¬CosetLengths rounds bits) :
      CosetRefusal memory pointer rounds bits index (.circuit (.shape (.cosetLengths rounds bits)))
  | overflow
      (lengths : CosetLengths rounds bits)
      (tooFar : 1 <<< 64 ≤ pointer + 3 * rounds) :
      CosetRefusal memory pointer rounds bits index (.memory pointer .outOfBounds)
  | cell
      {failure : Failure}
      (lengths : CosetLengths rounds bits)
      (inWord : pointer + 3 * rounds < 1 <<< 64)
      (refuses : memory.RefusesFirst pointer (3 * rounds) failure) :
      CosetRefusal memory pointer rounds bits index failure
  | index
      (lengths : CosetLengths rounds bits)
      (inWord : pointer + 3 * rounds < 1 <<< 64)
      (wide : ∀ position < 3 * rounds,
        memory.cellBytes (pointer + position) = .ok field.elementBytes)
      (large : 2 ^ bits ≤ index.value) :
      CosetRefusal memory pointer rounds bits index (.circuit (.valueRange index.toHex bits))

/-- When cosets are written. -/
structure CosetsFit
    (memory : Memory field)
    (pointer rounds bits : Nat)
    (index : Element field) :
    Prop where
  lengths : CosetLengths rounds bits
  notNull : pointer ≠ 0
  inWord : pointer + 3 * rounds < 1 <<< 64
  wide : ∀ position < 3 * rounds,
    memory.cellBytes (pointer + position) = .ok field.elementBytes
  small : index.value < 2 ^ bits

/-- Cosets are written, or there is a reason why they are not. -/
theorem cosetsFit_or_refusal
    (memory : Memory field)
    (pointer rounds bits : Nat)
    (index : Element field) :
    CosetsFit memory pointer rounds bits index
      ∨ ∃ failure, CosetRefusal memory pointer rounds bits index failure := by
  by_cases lengths : CosetLengths rounds bits
  case neg => exact .inr ⟨_, .lengths lengths⟩
  by_cases inWord : pointer + 3 * rounds < 1 <<< 64
  case neg => exact .inr ⟨_, .overflow lengths (Nat.not_lt.mp inWord)⟩
  rcases memory.elementBytes_or_refusesFirst pointer (3 * rounds) with wide | ⟨failure, refuses⟩
  case inr => exact .inr ⟨failure, .cell lengths inWord refuses⟩
  by_cases small : index.value < 2 ^ bits
  case neg => exact .inr ⟨_, .index lengths inWord wide (Nat.not_lt.mp small)⟩
  refine .inl ⟨lengths, ?_, inWord, wide, small⟩
  -- There is a first cell, and it would be the one at the null address.
  rintro rfl
  have first := wide 0 (Nat.mul_pos (by decide) lengths.1)
  rw [Memory.cellBytes] at first
  cases first

section Handler

open Translation

variable {instruction : Instruction} {machine : Machine field}
variable {rounds bits : Nat} {root : Element field} {index : Cell field}

theorem checkResultRange_eq (inWord : pointer + 3 * rounds < 1 <<< 64) :
    checkResultRange memory pointer rounds = checkResultCells memory pointer (3 * rounds) := by
  rw [checkResultRange, Memory.offsetAddress, Sizes.sum?_eq_some_iff.mpr ⟨rfl, inWord⟩]
  rfl

theorem checkResultRange_of_overflow (tooFar : 1 <<< 64 ≤ pointer + 3 * rounds) :
    checkResultRange memory pointer rounds = .error (.memory pointer .outOfBounds) := by
  rw [checkResultRange, Memory.offsetAddress, Sizes.sum?, if_neg (Nat.not_lt.mpr tooFar)]
  rfl

theorem cosetShape_make_of_lengths (root : Element field) (lengths : CosetLengths rounds bits) :
    CosetShape.make rounds bits root = .ok ⟨rounds, bits, root⟩ :=
  Gadget.cosetShape_make_eq_ok_iff.mpr ⟨rfl, lengths⟩

variable (read : instruction.cosetOperands machine = .ok (pointer, rounds, root, bits, index))

include read

theorem run_handleFriCosets_of_lengths (lengths : CosetLengths rounds bits) :
    instruction.handleFriCosets.run machine =
      match checkResultRange machine.memory pointer rounds with
      | .error failure => (.error (.report failure), machine)
      | .ok () =>
          (assemble (Gadget.cosets ⟨rounds, bits, root⟩ index) >>= fun results =>
            storeAll pointer (results.flatMap CosetCells.toList)).run machine := by
  unfold handleFriCosets
  rw [run_read_bind, read]
  dsimp only
  rw [cosetShape_make_of_lengths root lengths]
  simp only [pure_bind]
  rw [run_bind, run_get]
  dsimp only
  rw [run_ofExcept_bind]
  cases checkResultRange machine.memory pointer rounds <;> rfl

/-- What is refused is reported, and nothing has changed. -/
theorem run_handleFriCosets_of_refusal
    {failure : Failure}
    (refusal : CosetRefusal machine.memory pointer rounds bits index.value failure) :
    instruction.handleFriCosets.run machine = (.error (.report failure), machine) := by
  cases refusal with
  | lengths wrong =>
      have refused : CosetShape.make rounds bits root =
          .error (.shape (.cosetLengths rounds bits)) := by
        rw [CosetShape.make, if_pos]
        unfold CosetLengths at wrong
        omega
      unfold handleFriCosets
      rw [run_read_bind, read]
      dsimp only
      rw [refused]
      rfl
  | overflow lengths tooFar =>
      rw [run_handleFriCosets_of_lengths read lengths, checkResultRange_of_overflow tooFar]
  | cell lengths inWord refuses =>
      rw [run_handleFriCosets_of_lengths read lengths, checkResultRange_eq inWord,
        checkResultCells_of_refusesFirst refuses]
  | index lengths inWord wide large =>
      have tooWide : ¬Gadget.fitsIn index.value bits = true := fun fits =>
        Nat.not_lt.mpr large ((Gadget.fitsIn_iff lengths.2.2).mp fits)
      have refused := @Gadget.run_cosets_of_not_fitsIn _ machine.transcript _ _ _ _
        (cosetShape_make_of_lengths root lengths) index tooWide
      rw [run_handleFriCosets_of_lengths read lengths, checkResultRange_eq inWord,
        checkResultCells_of_all wide]
      dsimp only
      rw [run_assemble_bind, refused]
      rfl

/-- The rounds of an index were written to memory, and nothing else has changed but the circuit. -/
structure WroteCosets
    (machine : Machine field)
    (pointer rounds : Nat)
    (root : Element field)
    (bits : Nat)
    (index : Cell field)
    (after : Machine field) :
    Prop where
  frame : after.frame = machine.frame
  others : after = { machine with transcript := after.transcript, memory := after.memory }
  size : after.memory.size = machine.memory.size
  bytes : ∀ address, after.memory.cellBytes address = machine.memory.cellBytes address
  outside : ∀ address, address < pointer ∨ pointer + 3 * rounds ≤ address →
    after.memory.stored[address]? = machine.memory.stored[address]?
  /-- Whatever the cells are read as, the index has no more bits than it should. -/
  small : ∀ read, Valuation.Faithful machine.transcript after.transcript read →
    (read index).value < 2 ^ bits
  /-- Whatever the cells are read as, those of a round have the values of the index. -/
  rounds : ∀ round < rounds, ∃ cells : CosetCells field,
    after.memory.stored[pointer + 3 * round]? = some cells.member
      ∧ after.memory.stored[pointer + 3 * round + 1]? = some cells.opposite
      ∧ after.memory.stored[pointer + 3 * round + 2]? = some cells.bit
      ∧ ∀ read, Valuation.Faithful machine.transcript after.transcript read →
          cells.readBy read = .ofIndex root bits (read index).value round

theorem run_handleFriCosets_of_fit
    (fit : CosetsFit machine.memory pointer rounds bits index.value) :
    ∃ after, instruction.handleFriCosets.run machine = (.ok (), after)
      ∧ WroteCosets machine pointer rounds root bits index after := by
  have made : CosetShape.make rounds bits root = .ok ⟨rounds, bits, root⟩ :=
    cosetShape_make_of_lengths root fit.lengths
  have checked : checkResultRange machine.memory pointer rounds = .ok () := by
    rw [checkResultRange_eq fit.inWord, checkResultCells_of_all fit.wide]
  have fits : Gadget.fitsIn index.value bits = true :=
    (Gadget.fitsIn_iff fit.lengths.2.2).mpr fit.small
  obtain ⟨results, transcript, computed, counted⟩ :=
    @Gadget.cosets_completes _ machine.transcript _ _ _ _ made index fits
  have cells : (results.flatMap CosetCells.toList).length = 3 * rounds := by
    rw [CosetCells.length_flatMap_toList, counted]
  obtain ⟨-, memory, stores⟩ := exists_storeAll_of_checkResultRange checked cells
  have written := Memory.written_of_storeAll stores
  refine ⟨{ machine with transcript, memory }, ?_, ?_⟩
  · rw [run_handleFriCosets_of_lengths read fit.lengths, checked]
    dsimp only
    rw [run_assemble_bind, computed]
    dsimp only
    rw [run_storeAll, stores]
  · refine ⟨rfl, rfl, written.size, written.cellBytes, ?_, fun read faithful => ?_, ?_⟩
    · intro address outside
      rw [written.stored, if_neg (by omega)]
    · exact ((Gadget.cosets_computes made index).of_ok computed faithful).1
    · intro round inside
      have inResults : round < results.length := counted ▸ inside
      obtain ⟨member, opposite, bit⟩ :=
        CosetCells.getElem?_flatMap_toList (List.getElem?_eq_getElem inResults)
      have stored (part : Nat) (inRound : part < 3) :
          memory.stored[pointer + 3 * round + part]? =
            (results.flatMap CosetCells.toList)[3 * round + part]? := by
        rw [written.stored, if_pos (by omega)]
        congr 1
        omega
      refine ⟨results[round], (stored 0 (by decide)).trans member,
        (stored 1 (by decide)).trans opposite, (stored 2 (by decide)).trans bit,
        fun read faithful => ?_⟩
      obtain ⟨-, values⟩ := (Gadget.cosets_computes made index).of_ok computed faithful
      have same := congrArg (·[round]?) values
      simpa [inResults, inside] using same

end Handler

/--
Cosets are written exactly if they fit, and otherwise the report is about the first
thing in the way: about the lengths, then about the range of memory and its cells
in order, and about the index last.

If they are written, each round is where it belongs, and no other cell of memory and
no name has changed; if they are refused, nothing has.
-/
theorem handleFriCosets_exact
    {instruction : Instruction}
    {machine : Machine field}
    {pointer rounds bits : Nat}
    {root : Element field}
    {index : Cell field}
    (opcode : instruction.opcode = .friCosets)
    (read : instruction.cosetOperands machine = .ok (pointer, rounds, root, bits, index))
    (inputs : List InputValue) :
    (((instruction.handle inputs).run machine).1 = .ok () ↔
        CosetsFit machine.memory pointer rounds bits index.value)
      ∧ (∀ after, (instruction.handle inputs).run machine = (.ok (), after) →
          WroteCosets machine pointer rounds root bits index after)
      ∧ (∀ failure after,
          (instruction.handle inputs).run machine = (.error (.report failure), after) ↔
            after = machine ∧ CosetRefusal machine.memory pointer rounds bits index.value failure)
      ∧ ((instruction.handle inputs).run machine).1 ≠ .error .crash := by
  have handles : (instruction.handle inputs : Translation field Unit) =
      instruction.handleFriCosets := by rw [handle, opcode]
  rw [handles]
  rcases cosetsFit_or_refusal machine.memory pointer rounds bits index.value with
    fit | ⟨failure, refusal⟩
  · obtain ⟨after, ended, wrote⟩ := run_handleFriCosets_of_fit read fit
    rw [ended]
    refine ⟨iff_of_true rfl fit, fun other same => ?_, fun failure other => ?_, nofun⟩
    · cases same
      exact wrote
    · refine iff_of_false nofun fun ⟨_, refusal⟩ => ?_
      rw [run_handleFriCosets_of_refusal read refusal] at ended
      cases ended
  · have ended := run_handleFriCosets_of_refusal read refusal
    rw [ended]
    refine ⟨iff_of_false nofun fun fit => ?_, nofun, fun other after => ⟨?_, ?_⟩, nofun⟩
    · obtain ⟨after, succeeds, -⟩ := run_handleFriCosets_of_fit read fit
      rw [ended] at succeeds
      cases succeeds
    · rintro ⟨⟩
      exact ⟨rfl, refusal⟩
    · rintro ⟨rfl, otherRefusal⟩
      exact ended.symm.trans (run_handleFriCosets_of_refusal read otherRefusal)

end Instruction

namespace Program

/-- Write some rounds of the coset of an index of two bits where an array is. -/
def writeRounds (rounds : UInt64) : Instruction :=
  ⟨⟨2⟩, .friCosets, [.value ⟨0⟩ .pointer, .constant (.integer rounds), .constant (.integer 5),
    .constant (.integer 2), .value ⟨1⟩ (.field .bn254Scalar)]⟩

/--
One round of an index of two bits replaces an array of three elements. For an index of
three bits, three rounds are refused as such, two rounds for the memory, and one for the index.
-/
theorem handleFriCosets_exact_writeRounds :
    (∃ (after : Machine .bn254Scalar) (cells : CosetCells .bn254Scalar),
      ((writeRounds 1).handle arrayAndSmallIndex).run fittingMachine = (.ok (), after)
        ∧ after.memory.stored[1]? = some cells.member
        ∧ after.memory.stored[2]? = some cells.opposite
        ∧ after.memory.stored[3]? = some cells.bit
        ∧ cells.readBy Cell.value = ⟨-125, 125, 1⟩
        ∧ after.frame = fittingMachine.frame)
      ∧ ((writeRounds 3).handle arrayAndIndex).run indexedMachine =
        (.error (.report (.circuit (.shape (.cosetLengths 3 2)))), indexedMachine)
      ∧ ((writeRounds 2).handle arrayAndIndex).run indexedMachine =
        (.error (.report (.memory 4 .outOfBounds)), indexedMachine)
      ∧ ((writeRounds 1).handle arrayAndIndex).run indexedMachine =
        (.error (.report (.circuit (.valueRange (7 : Element .bn254Scalar).toHex 2))),
          indexedMachine) := by
  have refuses (rounds : UInt64) (failure : Failure)
      (read : (writeRounds rounds).cosetOperands indexedMachine =
        .ok (1, rounds.toNat, 5, 2, ⟨4, 7⟩))
      (refusal : Instruction.CosetRefusal indexedMachine.memory 1 rounds.toNat 2
        (7 : Element .bn254Scalar) failure) :
      ((writeRounds rounds).handle arrayAndIndex).run indexedMachine =
        (.error (.report failure), indexedMachine) :=
    ((Instruction.handleFriCosets_exact rfl read arrayAndIndex).2.2.1 _ _).mpr ⟨rfl, refusal⟩
  refine ⟨?_, refuses 3 _ (by decide +kernel) (.lengths (by decide)),
    refuses 2 _ (by decide +kernel) ?_, refuses 1 _ (by decide +kernel) ?_⟩
  · have read : (writeRounds 1).cosetOperands fittingMachine = .ok (1, 1, 5, 2, ⟨4, 3⟩) := by
      decide +kernel
    have fit : Instruction.CosetsFit fittingMachine.memory 1 1 2 (3 : Element .bn254Scalar) :=
      ⟨by decide, by decide, by decide, by decide +kernel, by decide +kernel⟩
    obtain ⟨succeeds, writes, -⟩ := Instruction.handleFriCosets_exact rfl read arrayAndSmallIndex
    rcases ended : ((writeRounds 1).handle arrayAndSmallIndex).run fittingMachine with
      ⟨outcome, after⟩
    have ok := succeeds.mpr fit
    rw [ended] at ok
    obtain rfl : outcome = .ok () := ok
    have wrote := writes after ended
    obtain ⟨cells, member, opposite, bit, values⟩ := wrote.rounds 0 (by decide)
    exact ⟨after, cells, rfl, member, opposite, bit, (values _ .handles).trans (by decide +kernel),
      wrote.frame⟩
  · exact .cell (by decide) (by decide)
      ⟨3, by decide, by decide +kernel, .inaccessible (by decide +kernel)⟩
  · exact .index (by decide) (by decide) (by decide +kernel) (by decide +kernel)

end Program

end Plonkish
