import Plonkish.Machine.Operand
import Plonkish.Proofs.Machine.Memory
import Plonkish.Proofs.Machine.Reading

namespace Plonkish

/-!
# Reading ranges of memory

An address has a fault for which it cannot be accessed, or for which it cannot
be read. Consecutive cells are read if none of their addresses has a fault, and
otherwise the report is about the first one that has. Addresses are never added
up beyond 64 bits: there are fewer cells than that, so an address out of bounds
comes before.
-/

/-- What fails, fails in its first part, or in the rest on the result of the first. -/
theorem bind_eq_error_iff
    {first : Except ε α}
    {next : α → Except ε β}
    {failure : ε} :
    first >>= next = .error failure ↔
      first = .error failure ∨ ∃ middle, first = .ok middle ∧ next middle = .error failure := by
  cases first with
  | error fault =>
      change .error fault = Except.error failure ↔ _
      simp
  | ok middle =>
      change next middle = .error failure ↔ _
      simp

namespace Memory

variable {field : PrimeField} {memory : Memory field}

/-- Why an address cannot be accessed. -/
def accessFault? (memory : Memory field) (address : Nat) : Option MemoryFault :=
  if address = 0 then some .null
  else if memory.size ≤ address then some .outOfBounds
  else none

/-- Why an address cannot be read. -/
def fault? (memory : Memory field) (address : Nat) : Option MemoryFault :=
  (memory.accessFault? address).or
    (if memory.stored[address]?.isNone then some .uninitialized else none)

/-- Cells are stored at consecutive addresses, all of which can be accessed. -/
structure Holds (memory : Memory field) (base : Nat) (cells : List (Cell field)) : Prop where
  accessible : ∀ position < cells.length,
    base + position ≠ 0 ∧ base + position < memory.size
  stored : ∀ position < cells.length, memory.stored[base + position]? = cells[position]?

/-- A failure is about the first of some consecutive addresses that cannot be read. -/
def FaultsFirst (memory : Memory field) (base count : Nat) (failure : Failure) : Prop :=
  ∃ position < count, (∀ earlier < position, memory.fault? (base + earlier) = none)
    ∧ ∃ fault, memory.fault? (base + position) = some fault
      ∧ failure = .memory (base + position) fault

section Addresses

variable {address : Nat}

theorem accessFault?_eq_none_iff :
    memory.accessFault? address = none ↔ address ≠ 0 ∧ address < memory.size := by
  unfold accessFault?
  split
  next null => simp [null]
  next notNull =>
    split
    next outside => simp [Nat.not_lt.mpr outside]
    next inside => simp [notNull, Nat.not_le.mp inside]

theorem fault?_eq_none_iff :
    memory.fault? address = none ↔
      (address ≠ 0 ∧ address < memory.size) ∧ ∃ cell, memory.stored[address]? = some cell := by
  rw [fault?, Option.or_eq_none_iff, accessFault?_eq_none_iff, ← Option.isSome_iff_exists]
  cases memory.stored[address]? <;> simp

/-- A check of an address reports why it cannot be accessed. -/
theorem checkAddress_eq :
    memory.checkAddress address =
      match memory.accessFault? address with
      | some fault => .error (.memory address fault)
      | none => .ok () := by
  unfold checkAddress accessFault?
  split
  · rfl
  · split <;> rfl

/-- A cell is read where there is no fault. -/
theorem load_eq_ok_iff {cell : Cell field} :
    memory.load address = .ok cell ↔
      memory.fault? address = none ∧ memory.stored[address]? = some cell := by
  rw [load_eq, fault?, accessFault?]
  by_cases null : address = 0
  · simp [null]
  · by_cases outside : memory.size ≤ address
    · simp [null, outside]
    · cases memory.stored[address]? <;> simp [null, outside]

/-- The report is the fault of the address. -/
theorem load_eq_error_iff {failure : Failure} :
    memory.load address = .error failure ↔
      ∃ fault, memory.fault? address = some fault ∧ failure = .memory address fault := by
  rw [load_eq, fault?, accessFault?]
  by_cases null : address = 0
  · simp [null, @eq_comm _ failure]
  · by_cases outside : memory.size ≤ address
    · simp [null, outside, @eq_comm _ failure]
    · cases memory.stored[address]? <;> simp [null, outside, @eq_comm _ failure]

end Addresses

section Ranges

variable {base count : Nat} {cell : Cell field} {cells : List (Cell field)} {failure : Failure}

theorem holds_nil : memory.Holds base [] where
  accessible position inside := absurd inside (Nat.not_lt_zero position)
  stored position inside := absurd inside (Nat.not_lt_zero position)

/-- The first cell is at the address, and the others behind it. -/
theorem holds_cons_iff :
    memory.Holds base (cell :: cells) ↔
      memory.load base = .ok cell ∧ memory.Holds (base + 1) cells := by
  rw [load_eq_ok_iff, fault?_eq_none_iff]
  constructor
  · rintro ⟨accessible, stored⟩
    have first := stored 0 (Nat.zero_lt_succ _)
    refine ⟨⟨⟨accessible 0 (Nat.zero_lt_succ _), cell, first⟩, first⟩,
      fun position inside => ?_, fun position inside => ?_⟩
    · have here := accessible (position + 1) (Nat.succ_lt_succ inside)
      rwa [← Nat.add_assoc, Nat.add_right_comm] at here
    · have here := stored (position + 1) (Nat.succ_lt_succ inside)
      rwa [← Nat.add_assoc, Nat.add_right_comm] at here
  · rintro ⟨⟨⟨firstAccessible, -⟩, first⟩, accessible, stored⟩
    constructor
    case accessible =>
      rintro (_ | position) inside
      · exact firstAccessible
      · rw [← Nat.add_assoc, Nat.add_right_comm]
        exact accessible position (Nat.lt_of_succ_lt_succ inside)
    case stored =>
      rintro (_ | position) inside
      · exact first
      · rw [← Nat.add_assoc, Nat.add_right_comm]
        exact stored position (Nat.lt_of_succ_lt_succ inside)

theorem not_faultsFirst_zero : ¬memory.FaultsFirst base 0 failure := by
  rintro ⟨position, inside, -⟩
  exact Nat.not_lt_zero position inside

/-- Either the first address has a fault, or it has none and one of the others has. -/
theorem faultsFirst_succ_iff :
    memory.FaultsFirst base (count + 1) failure ↔
      memory.load base = .error failure
        ∨ (∃ cell, memory.load base = .ok cell) ∧ memory.FaultsFirst (base + 1) count failure := by
  have readable : (∃ cell, memory.load base = .ok cell) ↔ memory.fault? base = none := by
    simp only [load_eq_ok_iff, exists_and_left, fault?_eq_none_iff]
    exact ⟨fun both => both.1, fun none => ⟨none, none.2⟩⟩
  rw [readable, load_eq_error_iff]
  simp only [FaultsFirst, Nat.exists_lt_succ_left, Nat.forall_lt_succ_left, Nat.add_assoc,
    Nat.add_comm 1, Nat.add_zero, Nat.not_lt_zero, false_imp_iff, imp_true_iff, true_and]
  grind

/-- The first of several cells is read, and then the others. -/
theorem loadFrom_succ {offset : Nat} (inWord : base + offset < 1 <<< 64) :
    memory.loadFrom base offset (count + 1) =
      memory.load (base + offset) >>= fun cell =>
        memory.loadFrom base (offset + 1) count >>= fun rest => .ok (cell :: rest) := by
  have address : offsetAddress base offset = .ok (base + offset) := by
    rw [offsetAddress, Sizes.sum?_eq_some_iff.mpr ⟨rfl, inWord⟩]
  rw [loadFrom, address]
  rfl

/-- A cell that is read is inside the memory. -/
theorem lt_size_of_load {address : Nat} (read : memory.load address = .ok cell) :
    address < memory.size :=
  (fault?_eq_none_iff.mp (load_eq_ok_iff.mp read).1).1.2

variable (bounded : memory.size < 1 <<< 64) {offset : Nat} (inWord : base + offset < 1 <<< 64)

include bounded inWord

/-- Consecutive cells are read exactly if they are there. -/
theorem loadFrom_eq_ok_iff :
    memory.loadFrom base offset count = .ok cells ↔
      cells.length = count ∧ memory.Holds (base + offset) cells := by
  induction count generalizing offset cells with
  | zero =>
      rw [loadFrom, List.length_eq_zero_iff, Except.ok.injEq]
      exact ⟨fun empty => empty ▸ ⟨rfl, holds_nil⟩, fun ⟨empty, _⟩ => empty.symm⟩
  | succ count inductionHypothesis =>
      rw [loadFrom_succ inWord]
      constructor
      · intro read
        obtain ⟨cell, first, read⟩ := ok_of_bind read
        obtain ⟨rest, later, read⟩ := ok_of_bind read
        cases read
        -- A cell was read here, so that the next address is still one of 64 bits.
        have inside := lt_size_of_load first
        obtain ⟨counted, holds⟩ := (inductionHypothesis (by omega)).mp later
        exact ⟨congrArg Nat.succ counted, holds_cons_iff.mpr ⟨first, holds⟩⟩
      · rintro ⟨counted, holds⟩
        obtain ⟨cell, rest, rfl⟩ := List.exists_cons_of_length_eq_add_one counted
        obtain ⟨first, holds⟩ := holds_cons_iff.mp holds
        have inside := lt_size_of_load first
        have later := (@inductionHypothesis rest (offset + 1) (by omega)).mpr
          ⟨Nat.succ.inj counted, holds⟩
        rw [bind_of_ok first, bind_of_ok later]

/-- If consecutive cells are not read, the report is about the first fault. -/
theorem loadFrom_eq_error_iff :
    memory.loadFrom base offset count = .error failure ↔
      memory.FaultsFirst (base + offset) count failure := by
  induction count generalizing offset with
  | zero => exact iff_of_false nofun not_faultsFirst_zero
  | succ count inductionHypothesis =>
      rw [faultsFirst_succ_iff, loadFrom_succ inWord, bind_eq_error_iff, ← exists_and_right]
      refine or_congr_right (exists_congr fun cell => and_congr_right fun first => ?_)
      have inside := lt_size_of_load first
      have later := @inductionHypothesis (offset + 1) (by omega)
      rw [bind_eq_error_iff, later, Nat.add_assoc]
      exact or_iff_left nofun

end Ranges

end Memory

end Plonkish
