import Plonkish.Machine.Memory

namespace Plonkish

/-!
# Changes of memory

Memory is allocated at its end, and written in place. What was allocated before
keeps its width, and every cell outside a range that is written keeps what it
stores.
-/

namespace Memory

variable {field : PrimeField} {memory later : Memory field}

/-- An address can be accessed if it is that of a cell behind the null cell. -/
theorem checkAddress_eq_ok_iff {address : Nat} :
    memory.checkAddress address = .ok () ↔ 0 < address ∧ address < memory.size := by
  unfold checkAddress
  split
  next null => simp [null]
  next notNull =>
    split
    next outside => simp [Nat.not_lt.mpr outside]
    next inside => simp [Nat.pos_of_ne_zero notNull, Nat.not_le.mp inside]

/-- What reading from an address comes to. -/
theorem load_eq (memory : Memory field) (address : Nat) :
    memory.load address =
      if address = 0 then .error (.memory 0 .null)
      else if memory.size ≤ address then .error (.memory address .outOfBounds)
      else
        match memory.stored[address]? with
        | some cell => .ok cell
        | none => .error (.memory address .uninitialized) := by
  unfold load checkAddress
  split
  next null =>
    rw [null]
    rfl
  next => split <;> rfl

section Allocation

variable {count bytes pointer : Nat}

/-- Memory is allocated behind all cells if it does not get too large. -/
theorem allocate_eq_ok_iff :
    memory.allocate count bytes = .ok (pointer, later) ↔
      memory.size + count ≤ memoryLimit ∧ pointer = memory.size
        ∧ later = {
          memory with
          size := memory.size + count
          segments := ⟨memory.size, count, bytes⟩ :: memory.segments
        } := by
  unfold allocate
  split
  next fits =>
    simp only [Except.ok.injEq, Prod.mk.injEq, fits, true_and]
    exact ⟨fun ⟨first, second⟩ => ⟨first.symm, second.symm⟩,
      fun ⟨first, second⟩ => ⟨first.symm, second.symm⟩⟩
  next tooLarge => simp [tooLarge]

/-- Memory is exhausted if it would get too large. -/
theorem allocate_eq_error_iff {failure : Failure} :
    memory.allocate count bytes = .error failure ↔
      memoryLimit < memory.size + count ∧ failure = .memory memory.size .exhausted := by
  unfold allocate
  split
  next fits => exact iff_of_false nofun fun ⟨full, _⟩ => Nat.not_lt.mpr fits full
  next tooLarge => simp [Nat.lt_of_not_le tooLarge, eq_comm]

/-- The cells that there were keep their widths when further ones are allocated. -/
theorem cellBytes_of_allocate
    (allocated : memory.allocate count bytes = .ok (pointer, later))
    {address : Nat}
    (inside : address < memory.size) :
    later.cellBytes address = memory.cellBytes address := by
  obtain ⟨-, -, rfl⟩ := allocate_eq_ok_iff.mp allocated
  have notInNew : Segment.contains ⟨memory.size, count, bytes⟩ address = false := by
    simp [Segment.contains, Nat.not_le.mpr inside]
  have sameCheck : checkAddress
      { memory with
        size := memory.size + count
        segments := ⟨memory.size, count, bytes⟩ :: memory.segments } address =
      memory.checkAddress address := by
    simp [checkAddress, Nat.not_le.mpr inside, Nat.not_le.mpr (Nat.lt_add_right count inside)]
  unfold cellBytes
  rw [sameCheck]
  simp only [List.find?_cons, notInNew]

end Allocation

/-- Cells were written at consecutive addresses, and nothing else was changed. -/
structure Written
    (memory : Memory field)
    (pointer : Nat)
    (cells : List (Cell field))
    (later : Memory field) :
    Prop where
  size : later.size = memory.size
  segments : later.segments = memory.segments
  stored : ∀ address : Nat, later.stored[address]? =
    if pointer ≤ address ∧ address < pointer + cells.length then cells[address - pointer]?
    else memory.stored[address]?

/-- A cell that is written is stored, and nothing else is. -/
theorem store_eq_ok_iff {pointer : Nat} {cell : Cell field} :
    memory.store pointer cell = .ok later ↔
      memory.checkAddress pointer = .ok ()
        ∧ later = { memory with stored := memory.stored.insert pointer cell } := by
  unfold store
  cases memory.checkAddress pointer with
  | error failure =>
      constructor
      · rintro ⟨⟩
      · rintro ⟨⟨⟩, -⟩
  | ok _ =>
      constructor
      · rintro ⟨⟩
        exact ⟨rfl, rfl⟩
      · rintro ⟨-, rfl⟩
        rfl

/-- Cells are written behind an address if every one of their addresses can be accessed. -/
theorem exists_storeAll
    {pointer : Nat}
    {cells : List (Cell field)}
    (accessible : ∀ index < cells.length, memory.checkAddress (pointer + index) = .ok ()) :
    ∃ later, memory.storeAll pointer cells = .ok later := by
  induction cells generalizing memory pointer with
  | nil => exact ⟨memory, rfl⟩
  | cons cell rest inductionHypothesis =>
      have first : memory.checkAddress pointer = .ok () := accessible 0 (by simp)
      have stored : memory.store pointer cell =
          .ok { memory with stored := memory.stored.insert pointer cell } :=
        store_eq_ok_iff.mpr ⟨first, rfl⟩
      -- Whether an address can be accessed does not depend on what is stored.
      have later : ∀ index < rest.length, Memory.checkAddress
          { memory with stored := memory.stored.insert pointer cell } (pointer + 1 + index) =
            .ok () := by
        intro index inside
        rw [Nat.add_assoc, Nat.add_comm 1]
        exact accessible (index + 1) (by simpa using inside)
      obtain ⟨final, written⟩ := inductionHypothesis later
      refine ⟨final, ?_⟩
      rw [storeAll, stored]
      exact written

/-- Cells that are written are stored at their addresses. -/
theorem written_of_storeAll
    {pointer : Nat}
    {cells : List (Cell field)}
    (succeeds : memory.storeAll pointer cells = .ok later) :
    memory.Written pointer cells later := by
  induction cells generalizing memory pointer with
  | nil =>
      cases succeeds
      refine ⟨rfl, rfl, fun address => (if_neg ?_).symm⟩
      simp
  | cons cell rest inductionHypothesis =>
      rw [storeAll] at succeeds
      cases first : memory.store pointer cell with
      | error failure =>
          rw [first] at succeeds
          cases succeeds
      | ok between =>
          rw [first] at succeeds
          obtain ⟨sameSize, sameSegments, stored⟩ := inductionHypothesis succeeds
          obtain ⟨-, rfl⟩ := store_eq_ok_iff.mp first
          refine ⟨sameSize, sameSegments, fun address => ?_⟩
          simp only [stored, Std.TreeMap.getElem?_insert, Nat.compare_eq_eq, List.length_cons]
          rcases Nat.lt_trichotomy address pointer with before | rfl | behind
          · rw [if_neg (by omega), if_neg (by omega), if_neg (by omega)]
          · rw [if_neg (by omega), if_pos rfl, if_pos (by omega), Nat.sub_self]
            rfl
          · obtain ⟨distance, rfl⟩ := Nat.exists_eq_add_of_lt behind
            have fromFirst : pointer + distance + 1 - pointer = distance + 1 := by omega
            have fromSecond : pointer + distance + 1 - (pointer + 1) = distance := by omega
            rw [fromFirst, fromSecond, List.getElem?_cons_succ]
            by_cases inside : distance < rest.length
            · rw [if_pos (by omega), if_pos (by omega)]
            · rw [if_neg (by omega), if_neg (by omega), if_neg (by omega)]

namespace Written

variable {pointer : Nat} {cells : List (Cell field)}

theorem cellBytes (written : memory.Written pointer cells later) (address : Nat) :
    later.cellBytes address = memory.cellBytes address := by
  unfold Memory.cellBytes checkAddress
  rw [written.size, written.segments]

/-- Only the addresses that were written store something else. -/
theorem inside_of_ne
    (written : memory.Written pointer cells later)
    {address : Nat}
    (changed : later.stored[address]? ≠ memory.stored[address]?) :
    pointer ≤ address ∧ address < pointer + cells.length := by
  apply Decidable.byContradiction
  intro outside
  exact changed (by rw [written.stored, if_neg outside])

end Written

end Memory

end Plonkish
