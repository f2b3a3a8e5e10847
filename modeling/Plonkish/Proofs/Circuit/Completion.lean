import Plonkish.Gadget.Sizes
import Plonkish.Proofs.Circuit.Soundness

namespace Plonkish

/-!
# Completion

A computation completes if it ends with a result: it neither refuses its input
nor crashes. What is known of the result, such as how many cells it has, is what
lets the computation that follows complete as well.
-/

section Completion

variable {ε σ α β : Type}

/-- A bound computation has a result where the first has one, and the next on it. -/
theorem ok_of_run_bind
    {first : ExceptT ε (StateM σ) α}
    {next : α → ExceptT ε (StateM σ) β}
    {state after : σ}
    {result : β}
    (gives : (first >>= next).run state = (.ok result, after)) :
    ∃ middle between, first.run state = (.ok middle, between)
      ∧ (next middle).run between = (.ok result, after) := by
  rw [run_bind] at gives
  rcases ended : first.run state with ⟨stop | middle, between⟩
  · rw [ended] at gives
    cases gives
  · rw [ended] at gives
    exact ⟨middle, between, rfl, gives⟩

/-- What cannot stop is bound by its result. -/
theorem run_lift_bind
    (first : StateM σ α)
    (next : α → ExceptT ε (StateM σ) β)
    (state : σ) :
    (liftM first >>= next).run state = (next (first state).1).run (first state).2 :=
  rfl

/-- From a state, a computation has a result that is as expected. -/
def Completes
    (expected : α → Prop)
    (computation : ExceptT ε (StateM σ) α)
    (state : σ) :
    Prop :=
  ∃ result after, computation.run state = (.ok result, after) ∧ expected result

namespace Completes

variable {state : σ} {expected : α → Prop} {later : β → Prop}

theorem pure
    {result : α}
    (isExpected : expected result) :
    Completes expected (Pure.pure result : ExceptT ε (StateM σ) α) state :=
  ⟨result, state, rfl, isExpected⟩

/-- What cannot stop completes. -/
theorem lift
    {computation : StateM σ α}
    (isExpected : expected (computation state).1) :
    Completes expected (liftM computation : ExceptT ε (StateM σ) α) state :=
  ⟨(computation state).1, (computation state).2, rfl, isExpected⟩

/-- Computations complete one after the other if the next does on every expected result. -/
theorem bind
    {first : ExceptT ε (StateM σ) α}
    {next : α → ExceptT ε (StateM σ) β}
    (firstCompletes : Completes expected first state)
    (nextCompletes : ∀ result between, expected result → Completes later (next result) between) :
    Completes later (first >>= next) state := by
  obtain ⟨result, between, gives, isExpected⟩ := firstCompletes
  obtain ⟨final, after, nextGives, isFinal⟩ := nextCompletes result between isExpected
  refine ⟨final, after, ?_, isFinal⟩
  rw [run_bind, gives]
  exact nextGives

/-- What cannot stop may come first. -/
theorem bind_lift
    {first : StateM σ α}
    {next : α → ExceptT ε (StateM σ) β}
    (nextCompletes : Completes later (next (first state).1) (first state).2) :
    Completes later (liftM first >>= next) state := by
  obtain ⟨final, after, gives, isFinal⟩ := nextCompletes
  exact ⟨final, after, gives, isFinal⟩

end Completes

end Completion

/-- A value is taken apart into as many bits as asked for. -/
theorem Synthesis.length_bits
    {field : PrimeField}
    (cell : Cell field)
    (width : Nat)
    (transcript : Transcript field) :
    (bits cell width transcript).1.length = width := by
  have given : (bits cell width transcript).1 =
      (bitElements cell.value width).mapIdx fun index element =>
        Cell.mk (transcript.size + bitPosition index) element := rfl
  simp [given, bitElements]

namespace Assembly

variable {field : PrimeField} {transcript : Transcript field}

/-- Only a divisor of zero has no quotient. -/
theorem divide_completes
    {dividend divisor : Source field}
    (nonzero : divisor.value ≠ 0) :
    Completes (fun _ => True) (divide dividend divisor) transcript := by
  rw [divide, if_neg nonzero]
  exact Completes.lift trivial

/-- A value is taken apart into as many bits as the modulus has, or fewer. -/
theorem toBits_completes
    {cell : Cell field}
    {width : Nat}
    (positive : 0 < width)
    (bounded : width ≤ field.bits) :
    Completes (fun bits => bits.length = width) (toBits cell width) transcript := by
  rw [toBits, if_neg (by omega)]
  exact Completes.lift (Synthesis.length_bits cell width transcript)

/-- A list that is long enough is cut, and nothing of it is lost. -/
theorem split_completes
    {count : Nat}
    {items : List α}
    (enough : count ≤ items.length) :
    Completes (fun parts => items = parts.1 ++ parts.2 ∧ parts.1.length = count)
      (split count items : Assembly field _) transcript := by
  have cut : Sizes.split? count items = some (items.splitAt count) := if_pos enough
  rw [split, cut]
  exact Completes.pure (Sizes.split?_eq_some_iff.mp cut)

/-- A check of a length refuses another length, and otherwise does nothing. -/
theorem run_checkLength_bind
    (name : String)
    (expected : Nat)
    (cells : List (Cell field))
    (next : Unit → Assembly field α) :
    (checkLength name expected cells >>= next).run transcript =
      if cells.length = expected then (next ()).run transcript
      else (.error (.report (.inputLength name expected cells.length)), transcript) := by
  unfold checkLength
  split <;> rfl

end Assembly

end Plonkish
