import Plonkish.Gadget.Cosets
import Plonkish.Proofs.Circuit.Completion
import Plonkish.Proofs.Field.Arithmetic
import Plonkish.Proofs.Gadget.Sizes

namespace Plonkish

/-!
# Completion of gadgets

A gadget whose input has the lengths and the range that its shape asks for
completes. No index has more bits than the modulus, and the lists of an exact
shape are never cut beyond their ends. Only the powers for the widest values of
a lookup argument may be too many to hold.
-/

namespace Gadget

variable {field : PrimeField} {transcript : Transcript field}

/-- There is a round for each bit. -/
theorem length_cosetRounds
    (power : Cell field)
    (bits : List (Cell field))
    (transcript : Transcript field) :
    (cosetRounds power bits transcript).1.length = bits.length := by
  induction bits generalizing power transcript with
  | nil => rfl
  | cons bit rest inductionHypothesis =>
      cases rest with
      | nil => rfl
      | cons nextBit rest =>
          have later := inductionHypothesis
            (Synthesis.mul power power (cosetRound power bit transcript).2).1
            (Synthesis.mul power power (cosetRound power bit transcript).2).2
          exact congrArg Nat.succ later

/-- A shape is made exactly if there is a round, and a bit for each round, in a word. -/
theorem cosetShape_make_eq_ok_iff
    {resultLength totalBits : Nat}
    {root : Element field}
    {shape : CosetShape field} :
    CosetShape.make resultLength totalBits root = .ok shape ↔
      shape = ⟨resultLength, totalBits, root⟩
        ∧ 0 < resultLength ∧ resultLength ≤ totalBits ∧ totalBits ≤ 64 := by
  unfold CosetShape.make
  split
  next outside =>
    refine iff_of_false (fun made => nomatch made) fun ⟨_, bounds⟩ => ?_
    omega
  next inside =>
    constructor
    · rintro ⟨⟩
      exact ⟨rfl, by omega⟩
    · rintro ⟨rfl, -⟩
      rfl

section Cosets

variable {resultLength totalBits : Nat} {root : Element field} {shape : CosetShape field}

/-- An index that has no more bits than its shape has a round for each result. -/
theorem cosets_completes
    (made : CosetShape.make resultLength totalBits root = .ok shape)
    {index : Cell field}
    (fits : fitsIn index.value totalBits = true) :
    Completes (fun rounds => rounds.length = resultLength) (cosets shape index) transcript := by
  obtain ⟨rfl, atLeastOne, enough, inWord⟩ := cosetShape_make_eq_ok_iff.mp made
  have enoughBits : 64 ≤ field.bits := by
    cases field <;> decide
  rw [cosets, if_pos fits]
  apply Completes.bind
  · apply Assembly.toBits_completes
    · exact atLeastOne.trans_le enough
    · exact inWord.trans enoughBits
  · intro bits _ counted
    apply Completes.bind_lift
    apply Completes.bind_lift
    apply Completes.lift
    rw [length_cosetRounds, List.length_take, List.length_reverse, counted]
    exact Nat.min_eq_left enough

/-- An index that has more bits is refused before anything is laid out. -/
theorem run_cosets_of_not_fitsIn
    (made : CosetShape.make resultLength totalBits root = .ok shape)
    {index : Cell field}
    (more : ¬ fitsIn index.value totalBits = true) :
    (cosets shape index).run transcript =
      (.error (.report (.valueRange index.value.toHex totalBits)), transcript) := by
  obtain ⟨rfl, -⟩ := cosetShape_make_eq_ok_iff.mp made
  rw [cosets, if_neg more]
  rfl

/-- An index has a round for each result of its shape, or it is refused for its bits. -/
theorem cosets_cases
    (made : CosetShape.make resultLength totalBits root = .ok shape)
    (index : Cell field)
    (transcript : Transcript field) :
    (∃ failure, (cosets shape index).run transcript = (.error (.report failure), transcript))
      ∨ Completes (fun rounds => rounds.length = resultLength) (cosets shape index)
        transcript := by
  by_cases fits : fitsIn index.value totalBits = true
  · exact .inr (cosets_completes made fits)
  · exact .inl ⟨_, run_cosets_of_not_fitsIn made fits⟩

end Cosets

section GateArgument

theorem length_geometric (challenge first : Cell field) (further : Nat) :
    (geometric challenge first further transcript).1.length = further + 1 := by
  induction further generalizing first transcript with
  | zero => rfl
  | succ further inductionHypothesis =>
      have later := @inductionHypothesis (Synthesis.mul first challenge transcript).2
        (Synthesis.mul first challenge transcript).1
      exact congrArg Nat.succ later

theorem length_powersFromZero (challenge : Cell field) (count : Nat) :
    (powersFromZero challenge count transcript).1.length = count := by
  cases count with
  | zero => rfl
  | succ further => exact length_geometric challenge _ further

/-- The constraints of gates are combined if there are as many as their sizes say. -/
theorem combineGates_completes
    {constraints powers : List (Cell field)}
    {sizes : List UInt64}
    (enoughConstraints : constraints.length = (sizes.map UInt64.toNat).sum)
    (enoughPowers : powers.length = (sizes.map UInt64.toNat).sum) :
    Completes (fun _ => True) (combineGates constraints powers sizes) transcript := by
  induction sizes generalizing constraints powers transcript with
  | nil => exact Completes.pure trivial
  | cons size rest inductionHypothesis =>
      rw [List.map_cons, List.sum_cons] at enoughConstraints enoughPowers
      apply Completes.bind (Assembly.split_completes (by omega))
      rintro ⟨ownConstraints, laterConstraints⟩ _ ⟨rfl, ownLength⟩
      apply Completes.bind (Assembly.split_completes (by omega))
      rintro ⟨ownPowers, laterPowers⟩ _ ⟨rfl, ownPowersLength⟩
      simp only [List.length_append] at enoughConstraints enoughPowers ownLength ownPowersLength
      apply Completes.bind_lift
      apply Completes.bind
      · apply inductionHypothesis
        · omega
        · omega
      · intro combined _ _
        exact Completes.pure trivial

variable {shape : GateShape} {input : GateCells field}

/-- Another number of constraints is refused before anything is laid out. -/
theorem run_gateArgument_of_constraints
    (others : input.constraints.length ≠ shape.total) :
    (gateArgument shape input).run transcript =
      (.error (.report (.inputLength "constraints" shape.total input.constraints.length)),
        transcript) := by
  rw [gateArgument, Assembly.run_checkLength_bind, if_neg others]

/-- Another number of selectors is refused before anything is laid out. -/
theorem run_gateArgument_of_selectors
    (constraints : input.constraints.length = shape.total)
    (others : input.selectors.length ≠ shape.sizes.length) :
    (gateArgument shape input).run transcript =
      (.error (.report (.inputLength "selectors" shape.sizes.length input.selectors.length)),
        transcript) := by
  rw [gateArgument, Assembly.run_checkLength_bind, if_pos constraints,
    Assembly.run_checkLength_bind, if_neg others]

/-- A gate argument has a value if there are as many constraints and selectors as asked for. -/
theorem gateArgument_completes
    (exact : shape.total = (shape.sizes.map UInt64.toNat).sum)
    (constraints : input.constraints.length = shape.total)
    (selectors : input.selectors.length = shape.sizes.length) :
    Completes (fun _ => True) (gateArgument shape input) transcript := by
  have checked : (gateArgument shape input).run transcript =
      (do
        let powers ← powersFromZero input.challenge shape.total
        let combined ← combineGates input.constraints powers shape.sizes
        innerProductOfCells input.selectors combined : Assembly field (Cell field)).run
          transcript := by
    rw [gateArgument, Assembly.run_checkLength_bind, if_pos constraints,
      Assembly.run_checkLength_bind, if_pos selectors]
  unfold Completes
  rw [checked]
  apply Completes.bind_lift
  apply Completes.bind
  · apply combineGates_completes
    · rw [constraints, exact]
    · rw [length_powersFromZero, exact]
  · intro combined _ _
    exact Completes.lift trivial

/-- A gate argument has a value, or the number of its constraints or selectors is refused. -/
theorem gateArgument_cases
    (exact : shape.total = (shape.sizes.map UInt64.toNat).sum)
    (input : GateCells field)
    (transcript : Transcript field) :
    (∃ failure, (gateArgument shape input).run transcript =
        (.error (.report failure), transcript))
      ∨ Completes (fun _ => True) (gateArgument shape input) transcript := by
  by_cases constraints : input.constraints.length = shape.total
  case neg => exact .inl ⟨_, run_gateArgument_of_constraints constraints⟩
  by_cases selectors : input.selectors.length = shape.sizes.length
  case neg => exact .inl ⟨_, run_gateArgument_of_selectors constraints selectors⟩
  exact .inr (gateArgument_completes exact constraints selectors)

end GateArgument

end Gadget

end Plonkish
