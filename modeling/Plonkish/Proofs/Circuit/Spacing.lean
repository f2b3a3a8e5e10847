import Plonkish.Proofs.Circuit.Soundness

namespace Plonkish

/-!
# Spacing of gates

A gate takes four consecutive cells. A gate may start where the one before it
ends, as the gates of an inner product do, but never earlier, and the cells of
the last gate are there. Every operation lays out its gates in this way, so a
column can end at any cell where a gate starts.
-/

/-- No gate starts at the two cells behind the start of a gate, and there is one more. -/
def gapAfter : List Bool → Bool
  | false :: false :: _ :: _ => true
  | _ => false

/-- Gates start at least three cells apart, and all their cells are there. -/
def spaced : List Bool → Bool
  | [] => true
  | false :: rest => spaced rest
  | true :: rest => gapAfter rest && spaced rest

/-- A gate that starts in time has its gap however many cells follow. -/
theorem gapAfter_append {first second : List Bool} (gap : gapAfter first = true) :
    gapAfter (first ++ second) = true := by
  unfold gapAfter at gap
  split at gap
  · rfl
  · cases gap

/-- Gates stay apart when cells are appended whose gates are apart. -/
theorem spaced_append
    {first second : List Bool}
    (firstSpaced : spaced first = true)
    (secondSpaced : spaced second = true) :
    spaced (first ++ second) = true := by
  induction first with
  | nil => exact secondSpaced
  | cons start rest inductionHypothesis =>
      cases start with
      | false => exact inductionHypothesis firstSpaced
      | true =>
          obtain ⟨gap, restSpaced⟩ : gapAfter rest = true ∧ spaced rest = true := by
            simpa [spaced] using firstSpaced
          simp [spaced, gapAfter_append gap, inductionHypothesis restSpaced]

/-- The cells of a gate are there, and no other gate starts at the two behind its start. -/
theorem gap_of_spaced
    {selectors : List Bool}
    {offset : Nat}
    (isSpaced : spaced selectors = true)
    (starts : selectors[offset]? = some true) :
    offset + 3 < selectors.length
      ∧ selectors[offset + 1]? = some false ∧ selectors[offset + 2]? = some false := by
  induction selectors generalizing offset with
  | nil => cases starts
  | cons start rest inductionHypothesis =>
      have restSpaced : spaced rest = true := by
        cases start <;> simp_all [spaced]
      cases offset with
      | zero =>
          obtain rfl : start = true := by simpa using starts
          have gap : gapAfter rest = true := by
            simp only [spaced, Bool.and_eq_true] at isSpaced
            exact isSpaced.1
          unfold gapAfter at gap
          split at gap
          · simp
          · cases gap
      | succ offset =>
          obtain ⟨inside, first, second⟩ := inductionHypothesis restSpaced starts
          exact ⟨Nat.succ_lt_succ inside, first, second⟩

section Preservation

variable {σ ε α β : Type} {invariant : σ → Prop}

/-- A computation keeps an invariant of its state. -/
def Preserves (invariant : σ → Prop) (computation : StateM σ α) : Prop :=
  ∀ state, invariant state → invariant (computation state).2

namespace Preserves

/-- A result that is known changes no state. -/
theorem pure (result : α) : Preserves invariant (Pure.pure result) :=
  fun _ holds => holds

/-- What each of two computations preserves is preserved by one after the other. -/
theorem bind
    {first : StateM σ α}
    {next : α → StateM σ β}
    (firstPreserves : Preserves invariant first)
    (nextPreserves : ∀ result, Preserves invariant (next result)) :
    Preserves invariant (first >>= next) := by
  intro state holds
  exact nextPreserves (first state).1 (first state).2 (firstPreserves state holds)

/-- Whatever the first of two computations ends with, the invariant holds where they end. -/
theorem run_bind
    {first : ExceptT ε (StateM σ) α}
    {next : α → ExceptT ε (StateM σ) β}
    (firstPreserves : Preserves invariant first.run)
    (nextPreserves : ∀ result, Preserves invariant (next result).run) :
    Preserves invariant (first >>= next).run := by
  rw [ExceptT.run_bind]
  apply Preserves.bind firstPreserves
  intro outcome
  cases outcome with
  | error stop => exact Preserves.pure _
  | ok result => exact nextPreserves result

/-- A result that cannot fail changes no state. -/
theorem run_pure (result : α) :
    Preserves invariant (Pure.pure result : ExceptT ε (StateM σ) α).run :=
  fun _ holds => holds

/-- A computation that cannot fail preserves the same among those that can. -/
theorem run_lift
    {computation : StateM σ α}
    (preserves : Preserves invariant computation) :
    Preserves invariant (liftM computation : ExceptT ε (StateM σ) α).run :=
  preserves

/-- Computing for each item preserves what is preserved for any of them. -/
theorem mapM
    {compute : α → StateM σ β}
    (each : ∀ item, Preserves invariant (compute item))
    (items : List α) :
    Preserves invariant (items.mapM compute) := by
  induction items with
  | nil => exact Preserves.pure []
  | cons item rest inductionHypothesis =>
      rw [List.mapM_cons]
      apply Preserves.bind (each item)
      intro result
      apply Preserves.bind inductionHypothesis
      intro results
      exact Preserves.pure _

/-- Doing something for each item preserves what is preserved for any of them. -/
theorem forM
    {compute : α → StateM σ PUnit}
    (each : ∀ item, Preserves invariant (compute item))
    (items : List α) :
    Preserves invariant (forM items compute) := by
  induction items with
  | nil => exact Preserves.pure _
  | cons item rest inductionHypothesis =>
      rw [List.forM_cons]
      exact (each item).bind fun _ => inductionHypothesis

end Preserves

end Preservation

namespace Transcript

variable {field : PrimeField}

/-- Whether a gate starts at each cell, in order. -/
def selectors (transcript : Transcript field) : List Bool :=
  transcript.rows.toList.map Row.gate

/-- There is a selector for each cell. -/
@[simp] theorem length_selectors (transcript : Transcript field) :
    transcript.selectors.length = transcript.size := by
  simp [selectors, size]

/-- A gate starts where its selector is set. -/
theorem mem_gates_iff_selectors {transcript : Transcript field} {offset : Nat} :
    offset ∈ transcript.gates ↔ transcript.selectors[offset]? = some true := by
  simp [mem_gates_iff, selectors]

/-- A block adds the selectors of its entries. -/
theorem selectors_lay (transcript : Transcript field) (block : Block field) :
    (transcript.lay block).selectors =
      transcript.selectors ++ block.entries.map Entry.gate := by
  simp [selectors, rows_lay, Function.comp_def]

/-- The gates of a transcript are apart, and all their cells are there. -/
def Spaced (transcript : Transcript field) : Prop :=
  spaced transcript.selectors = true

end Transcript

namespace Synthesis

variable {field : PrimeField}

/-- A block whose gates are apart keeps gates apart. -/
theorem lay_spaced
    {entries : List (Entry field)}
    (ties : List (Nat × Nat))
    (isSpaced : spaced (entries.map Entry.gate) = true) :
    Preserves Transcript.Spaced (lay entries ties) := by
  intro transcript holds
  have laid : (lay entries ties transcript).2 = transcript.lay ⟨entries, ties⟩ := rfl
  rw [Transcript.Spaced, laid, Transcript.selectors_lay]
  exact spaced_append holds isSpaced

/-- The transcript can be looked at. -/
theorem get_spaced :
    Preserves Transcript.Spaced (get : Synthesis field (Transcript field)) :=
  fun _ holds => holds

/-- A cell of the prover's choice starts no gate. -/
theorem witness_spaced (value : Element field) :
    Preserves Transcript.Spaced (witness value) :=
  (lay_spaced [] rfl).bind fun _ => .pure _

/-- Cells of the prover's choice start no gate. -/
theorem witnesses_spaced (values : List (Element field)) :
    Preserves Transcript.Spaced (witnesses values) :=
  Preserves.mapM witness_spaced values

/-- A constant starts no gate. -/
theorem constant_spaced (value : Element field) :
    Preserves Transcript.Spaced (constant value) :=
  (lay_spaced [] rfl).bind fun _ => .pure _

/-- A copy lays out no cell. -/
theorem equate_spaced (left right : Cell field) :
    Preserves Transcript.Spaced (equate left right) :=
  fun _ holds => holds

variable (left right operand : Source field)

/-- A sum is one gate. -/
theorem add_spaced : Preserves Transcript.Spaced (add left right) :=
  (lay_spaced [] rfl).bind fun _ => .pure _

/-- A difference is one gate. -/
theorem sub_spaced : Preserves Transcript.Spaced (sub left right) :=
  (lay_spaced [] rfl).bind fun _ => .pure _

/-- An opposite is one gate. -/
theorem neg_spaced : Preserves Transcript.Spaced (neg operand) :=
  (lay_spaced [] rfl).bind fun _ => .pure _

/-- A product is one gate. -/
theorem mul_spaced : Preserves Transcript.Spaced (mul left right) :=
  (lay_spaced [] rfl).bind fun _ => .pure _

/-- A product and an addend are one gate. -/
theorem mulAdd_spaced : Preserves Transcript.Spaced (mulAdd left right operand) :=
  (lay_spaced [] rfl).bind fun _ => .pure _

/-- The negation of a bit is a difference. -/
theorem not_spaced : Preserves Transcript.Spaced (not operand) :=
  sub_spaced _ operand

/-- The conjunction of two bits is a product. -/
theorem and_spaced : Preserves Transcript.Spaced (and left right) :=
  mul_spaced left right

/-- A disjunction is two gates, one behind the other. -/
theorem or_spaced : Preserves Transcript.Spaced (or left right) :=
  (lay_spaced _ rfl).bind fun _ => .pure _

/-- A choice is two gates, one behind the other. -/
theorem select_spaced : Preserves Transcript.Spaced (select left right operand) :=
  (lay_spaced _ rfl).bind fun _ => .pure _

/-- A test for zero is two gates, one behind the other. -/
theorem isZero_spaced : Preserves Transcript.Spaced (isZero operand) :=
  (lay_spaced _ rfl).bind fun _ => .pure _

/-- A test for equality is a difference and a test for zero. -/
theorem isEqual_spaced : Preserves Transcript.Spaced (isEqual left right) :=
  (sub_spaced left right).bind fun _ => isZero_spaced _

/-- A quotient is one gate. -/
theorem quotient_spaced : Preserves Transcript.Spaced (quotient left right) :=
  (lay_spaced [] rfl).bind fun _ => .pure _

/-- A check that a cell is a bit is one gate. -/
theorem assertBit_spaced (bit : Cell field) :
    Preserves Transcript.Spaced (assertBit bit) :=
  (lay_spaced [] rfl).bind fun _ => .pure _

/-- In a chain of gates each one starts where the one before it ends. -/
theorem productChain_spaced
    (start : Source field)
    (sum : Element field)
    (pairs : List (Source field × Source field)) :
    spaced ((⟨start, !pairs.isEmpty⟩ :: productEntries sum pairs).map Entry.gate) = true := by
  induction pairs generalizing start sum with
  | nil => rfl
  | cons pair rest inductionHypothesis =>
      obtain ⟨left, right⟩ := pair
      exact inductionHypothesis (.witness (sum + left.value * right.value))
        (sum + left.value * right.value)

/-- An inner product is one gate after the other, each from the last cell of the one before. -/
theorem innerProduct_spaced (pairs : List (Source field × Source field)) :
    Preserves Transcript.Spaced (innerProduct pairs) :=
  (lay_spaced [] (productChain_spaced _ _ _)).bind fun _ => .pure _

/-- The bits of a cell are an inner product, and a check for each bit. -/
theorem bits_spaced (cell : Cell field) (width : Nat) :
    Preserves Transcript.Spaced (bits cell width) := by
  unfold bits
  apply Preserves.bind get_spaced
  intro transcript
  apply Preserves.bind (innerProduct_spaced _)
  intro sum
  apply Preserves.bind (equate_spaced cell sum)
  intro _
  apply Preserves.bind (Preserves.forM assertBit_spaced _)
  intro _
  exact Preserves.pure _

end Synthesis

namespace Assembly

variable {field : PrimeField}

/-- Giving up lays out no cell. -/
theorem crash_spaced :
    Preserves Transcript.Spaced (crash : Assembly field α).run :=
  fun _ holds => holds

/-- A refusal lays out no cell. -/
theorem refuse_spaced (failure : CircuitFailure) :
    Preserves Transcript.Spaced (refuse failure : Assembly field α).run :=
  fun _ holds => holds

/-- A quotient is laid out, or the divisor is zero and nothing is. -/
theorem divide_spaced (dividend divisor : Source field) :
    Preserves Transcript.Spaced (divide dividend divisor).run := by
  unfold divide
  split
  · exact crash_spaced
  · exact Preserves.run_lift (Synthesis.quotient_spaced dividend divisor)

/-- The bits of a cell are laid out, or there cannot be so many and nothing is. -/
theorem toBits_spaced (cell : Cell field) (width : Nat) :
    Preserves Transcript.Spaced (toBits cell width).run := by
  unfold toBits
  split
  · exact crash_spaced
  · exact Preserves.run_lift (Synthesis.bits_spaced cell width)

end Assembly

end Plonkish
