import Mathlib.Order.Bounds.Basic
import Plonkish.Circuit.Builder
import Plonkish.Proofs.Circuit.Placement

namespace Plonkish

/-!
# The fewest columns

A circuit gets the least positive number of advice columns whose rows, less the
reserved ones, hold the cells of its first phase; it is refused exactly if a
policy does not allow for as many. What is returned is what the builder is
configured with, also where a circuit without cells is configured twice. So a
circuit with fewer cells gets no more columns, and is accepted where one with more
is. The layout of a transcript is that of a builder in which it was laid out.
-/

/-- Nothing takes no column. -/
theorem quotientUp_zero (divisor : Nat) : quotientUp 0 divisor = 0 := by
  rw [quotientUp, Nat.zero_add, Nat.div_eq_zero_iff]
  omega

namespace Policy

variable {policy : Policy}

/-- The least positive number of columns whose rows, less the reserved ones, hold some cells. -/
def Needs (policy : Policy) (cells needed : Nat) : Prop :=
  IsLeast { columns | 1 ≤ columns ∧ cells ≤ columns * (2 ^ policy.k - policy.minimumRows) } needed

/-- More cells need no fewer columns. -/
theorem Needs.mono
    {cells more fewer needed : Nat}
    (few : policy.Needs cells fewer)
    (many : policy.Needs more needed)
    (atMost : cells ≤ more) :
    fewer ≤ needed :=
  few.2 ⟨many.1.1, atMost.trans many.1.2⟩

/-- The columns that are needed are counted by a division, but for a circuit without cells. -/
theorem needs_max_quotientUp (accepted : policy.validate = .ok ()) (cells : Nat) :
    policy.Needs cells (max (quotientUp cells ((1 <<< policy.k) - policy.minimumRows)) 1) := by
  have usable : 0 < (1 <<< policy.k) - policy.minimumRows :=
    Nat.sub_pos_of_lt (minimumRows_lt_of_validate accepted)
  rw [Nat.one_shiftLeft] at usable ⊢
  constructor
  · exact ⟨le_max_right _ _, (quotientUp_le_iff usable).mp (le_max_left _ _)⟩
  · rintro columns ⟨positive, hold⟩
    exact max_le ((quotientUp_le_iff usable).mpr hold) positive

/-- A policy that is accepted allows for a column. -/
theorem maxAdviceColumns_pos_of_validate (accepted : policy.validate = .ok ()) :
    0 < policy.maxAdviceColumns := by
  unfold validate at accepted
  split at accepted
  · cases accepted
  split at accepted
  · cases accepted
  split at accepted
  · cases accepted
  next someColumns => omega

end Policy

namespace Builder

variable {field : PrimeField} {policy : Policy} {builder : Builder field}

/-- A builder is configured for the rows and the public inputs of a policy. -/
structure SizedBy (builder : Builder field) (policy : Policy) : Prop where
  k : builder.config.k = policy.k
  instanceColumns : builder.config.instanceColumns = policy.instanceColumns

/-- The parameters that a builder is left with: those that are counted, or those for no cells. -/
def fixed (builder : Builder field) (minimumRows : Nat) : Parameters :=
  if (builder.counted minimumRows).advice = 0 then (builder.counted minimumRows).withOneColumn
  else builder.counted minimumRows

/-- The columns are counted and configured, and then compared with what the policy allows. -/
theorem run_fixColumns (policy : Policy) (builder : Builder field) :
    policy.fixColumns.run builder =
      if policy.maxAdviceColumns < (builder.counted policy.minimumRows).advice then
        (.error (.layout (builder.counted policy.minimumRows).advice policy.maxAdviceColumns),
          { builder with config := builder.counted policy.minimumRows })
      else
        (.ok (builder.fixed policy.minimumRows),
          { builder with config := builder.fixed policy.minimumRows }) := by
  have counts : (calculate policy.minimumRows).run builder =
      (.ok (builder.counted policy.minimumRows),
        { builder with config := builder.counted policy.minimumRows }) := rfl
  unfold Policy.fixColumns fixed
  rw [run_bind, counts]
  dsimp only
  by_cases tooMany : policy.maxAdviceColumns < (builder.counted policy.minimumRows).advice
  · simp only [tooMany, ↓reduceIte]
    rfl
  · by_cases empty : (builder.counted policy.minimumRows).advice = 0
    · simp only [empty, ↓reduceIte]
      rfl
    · simp only [tooMany, empty, ↓reduceIte]
      rfl

/-- The columns of the first phase are counted from the cells of the first phase. -/
theorem advice_counted (builder : Builder field) (minimumRows : Nat) :
    (builder.counted minimumRows).advice =
      quotientUp builder.first.size ((1 <<< builder.config.k) - minimumRows) := by
  unfold counted Parameters.advice first
  cases builder.phases with
  | nil => exact (quotientUp_zero _).symm
  | cons transcript later => rfl

/-- A builder is left with the columns that are counted, and with one if there are none. -/
theorem advice_fixed (builder : Builder field) (minimumRows : Nat) :
    (builder.fixed minimumRows).advice = max (builder.counted minimumRows).advice 1 := by
  unfold fixed
  split
  next empty =>
    rw [empty]
    rfl
  next nonempty => omega

/-- What a builder is refused for, or left with, is the least number of columns. -/
theorem needs_advice_fixed
    (accepted : policy.validate = .ok ())
    (sized : builder.SizedBy policy) :
    policy.Needs builder.first.size (builder.fixed policy.minimumRows).advice := by
  rw [advice_fixed, advice_counted, sized.k]
  exact Policy.needs_max_quotientUp accepted builder.first.size

/-- Under an accepted policy, which allows for a column, the columns that are left are compared. -/
theorem fst_run_fixColumns (accepted : policy.validate = .ok ()) (builder : Builder field) :
    (policy.fixColumns.run builder).1 =
      if (builder.fixed policy.minimumRows).advice ≤ policy.maxAdviceColumns then
        .ok (builder.fixed policy.minimumRows)
      else
        .error (.layout (builder.fixed policy.minimumRows).advice policy.maxAdviceColumns) := by
  have allowsOne := Policy.maxAdviceColumns_pos_of_validate accepted
  have left := advice_fixed builder policy.minimumRows
  rw [run_fixColumns]
  by_cases tooMany : policy.maxAdviceColumns < (builder.counted policy.minimumRows).advice
  · have same : (builder.fixed policy.minimumRows).advice =
        (builder.counted policy.minimumRows).advice := by omega
    rw [if_pos tooMany, same, if_neg (Nat.not_le.mpr tooMany)]
  · rw [if_neg tooMany, if_pos (by omega)]

/-- A builder is configured with what is returned. -/
theorem config_of_fixColumns
    {parameters : Parameters}
    (accepted : (policy.fixColumns.run builder).1 = .ok parameters) :
    (policy.fixColumns.run builder).2 = { builder with config := parameters } := by
  rw [run_fixColumns] at accepted ⊢
  split at accepted
  · cases accepted
  next enough =>
    rw [if_neg enough]
    cases accepted
    rfl

/-- Where one phase has begun at most, the columns of a builder are those of its transcript. -/
theorem layout_first
    (sized : builder.SizedBy policy)
    (onePhase : builder.phases.length ≤ 1) :
    (policy.fixColumns.run builder).1.map Parameters.layout = policy.layout builder.first := by
  have sameConstants : builder.distinctConstants = builder.first.distinctConstants := by
    unfold distinctConstants first Transcript.distinctConstants
    match builder.phases, onePhase with
    | [], _ => rfl
    | [transcript], _ => simp
  have sameConfig : (builder.fixed policy.minimumRows).k = builder.config.k
      ∧ (builder.fixed policy.minimumRows).fixedColumns =
        quotientUp builder.distinctConstants.length (1 <<< builder.config.k)
      ∧ (builder.fixed policy.minimumRows).instanceColumns = builder.config.instanceColumns := by
    unfold fixed
    split <;> exact ⟨rfl, rfl, rfl⟩
  rw [run_fixColumns, Policy.layout, Policy.columnsFor, Policy.usableRows, ← sized.k,
    ← advice_counted, ← sameConstants, ← sized.instanceColumns]
  by_cases tooMany : policy.maxAdviceColumns < (builder.counted policy.minimumRows).advice
  · rw [if_pos tooMany, if_pos tooMany]
    rfl
  · rw [if_neg tooMany, if_neg tooMany, ← advice_fixed, ← sameConfig.2.1, ← sameConfig.2.2,
      ← sameConfig.1]
    rfl

/--
A circuit gets the fewest columns that hold its cells, if a policy allows for them.

The reserved rows are fewer than the rows. There is a least number of columns; the
circuit is laid out exactly if the policy allows for as many, and then that number
is returned and configured. Otherwise the refusal says how many are needed. Fewer
cells never need more columns, and are laid out wherever more are. The result is
the layout of what the builder holds.
-/
theorem fixColumns_fewest
    (accepted : policy.validate = .ok ())
    (sized : builder.SizedBy policy) :
    policy.minimumRows < 2 ^ policy.k
      ∧ (∃ needed, policy.Needs builder.first.size needed
        ∧ ((∃ parameters, (policy.fixColumns.run builder).1 = .ok parameters) ↔
          needed ≤ policy.maxAdviceColumns)
        ∧ (∀ parameters, (policy.fixColumns.run builder).1 = .ok parameters →
          parameters.advice = needed
            ∧ (policy.fixColumns.run builder).2 = { builder with config := parameters })
        ∧ (policy.maxAdviceColumns < needed →
          (policy.fixColumns.run builder).1 = .error (.layout needed policy.maxAdviceColumns)))
      ∧ (∀ smaller : Builder field, smaller.SizedBy policy →
        smaller.first.size ≤ builder.first.size →
        (∀ fewer needed, policy.Needs smaller.first.size fewer →
          policy.Needs builder.first.size needed → fewer ≤ needed)
        ∧ ∀ parameters, (policy.fixColumns.run builder).1 = .ok parameters →
          ∃ fewer, (policy.fixColumns.run smaller).1 = .ok fewer
            ∧ fewer.advice ≤ parameters.advice)
      ∧ (builder.phases.length ≤ 1 →
        (policy.fixColumns.run builder).1.map Parameters.layout = policy.layout builder.first) := by
  have needs := needs_advice_fixed accepted sized
  have outcome := fst_run_fixColumns accepted builder
  refine ⟨Nat.one_shiftLeft _ ▸ Policy.minimumRows_lt_of_validate accepted,
    ⟨_, needs, ?_, ?_, ?_⟩, ?_, layout_first sized⟩
  · rw [outcome]
    split
    next enough => exact iff_of_true ⟨_, rfl⟩ enough
    next tooMany => exact iff_of_false nofun tooMany
  · intro parameters isFixed
    refine ⟨?_, config_of_fixColumns isFixed⟩
    rw [outcome] at isFixed
    split at isFixed
    · cases isFixed
      rfl
    · cases isFixed
  · intro tooMany
    rw [outcome, if_neg (Nat.not_le.mpr tooMany)]
  · intro smaller smallerSized atMost
    have fewerNeeded := needs_advice_fixed accepted smallerSized
    refine ⟨fun fewer needed few many => few.mono many atMost, fun parameters isFixed => ?_⟩
    have noMore := fewerNeeded.mono needs atMost
    rw [outcome] at isFixed
    split at isFixed
    next enough =>
      cases isFixed
      refine ⟨smaller.fixed policy.minimumRows, ?_, noMore⟩
      rw [fst_run_fixColumns accepted, if_pos (noMore.trans enough)]
    next => cases isFixed

/-- A policy of sixteen rows and one column, which reserves two rows. -/
def narrowPolicy : Policy where
  k := 4
  minimumRows := 2
  maxAdviceColumns := 1
  instanceColumns := 1

/-- A builder of the narrow policy with eighty-one cells. -/
def crowded : Builder .bn254Scalar :=
  { (ofPolicy narrowPolicy : Builder .bn254Scalar) with
    phases := [⟨Array.replicate 81 ⟨0, false⟩, #[], #[]⟩] }

/-- Eighty-one cells need six columns of fourteen rows, and are refused where one is allowed. -/
theorem fixColumns_fewest_crowded :
    narrowPolicy.validate = .ok () ∧ crowded.SizedBy narrowPolicy
      ∧ (narrowPolicy.fixColumns.run crowded).1 = .error (.layout 6 1) := by
  have accepted : narrowPolicy.validate = .ok () := rfl
  have sized : crowded.SizedBy narrowPolicy := ⟨rfl, rfl⟩
  obtain ⟨-, ⟨needed, needs, -, -, refused⟩, -⟩ := fixColumns_fewest accepted sized
  have six : narrowPolicy.Needs crowded.first.size 6 := by
    refine ⟨⟨by decide, by decide⟩, ?_⟩
    rintro columns ⟨-, hold⟩
    change 81 ≤ columns * 14 at hold
    omega
  obtain rfl := needs.unique six
  exact ⟨accepted, sized, refused (by decide)⟩

end Builder

end Plonkish
