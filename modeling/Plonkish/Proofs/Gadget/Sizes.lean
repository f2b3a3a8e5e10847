import Mathlib.Algebra.BigOperators.Group.List.Basic
import Mathlib.Algebra.Ring.Nat
import Plonkish.Gadget.LookupArgument

namespace Plonkish

/-!
# Exact sizes

A total is computed by additions that may overflow. It is there exactly if the
sum of the numbers is a size, and is that sum then, in whatever order they are
added. So the totals of a shape that is made are the true ones, and lists of
these lengths can be cut as the sizes say.
-/

namespace Sizes

/-- No size is larger than the largest. -/
theorem le_largest {sizes : List UInt64} {size : UInt64} (member : size ∈ sizes) :
    size.toNat ≤ largest sizes := by
  have bounds : ∀ start, start ≤ sizes.foldl (fun largest size => max largest size.toNat) start
      ∧ ∀ size ∈ sizes,
        size.toNat ≤ sizes.foldl (fun largest size => max largest size.toNat) start := by
    clear member
    induction sizes with
    | nil => exact fun start => ⟨Nat.le_refl start, fun size member => nomatch member⟩
    | cons head rest inductionHypothesis =>
        intro start
        obtain ⟨above, covers⟩ := inductionHypothesis (max start head.toNat)
        exact ⟨(Nat.le_max_left _ _).trans above,
          List.forall_mem_cons.mpr ⟨(Nat.le_max_right _ _).trans above, covers⟩⟩
  exact (bounds 0).2 size member

/-- A fold of checked additions has a result exactly if the sum of all numbers is a size. -/
theorem foldlM_eq_some_iff
    {step : Nat → α → Option Nat}
    {size : α → Nat}
    (exact : ∀ total item next,
      step total item = some next ↔ next = total + size item ∧ next < 1 <<< 64)
    (items : List α)
    {start total : Nat}
    (bounded : start < 1 <<< 64) :
    items.foldlM step start = some total ↔
      total = start + (items.map size).sum ∧ total < 1 <<< 64 := by
  induction items generalizing start with
  | nil =>
      simp only [List.foldlM_nil, List.map_nil, List.sum_nil, Nat.add_zero]
      constructor
      · rintro ⟨⟩
        exact ⟨rfl, bounded⟩
      · rintro ⟨rfl, -⟩
        rfl
  | cons item rest inductionHypothesis =>
      rw [List.foldlM_cons, List.map_cons, List.sum_cons, ← Nat.add_assoc]
      cases added : step start item with
      | none =>
          -- The first sum is no size, and further numbers only make it larger.
          have overflows : ¬ start + size item < 1 <<< 64 := fun fits => by
            have next := (exact start item _).mpr ⟨rfl, fits⟩
            rw [added] at next
            cases next
          constructor
          · rintro ⟨⟩
          · rintro ⟨rfl, fits⟩
            exact (overflows (by omega)).elim
      | some next =>
          obtain ⟨rfl, fits⟩ := (exact start item next).mp added
          exact inductionHypothesis fits

/-- Sizes have a total exactly if their sum is a size. -/
theorem total?_eq_some_iff {sizes : List UInt64} {total : Nat} :
    total? sizes = some total ↔ total = (sizes.map UInt64.toNat).sum ∧ total < 1 <<< 64 := by
  have step : ∀ (total : Nat) (size : UInt64) (next : Nat),
      sum? total size.toNat = some next ↔ next = total + size.toNat ∧ next < 1 <<< 64 :=
    fun _ _ _ => sum?_eq_some_iff
  have nothing : 0 < 1 <<< 64 := Nat.zero_lt_succ _
  rw [total?, foldlM_eq_some_iff step sizes nothing, Nat.zero_add]

/-- Pairs of sizes have a total exactly if the sum of their products is a size. -/
theorem totalProduct?_eq_some_iff {pairs : List (UInt64 × UInt64)} {total : Nat} :
    totalProduct? pairs = some total ↔
      total = (pairs.map fun pair => pair.1.toNat * pair.2.toNat).sum ∧ total < 1 <<< 64 := by
  have step : ∀ (total : Nat) (pair : UInt64 × UInt64) (next : Nat),
      (product? pair.1.toNat pair.2.toNat).bind (sum? total) = some next ↔
        next = total + pair.1.toNat * pair.2.toNat ∧ next < 1 <<< 64 := by
    intro total pair next
    simp only [Option.bind_eq_some_iff, product?_eq_some_iff, sum?_eq_some_iff]
    constructor
    · rintro ⟨_, ⟨rfl, -⟩, same, fits⟩
      exact ⟨same, fits⟩
    · rintro ⟨rfl, fits⟩
      exact ⟨_, ⟨rfl, by omega⟩, rfl, fits⟩
  have nothing : 0 < 1 <<< 64 := Nat.zero_lt_succ _
  have folded := @foldlM_eq_some_iff _ _ _ step pairs 0 total nothing
  rwa [Nat.zero_add] at folded

end Sizes

/-- A shape is made exactly if there is a gate, and if the sum of the sizes is a size. -/
theorem GateShape.make_eq_ok_iff {sizes : List UInt64} {shape : GateShape} :
    make sizes = .ok shape ↔
      sizes ≠ [] ∧ (sizes.map UInt64.toNat).sum < 1 <<< 64
        ∧ shape = ⟨sizes, (sizes.map UInt64.toNat).sum⟩ := by
  cases sizes with
  | nil => exact iff_of_false (fun made => nomatch made) fun ⟨nonempty, _⟩ => nonempty rfl
  | cons size sizes =>
      rw [make, if_neg (by simp)]
      cases summed : Sizes.total? (size :: sizes) with
      | none =>
          refine iff_of_false (fun made => nomatch made) fun ⟨_, fits, _⟩ => ?_
          rw [Sizes.total?_eq_some_iff.mpr ⟨rfl, fits⟩] at summed
          cases summed
      | some total =>
          obtain ⟨rfl, fits⟩ := Sizes.total?_eq_some_iff.mp summed
          constructor
          · rintro ⟨⟩
            exact ⟨List.cons_ne_nil _ _, fits, rfl⟩
          · rintro ⟨-, -, rfl⟩
            rfl

/-- The total of a shape that is made is the sum of its sizes, and is a size. -/
theorem GateShape.total_of_make
    {sizes : List UInt64}
    {shape : GateShape}
    (made : make sizes = .ok shape) :
    shape.total = (shape.sizes.map UInt64.toNat).sum ∧ shape.total < 1 <<< 64 := by
  obtain ⟨-, fits, rfl⟩ := make_eq_ok_iff.mp made
  exact ⟨rfl, fits⟩

namespace LookupShape

/-- The totals of a shape are those of its sizes, and its lists of sizes fit together. -/
structure Exact (shape : LookupShape) : Prop where
  constraints : shape.constraints = (shape.sizes.gateConstraints.map UInt64.toNat).sum
  inputs : shape.inputs = (shape.sizes.constraintInputs.map UInt64.toNat).sum
  options : shape.options = ((shape.sizes.tableOptions.zip shape.sizes.tableColumns).map
    fun pair => pair.1.toNat * pair.2.toNat).sum
  /-- No total is too large for a size. -/
  bounded : shape.constraints < 1 <<< 64 ∧ shape.inputs < 1 <<< 64 ∧ shape.options < 1 <<< 64
  /-- There is a number of inputs for each constraint. -/
  widths : shape.sizes.constraintInputs.length = shape.constraints
  /-- There is a number of columns for each table. -/
  tables : shape.sizes.tableColumns.length = shape.sizes.tableOptions.length

section Made

variable {gates tables : Nat} {sizes : LookupSizes} {shape : LookupShape}

/-- A shape is made exactly if it is exact, with as many gates and tables as declared. -/
theorem make_eq_ok_iff :
    make gates tables sizes = .ok shape ↔
      (sizes.gateConstraints.length = gates ∧ sizes.tableOptions.length = tables)
        ∧ shape.sizes = sizes ∧ shape.Exact := by
  constructor
  · intro made
    unfold make at made
    split at made
    · cases made
    next sameGates =>
    split at made
    · cases made
    next sameTables =>
    split at made
    next constraints inputs options summedConstraints summedInputs summedOptions =>
      split at made
      · cases made
      next sameWidths =>
        cases made
        obtain ⟨exactConstraints, fewConstraints⟩ := Sizes.total?_eq_some_iff.mp summedConstraints
        obtain ⟨exactInputs, fewInputs⟩ := Sizes.total?_eq_some_iff.mp summedInputs
        obtain ⟨exactOptions, fewOptions⟩ := Sizes.totalProduct?_eq_some_iff.mp summedOptions
        exact ⟨by omega, rfl, {
          constraints := exactConstraints
          inputs := exactInputs
          options := exactOptions
          bounded := ⟨fewConstraints, fewInputs, fewOptions⟩
          widths := not_not.mp sameWidths
          tables := by dsimp only; omega
        }⟩
    next => cases made
  · rintro ⟨⟨rfl, rfl⟩, rfl, exact⟩
    obtain ⟨fewConstraints, fewInputs, fewOptions⟩ := exact.bounded
    have summedConstraints : shape.sizes.constraints? = some shape.constraints :=
      Sizes.total?_eq_some_iff.mpr ⟨exact.constraints, fewConstraints⟩
    have summedInputs : shape.sizes.inputs? = some shape.inputs :=
      Sizes.total?_eq_some_iff.mpr ⟨exact.inputs, fewInputs⟩
    have summedOptions : shape.sizes.options? = some shape.options :=
      Sizes.totalProduct?_eq_some_iff.mpr ⟨exact.options, fewOptions⟩
    rw [make, if_neg (not_not.mpr rfl), if_neg (by simp [exact.tables]), summedConstraints,
      summedInputs, summedOptions]
    exact if_neg (not_not.mpr exact.widths)

/-- A shape that is made has the sizes that it is made from, and is exact. -/
theorem sizes_and_exact_of_make (made : make gates tables sizes = .ok shape) :
    shape.sizes = sizes ∧ shape.Exact :=
  (make_eq_ok_iff.mp made).2

/-- A shape that is made is exact. -/
theorem exact_of_make (made : make gates tables sizes = .ok shape) : shape.Exact :=
  (sizes_and_exact_of_make made).2

end Made

end LookupShape

end Plonkish
