import Plonkish.Proofs.Gadget.ArgumentSoundness
import Plonkish.Proofs.Gadget.Evaluation
import Plonkish.Proofs.Gadget.LookupCompletion

namespace Plonkish

/-!
# Values of lookup arguments

The four values of a lookup argument as formulas of the values that it takes.
The inputs of lookup constraints and the options of tables are cut into
consecutive slots. Each slot is compressed with powers of a challenge, and gives
one factor of a product.
-/

/-- A value, plus the sum of values times powers of a challenge from its first power on. -/
def compressed
    {field : PrimeField}
    (theta base : Element field)
    (items : List (Element field)) :
    Element field :=
  base + (items.mapIdx fun position item => theta ^ (position + 1) * item).sum

/-- What is compressed together: a selector, what comes first, and how many values follow. -/
structure LookupSlot (field : PrimeField) where
  selector : Element field
  base : Element field
  width : Nat
  deriving DecidableEq

namespace LookupSlot

variable {field : PrimeField}

/-- The values of slots that take consecutive parts of a list, each times its selector. -/
def valuesOf (theta : Element field) :
    List (LookupSlot field) → List (Element field) → List (Element field)
  | [], _ => []
  | slot :: slots, items =>
      slot.selector * compressed theta slot.base (items.take slot.width)
        :: valuesOf theta slots (items.drop slot.width)

/-- A slot takes its own items, and leaves the later ones to the later slots. -/
theorem valuesOf_cons_append
    {theta selector base : Element field}
    {slots : List (LookupSlot field)}
    {items later : List (Element field)}
    {width : Nat}
    (counted : items.length = width) :
    valuesOf theta (⟨selector, base, width⟩ :: slots) (items ++ later) =
      selector * compressed theta base items :: valuesOf theta slots later := by
  rw [valuesOf, List.take_left' counted, List.drop_left' counted]

/-- A slot for each constraint, with the selector of its gate and the identifier of its table. -/
def ofConstraints
    (selectors tableIds : List (Element field))
    (widths : List UInt64) :
    List (LookupSlot field) :=
  (selectors.zip (tableIds.zip widths)).map fun (selector, base, width) =>
    { selector, base, width := width.toNat }

/-- Every slot has a value. -/
theorem length_valuesOf
    (theta : Element field)
    (slots : List (LookupSlot field))
    (items : List (Element field)) :
    (valuesOf theta slots items).length = slots.length := by
  induction slots generalizing items with
  | nil => rfl
  | cons slot slots inductionHypothesis =>
      rw [valuesOf, List.length_cons, inductionHypothesis, List.length_cons]

theorem ofConstraints_cons
    (selector tableId : Element field)
    (selectors tableIds : List (Element field))
    (width : UInt64)
    (widths : List UInt64) :
    ofConstraints (selector :: selectors) (tableId :: tableIds) (width :: widths) =
      ⟨selector, tableId, width.toNat⟩ :: ofConstraints selectors tableIds widths :=
  rfl

/-- A slot for each option of each table, where tables are numbered from a number on. -/
def ofTables
    (number : Nat)
    (selectors : List (Element field))
    (tables : List (UInt64 × UInt64)) :
    List (LookupSlot field) :=
  ((selectors.zipIdx number).zip tables).flatMap fun ((selector, number), options, columns) =>
    List.replicate options.toNat
      { selector, base := (number : Element field), width := columns.toNat }

theorem ofTables_cons
    (number : Nat)
    (selector : Element field)
    (selectors : List (Element field))
    (options columns : UInt64)
    (tables : List (UInt64 × UInt64)) :
    ofTables number (selector :: selectors) ((options, columns) :: tables) =
      List.replicate options.toNat ⟨selector, (number : Element field), columns.toNat⟩
        ++ ofTables (number + 1) selectors tables := by
  rw [ofTables, List.zipIdx_cons, List.zip_cons_cons, List.flatMap_cons]
  rfl

/-- Every option of every table has a slot. -/
theorem length_ofTables
    {number : Nat}
    {selectors : List (Element field)}
    {tables : List (UInt64 × UInt64)}
    (counted : selectors.length = tables.length) :
    (ofTables number selectors tables).length = (tables.map fun table => table.1.toNat).sum := by
  induction tables generalizing number selectors with
  | nil => simp [ofTables]
  | cons table tables inductionHypothesis =>
      obtain ⟨selector, selectors, rfl⟩ := List.exists_cons_of_length_eq_add_one counted
      rw [ofTables_cons, List.length_append, List.length_replicate,
        inductionHypothesis (Nat.succ.inj counted), List.map_cons, List.sum_cons]

end LookupSlot

/-- The values of a lookup argument, where each sorted value is paired with its shifted value. -/
structure LookupValues (field : PrimeField) where
  theta : Element field
  beta : Element field
  gamma : Element field
  alphas : List (Element field)
  accumulator : Element field
  nextAccumulator : Element field
  lastRow : Element field
  blindRows : Element field
  firstRow : Element field
  gateSelectors : List (Element field)
  tableIds : List (Element field)
  lookupInputs : List (Element field)
  tableSelectors : List (Element field)
  options : List (Element field)
  shiftedTableSelectors : List (Element field)
  shiftedOptions : List (Element field)
  sorted : List (Element field × Element field)

/-- Each item at an even position with the one after it. -/
def pairUp : List α → List (α × α)
  | first :: second :: rest => (first, second) :: pairUp rest
  | _ => []

/-- The values that the cells of a lookup argument hold. -/
def LookupCells.readBy
    {field : PrimeField}
    (read : Valuation field)
    (input : LookupCells field) :
    LookupValues field where
  theta := read input.theta
  beta := read input.beta
  gamma := read input.gamma
  alphas := input.alphas.map read
  accumulator := read input.accumulator.current
  nextAccumulator := read input.accumulator.next
  lastRow := read input.lastRow.current
  blindRows := read input.blindRows.current
  firstRow := read input.firstRow
  gateSelectors := input.gateSelectors.map read
  tableIds := input.tableIds.map read
  lookupInputs := input.lookupInputs.map read
  tableSelectors := input.tableSelectors.map read
  options := input.options.map read
  shiftedTableSelectors := input.shiftedTableSelectors.map read
  shiftedOptions := input.shiftedOptions.map read
  sorted := pairUp (input.sorted.map read)

/-- The values depend on what the cells of the argument hold only. -/
theorem LookupCells.readBy_congr
    {field : PrimeField}
    {read other : Valuation field}
    {input : LookupCells field}
    (same : ∀ cell ∈ input.all, read cell = other cell) :
    input.readBy read = input.readBy other := by
  simp only [all, List.forall_mem_append, List.forall_mem_cons] at same
  obtain ⟨⟨theta, beta, gamma, firstRow, current, next, lastRow, -, blindRows, -⟩,
    ⟨⟨⟨⟨⟨⟨⟨alphas, gateSelectors⟩, tableIds⟩, lookupInputs⟩, tableSelectors⟩, options⟩,
      shiftedTableSelectors⟩, shiftedOptions⟩, sorted⟩ := same
  simp only [readBy, theta, beta, gamma, firstRow, current, next, lastRow, blindRows,
    List.map_congr_left alphas, List.map_congr_left gateSelectors, List.map_congr_left tableIds,
    List.map_congr_left lookupInputs, List.map_congr_left tableSelectors,
    List.map_congr_left options, List.map_congr_left shiftedTableSelectors,
    List.map_congr_left shiftedOptions, List.map_congr_left sorted]

namespace LookupValues

variable {field : PrimeField} (values : LookupValues field) (sizes : LookupSizes)

/-- The compressed inputs of all lookup constraints. -/
def constraints : List (Element field) :=
  LookupSlot.valuesOf values.theta
    (LookupSlot.ofConstraints
      ((values.gateSelectors.zip sizes.gateConstraints).flatMap
        fun (selector, count) => List.replicate count.toNat selector)
      values.tableIds sizes.constraintInputs)
    values.lookupInputs

/-- The compressed options of all tables, of which the first has number one. -/
def tables : List (Element field) :=
  LookupSlot.valuesOf values.theta
    (LookupSlot.ofTables 1 values.tableSelectors (sizes.tableOptions.zip sizes.tableColumns))
    values.options

/-- The compressed options of all tables at the next row. -/
def shiftedTables : List (Element field) :=
  LookupSlot.valuesOf values.theta
    (LookupSlot.ofTables 1 values.shiftedTableSelectors
      (sizes.tableOptions.zip sizes.tableColumns))
    values.shiftedOptions

/-- The factor of one lookup constraint. -/
def constraintFactor (value : Element field) : Element field :=
  (1 + values.beta) * (values.gamma + value)

/-- The factor of a value and its shifted value. -/
def pairFactor (pair : Element field × Element field) : Element field :=
  values.gamma * (1 + values.beta) + pair.1 + values.beta * pair.2

/-- The product of the factors of values and of their shifted values. -/
def pairProduct (current shifted : List (Element field)) : Element field :=
  ((current.zip shifted).map values.pairFactor).prod

theorem pairProduct_cons
    (value shiftedValue : Element field)
    (current shifted : List (Element field)) :
    values.pairProduct (value :: current) (shiftedValue :: shifted) =
      values.pairFactor (value, shiftedValue) * values.pairProduct current shifted := by
  rw [pairProduct, List.zip_cons_cons, List.map_cons, List.prod_cons]
  rfl

/-- The product over all lookup constraints and all table options. -/
def numerator : Element field :=
  ((values.constraints sizes).map values.constraintFactor).prod
    * values.pairProduct (values.tables sizes) (values.shiftedTables sizes)

/-- The product over all sorted values. -/
def denominator : Element field :=
  (values.sorted.map values.pairFactor).prod

/-- What vanishes on the first row if the accumulator is one there. -/
def first : Element field :=
  values.firstRow * (1 - values.accumulator)

/-- What vanishes on the last row if the accumulator is zero or one there. -/
def last : Element field :=
  values.lastRow * (values.accumulator ^ 2 - values.accumulator)

/-- What vanishes on an active row if the accumulator changes by the quotient of the products. -/
def step : Element field :=
  (1 - (values.lastRow + values.blindRows))
    * (values.nextAccumulator * values.denominator
      - values.accumulator * values.numerator sizes)

/-- The differences between each sorted value but the first and the shifted value before it. -/
def differences : List (Element field × Element field) → List (Element field)
  | earlier :: later :: rest => (later.1 - earlier.2) :: differences (later :: rest)
  | _ => []

/-- What vanishes on the first row if the sorted values are linked. -/
def links : Element field :=
  values.firstRow * (List.zipWith (· * ·) values.alphas (differences values.sorted)).sum

/-- The four values in order. -/
def results : List (Element field) :=
  [values.first, values.last, values.step sizes, values.links]

end LookupValues

namespace Gadget

variable {field : PrimeField} {read : Valuation field}

theorem powersFromOne_computes (challenge : Cell field) (count : Nat) :
    Assembly.Computes read (powersFromOne challenge count) (fun powers =>
      powers.map read =
        (List.range count).map fun position => read challenge ^ (position + 1)) := by
  unfold powersFromOne
  split
  next => exact Assembly.Computes.crash
  next =>
    cases count with
    | zero => exact Assembly.Computes.pure rfl
    | succ further =>
        refine (Assembly.Computes.lift (geometric_computes challenge challenge further)).imp ?_
        intro powers arePowers
        simp only [arePowers, pow_succ']

/-- Compressed values are a value and the sum of the products with the powers, if these suffice. -/
theorem compress_computes (base : Cell field) (powers items : List (Cell field)) :
    Synthesis.Computes read (compress base powers items) (fun result =>
      ∀ theta count,
        powers.map read = (List.range count).map (fun position => theta ^ (position + 1)) →
        items.length ≤ count →
          read result = compressed theta (read base) (items.map read)) := by
  refine (Synthesis.innerProduct_computes ?_).imp ?_
  · rw [List.map_cons, List.zip_cons_cons]
    exact List.forall_mem_cons.mpr
      ⟨⟨Source.fixed_existing, Source.fixed_constant⟩, fixed_of_mem_zip items powers⟩
  · intro result isResult theta count arePowers enough
    have products : List.zipWith (· * ·) (items.map read) (powers.map read) =
        (items.map read).mapIdx fun position item => theta ^ (position + 1) * item := by
      rw [arePowers, zipWith_mul_map_range (by rwa [List.length_map])]
    rw [isResult, List.map_cons, List.zip_cons_cons, compressed, ← products, ← productSumBy_zip]
    simp [Synthesis.productSumBy]

/-- The cells of the challenges hold what is derived from values, with so many powers. -/
structure LookupChallenges.Hold
    (challenges : LookupChallenges field)
    (read : Valuation field)
    (values : LookupValues field)
    (count : Nat) :
    Prop where
  beta : read challenges.beta = values.beta
  gamma : read challenges.gamma = values.gamma
  powers : challenges.powers.map read =
    (List.range count).map fun position => values.theta ^ (position + 1)
  onePlusBeta : read challenges.onePlusBeta = 1 + values.beta
  gammaBeta : read challenges.gammaBeta = values.gamma * (1 + values.beta)

theorem deriveChallenges_computes
    (input : LookupCells field)
    (one : Cell field)
    (powers : List (Cell field))
    (count : Nat) :
    Synthesis.Computes read (deriveChallenges input one powers) (fun challenges =>
      powers.map read =
          ((List.range count).map fun position => read input.theta ^ (position + 1)) →
        read one = 1 → challenges.Hold read (input.readBy read) count) := by
  refine (Synthesis.add_computes (by simp) (by simp)).bind fun onePlusBeta => ?_
  refine (Synthesis.mul_computes (by simp) (by simp)).bind fun gammaBeta => ?_
  refine Synthesis.Computes.pure fun isGammaBeta isOnePlusBeta arePowers isOne => ?_
  simp only [Source.readBy_existing] at isGammaBeta isOnePlusBeta
  rw [isOne, add_comm] at isOnePlusBeta
  rw [isOnePlusBeta] at isGammaBeta
  exact ⟨rfl, rfl, arePowers, isOnePlusBeta, isGammaBeta⟩

section Products

variable (values : LookupValues field) (count : Nat) {challenges : LookupChallenges field}

theorem multiplyConstraint_computes
    (product selector tableId : Cell field)
    (items : List (Cell field)) :
    Synthesis.Computes read (multiplyConstraint challenges product selector tableId items)
      (fun result => challenges.Hold read values count → items.length ≤ count →
        read result = read product * values.constraintFactor
          (read selector * compressed values.theta (read tableId) (items.map read))) := by
  refine (compress_computes tableId challenges.powers items).bind fun base => ?_
  refine (Synthesis.mul_computes (by simp) (by simp)).bind fun selected => ?_
  refine (Synthesis.add_computes (by simp) (by simp)).bind fun shifted => ?_
  refine (Synthesis.mul_computes (by simp) (by simp)).bind fun factor => ?_
  refine (Synthesis.mul_computes (by simp) (by simp)).imp ?_
  intro result isResult isFactor isShifted isSelected isCompressed hold enough
  simp only [Source.readBy_existing] at isResult isFactor isShifted isSelected
  rw [isResult, isFactor, isShifted, isSelected, isCompressed _ _ hold.powers enough,
    hold.onePlusBeta, hold.gamma]
  rfl

/-- Every lookup constraint multiplies the product by its factor. -/
theorem multiplyConstraints_computes
    (product : Cell field)
    (selectors : List (Cell field))
    (widths : List UInt64)
    (tableIds inputs : List (Cell field)) :
    Assembly.Computes read
      (multiplyConstraints challenges product selectors widths tableIds inputs)
      (fun result => challenges.Hold read values count → (∀ width ∈ widths, width.toNat ≤ count) →
        read result = read product * ((LookupSlot.valuesOf values.theta
          (LookupSlot.ofConstraints (selectors.map read) (tableIds.map read) widths)
          (inputs.map read)).map values.constraintFactor).prod) := by
  induction selectors generalizing product widths tableIds inputs with
  | nil => exact Assembly.Computes.pure fun _ _ => (mul_one _).symm
  | cons selector selectors inductionHypothesis =>
      cases widths with
      | nil => exact Assembly.Computes.crash
      | cons width widths =>
      cases tableIds with
      | nil => exact Assembly.Computes.crash
      | cons tableId tableIds =>
      refine Assembly.split_computes.bind fun (items, later) => ?_
      refine (Assembly.Computes.lift (multiplyConstraint_computes values count product selector
        tableId items)).bind fun next => ?_
      refine (inductionHypothesis next widths tableIds later).imp ?_
      rintro result isResult isNext ⟨rfl, counted⟩ hold narrow
      obtain ⟨narrowWidth, narrowWidths⟩ := List.forall_mem_cons.mp narrow
      have own : (items.map read).length = width.toNat := by rw [List.length_map, counted]
      rw [isResult hold narrowWidths, isNext hold (counted.trans_le narrowWidth), List.map_append,
        List.map_cons, List.map_cons, LookupSlot.ofConstraints_cons,
        LookupSlot.valuesOf_cons_append own, List.map_cons, List.prod_cons, mul_assoc]

/-- A pair of values multiplies the product by its factor. -/
theorem multiplyPair_computes (product value shifted : Cell field) :
    Synthesis.Computes read (multiplyPair challenges product value shifted) (fun result =>
      challenges.Hold read values count →
        read result = read product * values.pairFactor (read value, read shifted)) := by
  refine (Synthesis.add_computes (by simp) (by simp)).bind fun sum => ?_
  refine (Synthesis.mulAdd_computes (by simp) (by simp) (by simp)).bind fun factor => ?_
  refine (Synthesis.mul_computes (by simp) (by simp)).imp ?_
  intro result isResult isFactor isSum hold
  simp only [Source.readBy_existing] at isResult isFactor isSum
  rw [isResult, isFactor, isSum, hold.beta, hold.gammaBeta, add_comm (values.beta * _)]
  rfl

theorem multiplyOption_computes
    (table : LookupTable field)
    (product : Cell field)
    (option shiftedOption : List (Cell field)) :
    Synthesis.Computes read (multiplyOption challenges table product option shiftedOption)
      (fun result => challenges.Hold read values count →
        option.length ≤ count → shiftedOption.length ≤ count →
          read result = read product * values.pairFactor
            (read table.selector
                * compressed values.theta (read table.id) (option.map read),
              read table.shiftedSelector
                * compressed values.theta (read table.id) (shiftedOption.map read))) := by
  refine (compress_computes table.id challenges.powers option).bind fun row => ?_
  refine (compress_computes table.id challenges.powers shiftedOption).bind fun shiftedRow => ?_
  refine (Synthesis.mul_computes (by simp) (by simp)).bind fun value => ?_
  refine (Synthesis.mul_computes (by simp) (by simp)).bind fun shifted => ?_
  refine (multiplyPair_computes values count product value shifted).imp ?_
  intro result isResult isShifted isValue isShiftedRow isRow hold enough enoughShifted
  simp only [Source.readBy_existing] at isShifted isValue
  rw [isResult hold, isShifted, isValue, isRow _ _ hold.powers enough,
    isShiftedRow _ _ hold.powers enoughShifted]

/--
The options of a table multiply the product by their factors.

This is the invariant of the loop: the product so far times the factors of all
slots that are left, those of later tables included, stays the same.
-/
theorem multiplyOptions_computes
    (table : LookupTable field)
    (product : Cell field)
    (number : Nat)
    (options shiftedOptions : List (Cell field)) :
    Assembly.Computes read
      (multiplyOptions challenges table product number options shiftedOptions)
      (fun result => challenges.Hold read values count → table.columns ≤ count →
        ∀ later laterShifted,
          read product * values.pairProduct
              (LookupSlot.valuesOf values.theta
                (List.replicate number ⟨read table.selector, read table.id, table.columns⟩
                  ++ later) (options.map read))
              (LookupSlot.valuesOf values.theta
                (List.replicate number ⟨read table.shiftedSelector, read table.id, table.columns⟩
                  ++ laterShifted) (shiftedOptions.map read)) =
            read result.1 * values.pairProduct
              (LookupSlot.valuesOf values.theta later (result.2.1.map read))
              (LookupSlot.valuesOf values.theta laterShifted (result.2.2.map read))) := by
  induction number generalizing product options shiftedOptions with
  | zero => exact Assembly.Computes.pure fun _ _ _ _ => rfl
  | succ number inductionHypothesis =>
      refine Assembly.split_computes.bind fun (option, laterOptions) => ?_
      refine Assembly.split_computes.bind fun (shiftedOption, laterShiftedOptions) => ?_
      refine (Assembly.Computes.lift (multiplyOption_computes values count table product option
        shiftedOption)).bind fun next => ?_
      refine (inductionHypothesis next laterOptions laterShiftedOptions).imp ?_
      rintro result areLater isNext ⟨rfl, countedShifted⟩ ⟨rfl, counted⟩ hold narrow later
        laterShifted
      have own : (option.map read).length = table.columns := by rw [List.length_map, counted]
      have ownShifted : (shiftedOption.map read).length = table.columns := by
        rw [List.length_map, countedShifted]
      rw [← areLater hold narrow later laterShifted,
        isNext hold (counted.trans_le narrow) (countedShifted.trans_le narrow),
        List.replicate_succ, List.replicate_succ, List.cons_append, List.cons_append,
        List.map_append, List.map_append, LookupSlot.valuesOf_cons_append own,
        LookupSlot.valuesOf_cons_append ownShifted, LookupValues.pairProduct_cons, mul_assoc]

/-- The options of all tables multiply the product by their factors. -/
theorem multiplyTables_computes
    (product : Cell field)
    (number : Nat)
    (tables : List (UInt64 × UInt64))
    (selectors shiftedSelectors options shiftedOptions : List (Cell field)) :
    Assembly.Computes read
      (multiplyTables challenges product number tables selectors shiftedSelectors options
        shiftedOptions)
      (fun result => challenges.Hold read values count →
        (∀ table ∈ tables, table.2.toNat ≤ count) →
          read result = read product * values.pairProduct
            (LookupSlot.valuesOf values.theta
              (LookupSlot.ofTables (number + 1) (selectors.map read) tables) (options.map read))
            (LookupSlot.valuesOf values.theta
              (LookupSlot.ofTables (number + 1) (shiftedSelectors.map read) tables)
              (shiftedOptions.map read))) := by
  induction tables generalizing product number selectors shiftedSelectors options
    shiftedOptions with
  | nil =>
      refine Assembly.Computes.pure fun _ _ => ?_
      simp [LookupSlot.ofTables, LookupSlot.valuesOf, LookupValues.pairProduct]
  | cons table tables inductionHypothesis =>
      obtain ⟨size, columns⟩ := table
      cases selectors with
      | nil => exact Assembly.Computes.crash
      | cons selector selectors =>
      cases shiftedSelectors with
      | nil => exact Assembly.Computes.crash
      | cons shiftedSelector shiftedSelectors =>
      refine (Assembly.Computes.lift (Synthesis.constant_computes _)).bind fun id => ?_
      refine (multiplyOptions_computes values count
        { columns := columns.toNat, id, selector, shiftedSelector } product size.toNat options
        shiftedOptions).bind fun rest => ?_
      refine (inductionHypothesis rest.1 (number + 1) selectors shiftedSelectors rest.2.1
        rest.2.2).imp ?_
      intro result isResult isRest isId hold narrow
      obtain ⟨narrowTable, narrowTables⟩ := List.forall_mem_cons.mp narrow
      rw [isResult hold narrowTables, ← isRest hold narrowTable, List.map_cons, List.map_cons,
        LookupSlot.ofTables_cons, LookupSlot.ofTables_cons, isId, Element.ofNat_eq_natCast]

/-- The sorted values multiply the product by their factors. -/
theorem multiplySorted_computes (product : Cell field) (sorted : List (Cell field)) :
    Synthesis.Computes read (multiplySorted challenges product sorted) (fun result =>
      challenges.Hold read values count →
        read result = read product * ((pairUp (sorted.map read)).map values.pairFactor).prod) := by
  induction sorted using List.twoStepInduction generalizing product with
  | nil => exact Synthesis.Computes.pure fun _ => (mul_one _).symm
  | singleton value => exact Synthesis.Computes.pure fun _ => (mul_one _).symm
  | cons_cons value shifted rest inductionHypothesis =>
      refine (multiplyPair_computes values count product value shifted).bind fun next => ?_
      refine (inductionHypothesis next).imp fun result isResult isNext hold => ?_
      rw [isResult hold, isNext hold, List.map_cons, List.map_cons, pairUp, List.map_cons,
        List.prod_cons, mul_assoc]

end Products

/-- The cells of an even number of sorted values have their differences. -/
theorem linkDifferences_computes
    (sorted : List (Cell field))
    (even : sorted.length % 2 = 0) :
    Synthesis.Computes read (linkDifferences sorted) (fun result =>
      result.map read = LookupValues.differences (pairUp (sorted.map read))) := by
  induction sorted using List.twoStepInduction with
  | nil => exact Synthesis.Computes.pure rfl
  | singleton value => simp at even
  | cons_cons earlier shifted rest inductionHypothesis =>
      cases rest with
      | nil => exact Synthesis.Computes.pure rfl
      | cons value rest =>
      cases rest with
      | nil => simp at even
      | cons later rest =>
      have evenRest : (value :: later :: rest).length % 2 = 0 := by
        simp only [List.length_cons] at even ⊢
        omega
      refine (Synthesis.sub_computes (by simp) (by simp)).bind fun difference => ?_
      refine (inductionHypothesis evenRest).bind fun differences => ?_
      refine Synthesis.Computes.pure fun areDifferences isDifference => ?_
      rw [List.map_cons, areDifferences, isDifference]
      rfl

/-- The four values follow from the products over lookups and over sorted values. -/
theorem lookupResult_computes
    (sizes : LookupSizes)
    (input : LookupCells field)
    (one numerator denominator : Cell field)
    (even : input.sorted.length % 2 = 0) :
    Synthesis.Computes read (lookupResult input one numerator denominator) (fun result =>
      read one = 1 →
        read numerator = (input.readBy read).numerator sizes →
        read denominator = (input.readBy read).denominator →
          result.toList.map read = (input.readBy read).results sizes) := by
  refine (Synthesis.sub_computes (by simp) (by simp)).bind fun notOne => ?_
  refine (Synthesis.mul_computes (by simp) (by simp)).bind fun first => ?_
  refine (Synthesis.mul_computes (by simp) (by simp)).bind fun square => ?_
  refine (Synthesis.sub_computes (by simp) (by simp)).bind fun notBit => ?_
  refine (Synthesis.mul_computes (by simp) (by simp)).bind fun last => ?_
  refine (Synthesis.add_computes (by simp) (by simp)).bind fun inactive => ?_
  refine (Synthesis.sub_computes (by simp) (by simp)).bind fun active => ?_
  refine (Synthesis.mul_computes (by simp) (by simp)).bind fun next => ?_
  refine (Synthesis.mul_computes (by simp) (by simp)).bind fun current => ?_
  refine (Synthesis.sub_computes (by simp) (by simp)).bind fun change => ?_
  refine (Synthesis.mul_computes (by simp) (by simp)).bind fun step => ?_
  refine (linkDifferences_computes input.sorted even).bind fun differences => ?_
  refine (innerProductOfCells_computes input.alphas differences).bind fun linked => ?_
  refine (Synthesis.mul_computes (by simp) (by simp)).bind fun links => ?_
  refine Synthesis.Computes.pure ?_
  intro isLinks isLinked areDifferences isStep isChange isCurrent isNext isActive isInactive
    isLast isNotBit isSquare isFirst isNotOne isOne isNumerator isDenominator
  simp only [Source.readBy_existing] at *
  rw [isNotOne, isOne] at isFirst
  rw [isNotBit, isSquare, ← pow_two] at isLast
  rw [isActive, isChange, isNext, isCurrent, isInactive, isOne, isNumerator, isDenominator]
    at isStep
  rw [isLinked, areDifferences] at isLinks
  change [read first, read last, read step, read links] = _
  rw [isFirst, isLast, isStep, isLinks]
  rfl

/-- The selectors of all lookup constraints are those of their gates, whatever they hold. -/
theorem map_constraintSelectors (sizes : LookupSizes) (selectors : List (Cell field)) :
    (constraintSelectors sizes selectors).map read =
      ((selectors.map read).zip sizes.gateConstraints).flatMap
        fun (selector, count) => List.replicate count.toNat selector := by
  rw [constraintSelectors, List.map_flatMap, List.zip_map_left, List.flatMap_map]
  simp only [List.map_replicate, Prod.map, id_eq]

/-- Every lookup constraint has a compressed value. -/
theorem length_constraints
    {shape : LookupShape}
    (exact : shape.Exact)
    {input : LookupCells field}
    (fits : input.Fits shape) :
    ((input.readBy read).constraints shape.sizes).length = shape.constraints := by
  have eachSelector : ((constraintSelectors shape.sizes input.gateSelectors).map read).length =
      shape.constraints := by
    rw [List.length_map, length_constraintSelectors fits.gateSelectors, exact.constraints]
  rw [map_constraintSelectors] at eachSelector
  rw [LookupValues.constraints, LookupSlot.length_valuesOf, LookupSlot.ofConstraints,
    List.length_map, List.length_zip, List.length_zip, exact.widths]
  change min (List.length (((input.gateSelectors.map read).zip _).flatMap _))
    (min (input.tableIds.map read).length _) = _
  rw [eachSelector, List.length_map, fits.tableIds, Nat.min_self, Nat.min_self]

/-- Every option of a table has a compressed value. -/
theorem length_tables
    {shape : LookupShape}
    (exact : shape.Exact)
    {input : LookupCells field}
    (fits : input.Fits shape) :
    ((input.readBy read).tables shape.sizes).length =
      (shape.sizes.tableOptions.map UInt64.toNat).sum := by
  have counted : (input.tableSelectors.map read).length =
      (shape.sizes.tableOptions.zip shape.sizes.tableColumns).length := by
    rw [List.length_map, fits.tableSelectors, List.length_zip, exact.tables, Nat.min_self]
  have sizes : (shape.sizes.tableOptions.zip shape.sizes.tableColumns).map Prod.fst =
      shape.sizes.tableOptions :=
    List.map_fst_zip exact.tables.ge
  rw [LookupValues.tables, LookupSlot.length_valuesOf]
  refine (LookupSlot.length_ofTables counted).trans ?_
  conv_rhs => rw [← sizes, List.map_map]
  rfl

theorem checkLookup_computes (shape : LookupShape) (input : LookupCells field) :
    Assembly.Computes read (checkLookup shape input) (fun _ => True) where
  extended transcript := by
    have checks : Checks (input.Fits shape) (checkLookup shape input) transcript :=
      checkLookup_checks shape input
    rcases checks with ⟨failure, refused⟩ | ⟨-, passes⟩
    · rw [refused]
      exact .refl transcript
    · rw [passes]
      exact .refl transcript
  holds transcript _ := by
    split
    · trivial
    · trivial

/-- The four values of a lookup argument that fits its shape are those of its formulas. -/
theorem lookupArgument_computes
    {shape : LookupShape}
    {input : LookupCells field}
    (fits : input.Fits shape) :
    Assembly.Computes read (lookupArgument shape input) (fun result =>
      result.toList.map read = (input.readBy read).results shape.sizes) := by
  have even : input.sorted.length % 2 = 0 := by
    rw [fits.sorted]
    exact Nat.mul_mod_right 2 _
  refine (checkLookup_computes shape input).bind fun _ => ?_
  refine (Assembly.Computes.lift (Synthesis.constant_computes 1)).bind fun one => ?_
  refine (powersFromOne_computes input.theta shape.sizes.widest).bind fun powers => ?_
  refine (Assembly.Computes.lift (deriveChallenges_computes input one powers
    shape.sizes.widest)).bind fun challenges => ?_
  refine (multiplyConstraints_computes (input.readBy read) shape.sizes.widest one _ _ _ _).bind
    fun lookedUp => ?_
  refine (multiplyTables_computes (input.readBy read) shape.sizes.widest lookedUp 0 _ _ _ _
    _).bind fun numerator => ?_
  refine (Assembly.Computes.lift (multiplySorted_computes (input.readBy read)
    shape.sizes.widest one input.sorted)).bind fun denominator => ?_
  refine (Assembly.Computes.lift (lookupResult_computes shape.sizes input one numerator
    denominator even)).imp ?_
  intro result isResult isDenominator isNumerator isLookedUp areChallenges arePowers isOne _
  have hold := areChallenges arePowers isOne
  have narrowInputs : ∀ width ∈ shape.sizes.constraintInputs,
      width.toNat ≤ shape.sizes.widest :=
    fun width member => (Sizes.le_largest member).trans (Nat.le_max_left _ _)
  have narrowTables : ∀ table ∈ shape.sizes.tableOptions.zip shape.sizes.tableColumns,
      table.2.toNat ≤ shape.sizes.widest :=
    fun table member =>
      (Sizes.le_largest (List.of_mem_zip member).2).trans (Nat.le_max_right _ _)
  refine isResult isOne ?_ ?_
  · rw [isNumerator hold narrowTables, isLookedUp hold narrowInputs, isOne, one_mul,
      map_constraintSelectors]
    rfl
  · rw [isDenominator hold, isOne, one_mul]
    rfl

/--
A lookup argument of a shape that is made has its four values, if its cells pass
the check and its powers can be held. Whatever satisfies the constraints that it
laid out gives the four values by their formulas.
-/
theorem lookupArgument_values
    {gates tables : Nat}
    {sizes : LookupSizes}
    {shape : LookupShape}
    (made : LookupShape.make gates tables sizes = .ok shape)
    {input : LookupCells field}
    {transcript : Transcript field}
    (accepted : (checkLookup shape input).run transcript = (.ok (), transcript))
    (holdable : sizes.widest ≤ largestReserve) :
    ∃ result after, (lookupArgument shape input).run transcript = (.ok result, after)
      ∧ ∀ read, Valuation.Faithful transcript after read →
          result.toList.map read = (input.readBy read).results sizes := by
  obtain ⟨rfl, exact⟩ := LookupShape.sizes_and_exact_of_make made
  have fits := fits_of_accepted accepted
  obtain ⟨result, after, gives, -⟩ := lookupArgument_completes exact fits accepted holdable
  exact ⟨result, after, gives, fun read faithful =>
    (lookupArgument_computes fits).of_ok gives faithful⟩

/-- The values that were worked out for a lookup argument satisfy its constraints. -/
theorem faithful_of_lookupArgument
    {shape : LookupShape}
    {input : LookupCells field}
    {transcript after : Transcript field}
    {result : LookupResult field}
    (gives : (lookupArgument shape input).run transcript = (.ok result, after))
    (consistent : transcript.Consistent)
    (recorded : ∀ cell ∈ input.all, transcript.Records cell) :
    Valuation.Faithful transcript after (.ofAssignment after.valueAt)
      ∧ input.readBy (.ofAssignment after.valueAt) = input.readBy Cell.value := by
  have sound := @lookupArgument_sound _ {cell | cell ∈ input.all} shape input
    fun cell member => member
  obtain ⟨satisfied, held⟩ := sound.satisfiedSince gives consistent recorded
  exact ⟨.assigned satisfied, LookupCells.readBy_congr held⟩

/--
Sizes that all differ: the second gate has no constraint, the second constraint
no input, and the first table no option.
-/
def unevenSizes : LookupSizes where
  gateConstraints := [1, 0, 2]
  constraintInputs := [2, 0, 1]
  tableOptions := [0, 2, 1]
  tableColumns := [3, 1, 2]

/-- The shape of these sizes. -/
def unevenShape : LookupShape where
  sizes := unevenSizes
  constraints := 3
  inputs := 3
  options := 4

/-- Values for the cells of a lookup: small numbers in order. -/
def numberValues : List (Element .bn254Scalar) :=
  (List.range 23).map (Element.ofNat .bn254Scalar)

/-- The cell that holds a number. -/
def numberCell (number : Nat) : Cell .bn254Scalar :=
  ⟨number, .ofNat .bn254Scalar number⟩

/-- Lookups of these sizes, where vectors of one length hold different numbers. -/
def unevenLookup : LookupCells .bn254Scalar where
  theta := numberCell 2
  beta := numberCell 3
  gamma := numberCell 4
  alphas := [5, 6, 7, 8, 9].map numberCell
  accumulator := ⟨numberCell 2, numberCell 3⟩
  lastRow := ⟨numberCell 5, numberCell 7⟩
  blindRows := ⟨numberCell 6, numberCell 8⟩
  firstRow := numberCell 4
  gateSelectors := [2, 11, 3].map numberCell
  tableIds := [2, 16, 4].map numberCell
  lookupInputs := [4, 1, 7].map numberCell
  tableSelectors := [5, 1, 3].map numberCell
  options := [6, 7, 1, 1].map numberCell
  shiftedTableSelectors := [7, 2, 1].map numberCell
  shiftedOptions := [7, 8, 2, 1].map numberCell
  sorted := [15, 16, 14, 17, 18, 13, 12, 19, 20, 11, 10, 21].map numberCell

/-- The values of lookups of uneven sizes, whose pairs are those of no lookup. -/
theorem lookupArgument_values_uneven :
    ∃ result after,
      (lookupArgument unevenShape unevenLookup).run (.ofValues numberValues) =
          (.ok result, after)
        ∧ Valuation.Faithful (.ofValues numberValues) after
            (.ofAssignment after.valueAt)
        ∧ result.toList.map (Valuation.ofAssignment after.valueAt) =
          [-4, 10, 158301446417550, -48] := by
  have made : LookupShape.make 3 3 unevenSizes = .ok unevenShape := by decide +kernel
  obtain ⟨result, after, gives, forced⟩ := lookupArgument_values made
    (rfl : (checkLookup unevenShape unevenLookup).run (.ofValues numberValues) = _)
    (by decide +kernel)
  obtain ⟨faithful, isInput⟩ := faithful_of_lookupArgument gives
    (Transcript.consistent_ofValues numberValues) (by decide +kernel)
  refine ⟨result, after, gives, faithful, ?_⟩
  rw [forced _ faithful, isInput]
  decide +kernel

end Gadget

end Plonkish
