import Plonkish.Gadget.LookupArgument
import Plonkish.Proofs.Gadget.Agreement

namespace Plonkish

/-!
# Agreeing arguments

Gate arguments and lookup arguments are laid out by loops. How often each loop
runs is a matter of the declared sizes and of the numbers of cells that are
given, so two arguments of one shape on lists of the same lengths agree.
-/

variable {field : PrimeField} {aligned : Prop}

/-- The cells of two gate arguments agree one by one. -/
structure GateCells.Agrees (aligned : Prop) (left right : GateCells field) : Prop where
  challenge : left.challenge.Agrees aligned right.challenge
  constraints : Cell.AllAgree aligned left.constraints right.constraints
  selectors : Cell.AllAgree aligned left.selectors right.selectors

/-- The values of two row pairs agree one by one. -/
structure RowPair.Agrees (aligned : Prop) (left right : RowPair field) : Prop where
  current : left.current.Agrees aligned right.current
  next : left.next.Agrees aligned right.next

/-- The cells of two lookup arguments agree one by one. -/
structure LookupCells.Agrees (aligned : Prop) (left right : LookupCells field) : Prop where
  theta : left.theta.Agrees aligned right.theta
  beta : left.beta.Agrees aligned right.beta
  gamma : left.gamma.Agrees aligned right.gamma
  alphas : Cell.AllAgree aligned left.alphas right.alphas
  accumulator : left.accumulator.Agrees aligned right.accumulator
  lastRow : left.lastRow.Agrees aligned right.lastRow
  blindRows : left.blindRows.Agrees aligned right.blindRows
  firstRow : left.firstRow.Agrees aligned right.firstRow
  gateSelectors : Cell.AllAgree aligned left.gateSelectors right.gateSelectors
  tableIds : Cell.AllAgree aligned left.tableIds right.tableIds
  lookupInputs : Cell.AllAgree aligned left.lookupInputs right.lookupInputs
  tableSelectors : Cell.AllAgree aligned left.tableSelectors right.tableSelectors
  options : Cell.AllAgree aligned left.options right.options
  shiftedTableSelectors :
    Cell.AllAgree aligned left.shiftedTableSelectors right.shiftedTableSelectors
  shiftedOptions : Cell.AllAgree aligned left.shiftedOptions right.shiftedOptions
  sorted : Cell.AllAgree aligned left.sorted right.sorted

namespace Gadget

/-- What two lookup arguments derive from their challenges agrees. -/
structure LookupChallenges.Agrees (aligned : Prop) (left right : LookupChallenges field) :
    Prop where
  beta : left.beta.Agrees aligned right.beta
  gamma : left.gamma.Agrees aligned right.gamma
  powers : Cell.AllAgree aligned left.powers right.powers
  onePlusBeta : left.onePlusBeta.Agrees aligned right.onePlusBeta
  gammaBeta : left.gammaBeta.Agrees aligned right.gammaBeta

/-- Two tables have equally many columns, and agree in their cells. -/
structure LookupTable.Agrees (aligned : Prop) (left right : LookupTable field) : Prop where
  columns : left.columns = right.columns
  id : left.id.Agrees aligned right.id
  selector : left.selector.Agrees aligned right.selector
  shiftedSelector : left.shiftedSelector.Agrees aligned right.shiftedSelector

/-! ## Gate arguments -/

/-- A geometric sequence has as many items in both runs, at the same offsets. -/
theorem geometric_alike
    {challenge otherChallenge first otherFirst : Cell field}
    (challengesAgree : challenge.Agrees aligned otherChallenge)
    (firsts : first.Agrees aligned otherFirst)
    (count : Nat) :
    Synthesis.Alike aligned (geometric challenge first count)
      (geometric otherChallenge otherFirst count) (Cell.AllAgree aligned) := by
  induction count generalizing first otherFirst with
  | zero => exact Synthesis.Alike.pure (.cons firsts .nil)
  | succ count inductionHypothesis =>
      apply (Synthesis.mul_alike firsts.source challengesAgree.source).bind
      intro next _ nexts
      apply (inductionHypothesis nexts).bind
      intro powers _ powersAgree
      exact Synthesis.Alike.pure (.cons firsts powersAgree)

/-- Powers are laid out alike for the same count. -/
theorem powersFromZero_alike
    {challenge otherChallenge : Cell field}
    (challengesAgree : challenge.Agrees aligned otherChallenge)
    (count : Nat) :
    Synthesis.Alike aligned (powersFromZero challenge count)
      (powersFromZero otherChallenge count) (Cell.AllAgree aligned) := by
  cases count with
  | zero => exact Synthesis.Alike.pure .nil
  | succ count =>
      apply (Synthesis.constant_alike 1).bind
      intro one _ ones
      exact geometric_alike challengesAgree ones count

/-- Inner products of lists that agree are laid out alike. -/
theorem innerProductOfCells_alike
    {lefts otherLefts rights otherRights : List (Cell field)}
    (leftsAgree : Cell.AllAgree aligned lefts otherLefts)
    (rightsAgree : Cell.AllAgree aligned rights otherRights) :
    Synthesis.Alike aligned (innerProductOfCells lefts rights)
      (innerProductOfCells otherLefts otherRights) (Cell.Agrees aligned) :=
  Synthesis.innerProduct_alike (Source.pairAgrees_zip leftsAgree.sources rightsAgree.sources)

/-- Gates are combined alike, since their sizes are the same in both runs. -/
theorem combineGates_alike
    (sizes : List UInt64)
    {constraints otherConstraints powers otherPowers : List (Cell field)}
    (constraintsAgree : Cell.AllAgree aligned constraints otherConstraints)
    (powersAgree : Cell.AllAgree aligned powers otherPowers) :
    Assembly.Alike aligned (combineGates constraints powers sizes)
      (combineGates otherConstraints otherPowers sizes) (Cell.AllAgree aligned) := by
  induction sizes generalizing constraints otherConstraints powers otherPowers with
  | nil => exact SucceedAlike.pure .nil
  | cons size rest inductionHypothesis =>
      apply (Assembly.split_alike constraintsAgree size.toNat).bind
      intro constraintParts _ constraintPartsAgree
      apply (Assembly.split_alike powersAgree size.toNat).bind
      intro powerParts _ powerPartsAgree
      apply (Assembly.Alike.lift
        (innerProductOfCells_alike constraintPartsAgree.1 powerPartsAgree.1)).bind
      intro combined _ combinedAgree
      apply (inductionHypothesis constraintPartsAgree.2 powerPartsAgree.2).bind
      intro later _ laterAgree
      exact SucceedAlike.pure (.cons combinedAgree laterAgree)

/-- Gate arguments of one shape are laid out alike. -/
theorem gateArgument_alike
    (shape : GateShape)
    {input otherInput : GateCells field}
    (inputs : input.Agrees aligned otherInput) :
    Assembly.Alike aligned (gateArgument shape input) (gateArgument shape otherInput)
      (Cell.Agrees aligned) := by
  apply Assembly.checkLength_alike.bind
  intro _ _ _
  apply Assembly.checkLength_alike.bind
  intro _ _ _
  apply (Assembly.Alike.lift (powersFromZero_alike inputs.challenge shape.total)).bind
  intro powers _ powersAgree
  apply (combineGates_alike shape.sizes inputs.constraints powersAgree).bind
  intro combined _ combinedAgree
  exact Assembly.Alike.lift (innerProductOfCells_alike inputs.selectors combinedAgree)

/-! ## Lookup arguments -/

/-- Powers are laid out alike for the same count, or there are too many in both runs. -/
theorem powersFromOne_alike
    {challenge otherChallenge : Cell field}
    (challengesAgree : challenge.Agrees aligned otherChallenge)
    (count : Nat) :
    Assembly.Alike aligned (powersFromOne challenge count) (powersFromOne otherChallenge count)
      (Cell.AllAgree aligned) := by
  unfold powersFromOne
  by_cases tooMany : largestReserve < count
  · rw [if_pos tooMany]
    exact SucceedAlike.throw
  rw [if_neg tooMany, if_neg tooMany]
  cases count with
  | zero => exact SucceedAlike.pure .nil
  | succ further =>
      exact Assembly.Alike.lift (geometric_alike challengesAgree challengesAgree further)

/-- Lists that agree are compressed alike. -/
theorem compress_alike
    {base otherBase : Cell field}
    (bases : base.Agrees aligned otherBase)
    {powers otherPowers values otherValues : List (Cell field)}
    (powersAgree : Cell.AllAgree aligned powers otherPowers)
    (valuesAgree : Cell.AllAgree aligned values otherValues) :
    Synthesis.Alike aligned (compress base powers values)
      (compress otherBase otherPowers otherValues) (Cell.Agrees aligned) := by
  have firsts : Cell.AllAgree aligned (base :: values) (otherBase :: otherValues) :=
    .cons bases valuesAgree
  have ones : (Source.constant (1 : Element field)).Agrees aligned (.constant 1) := rfl
  exact Synthesis.innerProduct_alike
    (Source.pairAgrees_zip firsts.sources (.cons ones powersAgree.sources))

/-- The same lengths pass or are refused. -/
theorem checkLookup_alike
    (shape : LookupShape)
    {input otherInput : LookupCells field}
    (inputs : input.Agrees aligned otherInput) :
    Assembly.Alike aligned (checkLookup shape input) (checkLookup shape otherInput)
      (fun _ _ => True) := by
  unfold checkLookup
  rw [inputs.sorted.length_eq]
  iterate 8
    apply Assembly.checkLength_alike.bind
    intro _ _ _
  exact Assembly.checkLength_alike

/-- The derived challenges agree as the challenges do. -/
theorem deriveChallenges_alike
    {input otherInput : LookupCells field}
    (inputs : input.Agrees aligned otherInput)
    {one otherOne : Cell field}
    (ones : one.Agrees aligned otherOne)
    {powers otherPowers : List (Cell field)}
    (powersAgree : Cell.AllAgree aligned powers otherPowers) :
    Synthesis.Alike aligned (deriveChallenges input one powers)
      (deriveChallenges otherInput otherOne otherPowers) (LookupChallenges.Agrees aligned) := by
  apply (Synthesis.add_alike inputs.beta.source ones.source).bind
  intro onePlusBeta _ sums
  apply (Synthesis.mul_alike inputs.gamma.source sums.source).bind
  intro gammaBeta _ products
  exact Synthesis.Alike.pure ⟨inputs.beta, inputs.gamma, powersAgree, sums, products⟩

variable {challenges otherChallenges : LookupChallenges field}
  (challengesAgree : challenges.Agrees aligned otherChallenges)
  {product otherProduct : Cell field}

include challengesAgree

/-- The factor of a lookup constraint is laid out alike. -/
theorem multiplyConstraint_alike
    (products : product.Agrees aligned otherProduct)
    {selector otherSelector tableId otherId : Cell field}
    (selectors : selector.Agrees aligned otherSelector)
    (ids : tableId.Agrees aligned otherId)
    {values otherValues : List (Cell field)}
    (valuesAgree : Cell.AllAgree aligned values otherValues) :
    Synthesis.Alike aligned (multiplyConstraint challenges product selector tableId values)
      (multiplyConstraint otherChallenges otherProduct otherSelector otherId otherValues)
      (Cell.Agrees aligned) := by
  apply (compress_alike ids challengesAgree.powers valuesAgree).bind
  intro compressed _ compresseds
  apply (Synthesis.mul_alike selectors.source compresseds.source).bind
  intro selected _ selecteds
  apply (Synthesis.add_alike challengesAgree.gamma.source selecteds.source).bind
  intro shifted _ shifteds
  apply (Synthesis.mul_alike challengesAgree.onePlusBeta.source shifteds.source).bind
  intro factor _ factors
  exact Synthesis.mul_alike products factors

/-- The factors of lookup constraints are laid out alike, for the same widths. -/
theorem multiplyConstraints_alike
    (products : product.Agrees aligned otherProduct)
    {selectors otherSelectors : List (Cell field)}
    (selectorsAgree : Cell.AllAgree aligned selectors otherSelectors)
    (widths : List UInt64)
    {tableIds otherIds inputs otherInputs : List (Cell field)}
    (idsAgree : Cell.AllAgree aligned tableIds otherIds)
    (inputsAgree : Cell.AllAgree aligned inputs otherInputs) :
    Assembly.Alike aligned
      (multiplyConstraints challenges product selectors widths tableIds inputs)
      (multiplyConstraints otherChallenges otherProduct otherSelectors widths otherIds otherInputs)
      (Cell.Agrees aligned) := by
  induction selectorsAgree generalizing product otherProduct widths tableIds otherIds inputs
      otherInputs with
  | nil => exact SucceedAlike.pure products
  | cons head _ inductionHypothesis =>
      -- Without a width or a table for the constraint, both computations crash.
      cases widths with
      | nil => exact SucceedAlike.throw
      | cons width widths =>
          cases idsAgree with
          | nil => exact SucceedAlike.throw
          | cons ids restIds =>
              apply (Assembly.split_alike inputsAgree width.toNat).bind
              intro parts _ partsAgree
              apply (Assembly.Alike.lift
                (multiplyConstraint_alike challengesAgree products head ids partsAgree.1)).bind
              intro next _ nexts
              exact inductionHypothesis nexts widths restIds partsAgree.2

/-- The factor of a pair is laid out alike. -/
theorem multiplyPair_alike
    (products : product.Agrees aligned otherProduct)
    {value otherValue shifted otherShifted : Cell field}
    (values : value.Agrees aligned otherValue)
    (shifteds : shifted.Agrees aligned otherShifted) :
    Synthesis.Alike aligned (multiplyPair challenges product value shifted)
      (multiplyPair otherChallenges otherProduct otherValue otherShifted)
      (Cell.Agrees aligned) := by
  apply (Synthesis.add_alike challengesAgree.gammaBeta.source values.source).bind
  intro sum _ sums
  apply (Synthesis.mulAdd_alike challengesAgree.beta.source shifteds.source sums.source).bind
  intro factor _ factors
  exact Synthesis.mul_alike products factors

variable {table otherTable : LookupTable field} (tables : table.Agrees aligned otherTable)

include tables in
/-- The factor of an option is laid out alike. -/
theorem multiplyOption_alike
    (products : product.Agrees aligned otherProduct)
    {option otherOption shiftedOption otherShiftedOption : List (Cell field)}
    (options : Cell.AllAgree aligned option otherOption)
    (shiftedOptions : Cell.AllAgree aligned shiftedOption otherShiftedOption) :
    Synthesis.Alike aligned (multiplyOption challenges table product option shiftedOption)
      (multiplyOption otherChallenges otherTable otherProduct otherOption otherShiftedOption)
      (Cell.Agrees aligned) := by
  apply (compress_alike tables.id challengesAgree.powers options).bind
  intro row _ rows
  apply (compress_alike tables.id challengesAgree.powers shiftedOptions).bind
  intro shiftedRow _ shiftedRows
  apply (Synthesis.mul_alike tables.selector.source rows.source).bind
  intro value _ values
  apply (Synthesis.mul_alike tables.shiftedSelector.source shiftedRows.source).bind
  intro shifted _ shifteds
  exact multiplyPair_alike challengesAgree products values shifteds

include tables in
/-- The factors of options are laid out alike, and later options agree. -/
theorem multiplyOptions_alike
    (products : product.Agrees aligned otherProduct)
    (count : Nat)
    {options otherOptions shiftedOptions otherShiftedOptions : List (Cell field)}
    (optionsAgree : Cell.AllAgree aligned options otherOptions)
    (shiftedAgree : Cell.AllAgree aligned shiftedOptions otherShiftedOptions) :
    Assembly.Alike aligned
      (multiplyOptions challenges table product count options shiftedOptions)
      (multiplyOptions otherChallenges otherTable otherProduct count otherOptions
        otherShiftedOptions)
      (fun result other => result.1.Agrees aligned other.1
        ∧ Cell.AllAgree aligned result.2.1 other.2.1
        ∧ Cell.AllAgree aligned result.2.2 other.2.2) := by
  induction count generalizing product otherProduct options otherOptions shiftedOptions
      otherShiftedOptions with
  | zero => exact SucceedAlike.pure ⟨products, optionsAgree, shiftedAgree⟩
  | succ count inductionHypothesis =>
      unfold multiplyOptions
      rw [tables.columns]
      apply (Assembly.split_alike optionsAgree otherTable.columns).bind
      intro parts _ partsAgree
      apply (Assembly.split_alike shiftedAgree otherTable.columns).bind
      intro shiftedParts _ shiftedPartsAgree
      apply (Assembly.Alike.lift (multiplyOption_alike challengesAgree tables products partsAgree.1
        shiftedPartsAgree.1)).bind
      intro next _ nexts
      exact inductionHypothesis nexts partsAgree.2 shiftedPartsAgree.2

/-- The factors of all tables are laid out alike, for the same sizes. -/
theorem multiplyTables_alike
    (products : product.Agrees aligned otherProduct)
    (number : Nat)
    (sizes : List (UInt64 × UInt64))
    {selectors otherSelectors shiftedSelectors otherShiftedSelectors : List (Cell field)}
    (selectorsAgree : Cell.AllAgree aligned selectors otherSelectors)
    (shiftedSelectorsAgree : Cell.AllAgree aligned shiftedSelectors otherShiftedSelectors)
    {options otherOptions shiftedOptions otherShiftedOptions : List (Cell field)}
    (optionsAgree : Cell.AllAgree aligned options otherOptions)
    (shiftedAgree : Cell.AllAgree aligned shiftedOptions otherShiftedOptions) :
    Assembly.Alike aligned
      (multiplyTables challenges product number sizes selectors shiftedSelectors options
        shiftedOptions)
      (multiplyTables otherChallenges otherProduct number sizes otherSelectors
        otherShiftedSelectors otherOptions otherShiftedOptions)
      (Cell.Agrees aligned) := by
  induction sizes generalizing product otherProduct number selectors otherSelectors
      shiftedSelectors otherShiftedSelectors options otherOptions shiftedOptions
      otherShiftedOptions with
  | nil => exact SucceedAlike.pure products
  | cons size sizes inductionHypothesis =>
      obtain ⟨count, columns⟩ := size
      -- Without a selector for the table, both computations crash.
      cases selectorsAgree with
      | nil => exact SucceedAlike.throw
      | @cons selector otherSelector _ _ selectors restSelectors =>
          cases shiftedSelectorsAgree with
          | nil => exact SucceedAlike.throw
          | @cons shiftedSelector otherShiftedSelector _ _ shiftedSelectors restShifted =>
              apply (Assembly.Alike.lift (Synthesis.constant_alike _)).bind
              intro id otherId ids
              have tables : LookupTable.Agrees aligned
                  ⟨columns.toNat, id, selector, shiftedSelector⟩
                  ⟨columns.toNat, otherId, otherSelector, otherShiftedSelector⟩ :=
                ⟨rfl, ids, selectors, shiftedSelectors⟩
              apply (multiplyOptions_alike challengesAgree tables products count.toNat optionsAgree
                shiftedAgree).bind
              intro result _ results
              exact inductionHypothesis results.1 (number + 1) restSelectors restShifted
                results.2.1 results.2.2

/-- The factors of the sorted pairs are laid out alike. -/
theorem multiplySorted_alike
    {product otherProduct : Cell field}
    (products : product.Agrees aligned otherProduct)
    {sorted otherSorted : List (Cell field)}
    (sortedAgree : Cell.AllAgree aligned sorted otherSorted) :
    Synthesis.Alike aligned (multiplySorted challenges product sorted)
      (multiplySorted otherChallenges otherProduct otherSorted) (Cell.Agrees aligned) := by
  match sorted, otherSorted, sortedAgree with
  | [], [], _ => exact Synthesis.Alike.pure products
  | [_], [_], _ => exact Synthesis.Alike.pure products
  | value :: shifted :: rest, otherValue :: otherShifted :: otherRest,
      .cons values (.cons shifteds restAgree) =>
      apply (multiplyPair_alike challengesAgree products values shifteds).bind
      intro next _ nexts
      exact multiplySorted_alike nexts restAgree

omit challengesAgree

/-- As many differences are laid out alike. -/
theorem linkDifferences_alike
    {sorted otherSorted : List (Cell field)}
    (sortedAgree : Cell.AllAgree aligned sorted otherSorted) :
    Synthesis.Alike aligned (linkDifferences sorted) (linkDifferences otherSorted)
      (Cell.AllAgree aligned) := by
  match sorted, otherSorted, sortedAgree with
  | [], [], _ => exact Synthesis.Alike.pure .nil
  | [_], [_], _ => exact Synthesis.Alike.pure .nil
  | [_, _], [_, _], _ => exact Synthesis.Alike.pure .nil
  | _ :: shifted :: value :: rest, _ :: otherShifted :: otherValue :: otherRest,
      .cons _ (.cons shifteds (.cons values restAgree)) =>
      apply (Synthesis.sub_alike values.source shifteds.source).bind
      intro difference _ differences
      apply (linkDifferences_alike (.cons values restAgree)).bind
      intro later _ laters
      exact Synthesis.Alike.pure (.cons differences laters)

/-- The four results are laid out alike. -/
theorem lookupResult_alike
    {input otherInput : LookupCells field}
    (inputs : input.Agrees aligned otherInput)
    {one otherOne numerator otherNumerator denominator otherDenominator : Cell field}
    (ones : one.Agrees aligned otherOne)
    (numerators : numerator.Agrees aligned otherNumerator)
    (denominators : denominator.Agrees aligned otherDenominator) :
    Synthesis.Alike aligned (lookupResult input one numerator denominator)
      (lookupResult otherInput otherOne otherNumerator otherDenominator)
      (fun result other => Cell.AllAgree aligned result.toList other.toList) := by
  have currents := inputs.accumulator.current
  apply (Synthesis.sub_alike ones.source currents.source).bind
  intro notOne _ notOnes
  apply (Synthesis.mul_alike inputs.firstRow.source notOnes.source).bind
  intro first _ firsts
  apply (Synthesis.mul_alike currents.source currents.source).bind
  intro square _ squares
  apply (Synthesis.sub_alike squares.source currents.source).bind
  intro notBit _ notBits
  apply (Synthesis.mul_alike inputs.lastRow.current.source notBits.source).bind
  intro last _ lasts
  apply (Synthesis.add_alike inputs.lastRow.current.source inputs.blindRows.current.source).bind
  intro inactive _ inactives
  apply (Synthesis.sub_alike ones.source inactives.source).bind
  intro active _ actives
  apply (Synthesis.mul_alike inputs.accumulator.next.source denominators.source).bind
  intro next _ nexts
  apply (Synthesis.mul_alike currents.source numerators.source).bind
  intro current _ multiplied
  apply (Synthesis.sub_alike nexts.source multiplied.source).bind
  intro change _ changes
  apply (Synthesis.mul_alike actives.source changes.source).bind
  intro step _ steps
  apply (linkDifferences_alike inputs.sorted).bind
  intro differences _ differencesAgree
  apply (innerProductOfCells_alike inputs.alphas differencesAgree).bind
  intro linked _ linkeds
  apply (Synthesis.mul_alike inputs.firstRow.source linkeds.source).bind
  intro links _ linksAgree
  exact Synthesis.Alike.pure (.cons firsts (.cons lasts (.cons steps (.cons linksAgree .nil))))

/-- The selectors of lookup constraints are repeated as often as the sizes say. -/
theorem constraintSelectors_agree
    (sizes : LookupSizes)
    {selectors otherSelectors : List (Cell field)}
    (selectorsAgree : Cell.AllAgree aligned selectors otherSelectors) :
    Cell.AllAgree aligned (constraintSelectors sizes selectors)
      (constraintSelectors sizes otherSelectors) := by
  unfold constraintSelectors
  generalize sizes.gateConstraints = counts
  induction selectorsAgree generalizing counts with
  | nil => exact .nil
  | cons head _ inductionHypothesis =>
      cases counts with
      | nil => exact .nil
      | cons count counts =>
          rw [List.zip_cons_cons, List.zip_cons_cons, List.flatMap_cons, List.flatMap_cons]
          apply List.rel_append _ (inductionHypothesis counts)
          exact List.forall₂_iff_get.mpr ⟨by simp, fun index _ _ => by simpa using head⟩

/-- Lookup arguments of one shape are laid out alike. -/
theorem lookupArgument_alike
    (shape : LookupShape)
    {input otherInput : LookupCells field}
    (inputs : input.Agrees aligned otherInput) :
    Assembly.Alike aligned (lookupArgument shape input) (lookupArgument shape otherInput)
      (fun result other => Cell.AllAgree aligned result.toList other.toList) := by
  apply (checkLookup_alike shape inputs).bind
  intro _ _ _
  apply (Assembly.Alike.lift (Synthesis.constant_alike 1)).bind
  intro one _ ones
  apply (powersFromOne_alike inputs.theta shape.sizes.widest).bind
  intro powers _ powersAgree
  apply (Assembly.Alike.lift (deriveChallenges_alike inputs ones powersAgree)).bind
  intro challenges _ challengesAgree
  apply (multiplyConstraints_alike challengesAgree ones
    (constraintSelectors_agree shape.sizes inputs.gateSelectors) shape.sizes.constraintInputs
    inputs.tableIds inputs.lookupInputs).bind
  intro lookedUp _ lookedUps
  apply (multiplyTables_alike challengesAgree lookedUps 0 _ inputs.tableSelectors
    inputs.shiftedTableSelectors inputs.options inputs.shiftedOptions).bind
  intro numerator _ numerators
  apply (Assembly.Alike.lift (multiplySorted_alike challengesAgree ones inputs.sorted)).bind
  intro denominator _ denominators
  exact Assembly.Alike.lift (lookupResult_alike inputs ones numerators denominators)

end Gadget

end Plonkish
