import Plonkish.Gadget.LookupArgument
import Plonkish.Proofs.Gadget.Soundness

namespace Plonkish

/-!
# Sound arguments

The gate argument and the lookup argument are loops over lists whose lengths
depend on the shape. Each loop is sound by induction along its own recursion,
for whatever cells are known where it starts.
-/

/-- The cells of a gate argument. -/
def GateCells.all {field : PrimeField} (input : GateCells field) : List (Cell field) :=
  input.challenge :: (input.constraints ++ input.selectors)

/-- The cells of a lookup argument. -/
def LookupCells.all {field : PrimeField} (input : LookupCells field) : List (Cell field) :=
  [input.theta, input.beta, input.gamma, input.firstRow, input.accumulator.current,
      input.accumulator.next, input.lastRow.current, input.lastRow.next,
      input.blindRows.current, input.blindRows.next]
    ++ (input.alphas ++ input.gateSelectors ++ input.tableIds ++ input.lookupInputs
      ++ input.tableSelectors ++ input.options ++ input.shiftedTableSelectors
      ++ input.shiftedOptions ++ input.sorted)

namespace Gadget

variable {field : PrimeField} {known : Set (Cell field)}

/-- The items of a geometric sequence are settled if the first one and the challenge are. -/
theorem geometric_sound
    {challenge first : Cell field}
    {count : Nat}
    (challengeKnown : challenge ∈ known)
    (firstKnown : first ∈ known) :
    Synthesis.Sound known (geometric challenge first count)
      (fun powers => {cell | cell ∈ powers}) := by
  induction count generalizing first known with
  | zero => exact Synthesis.Sound.pure (by simp [firstKnown])
  | succ count inductionHypothesis =>
      refine (Synthesis.mul_sound (by simp [firstKnown]) (by simp [challengeKnown])).bind
        fun next => ?_
      refine (inductionHypothesis (by simp [challengeKnown]) (by simp)).bind fun powers => ?_
      refine Synthesis.Sound.pure fun cell isOutput => ?_
      rcases List.mem_cons.mp isOutput with rfl | later
      · simp [firstKnown]
      · exact .inr later

/-- The powers of a settled challenge are settled. -/
theorem powersFromZero_sound
    {challenge : Cell field}
    {count : Nat}
    (challengeKnown : challenge ∈ known) :
    Synthesis.Sound known (powersFromZero challenge count)
      (fun powers => {cell | cell ∈ powers}) := by
  cases count with
  | zero => exact Synthesis.Sound.pure (by simp)
  | succ count =>
      refine (Synthesis.constant_sound 1).bind fun one => ?_
      exact geometric_sound (by simp [challengeKnown]) (by simp)

/-- An inner product of settled cells is settled. -/
theorem innerProductOfCells_sound
    {left right : List (Cell field)}
    (leftKnown : ∀ cell ∈ left, cell ∈ known)
    (rightKnown : ∀ cell ∈ right, cell ∈ known) :
    Synthesis.Sound known (innerProductOfCells left right) ({·}) := by
  refine Synthesis.innerProduct_sound fun pair member => ?_
  obtain ⟨leftMember, rightMember⟩ := List.of_mem_zip member
  obtain ⟨leftCell, isLeft, leftSame⟩ := List.mem_map.mp leftMember
  obtain ⟨rightCell, isRight, rightSame⟩ := List.mem_map.mp rightMember
  rw [← leftSame, ← rightSame]
  exact ⟨leftKnown leftCell isLeft, rightKnown rightCell isRight⟩

/-- The combined constraints are settled: those of each gate are an inner product. -/
theorem combineGates_sound
    {constraints powers : List (Cell field)}
    {sizes : List UInt64}
    (constraintsKnown : ∀ cell ∈ constraints, cell ∈ known)
    (powersKnown : ∀ cell ∈ powers, cell ∈ known) :
    Assembly.Sound known (combineGates constraints powers sizes)
      (fun combined => {cell | cell ∈ combined}) := by
  induction sizes generalizing constraints powers known with
  | nil => exact Assembly.Sound.pure (by simp)
  | cons size rest inductionHypothesis =>
      refine (Assembly.split_sound constraintsKnown).bind fun constraintParts => ?_
      refine (Assembly.split_sound fun cell member => .inl (powersKnown cell member)).bind
        fun powerParts => ?_
      refine (Assembly.Sound.lift (innerProductOfCells_sound
        (fun cell member => by simp [member]) (fun cell member => by simp [member]))).bind
        fun combined => ?_
      refine (inductionHypothesis (fun cell member => by simp [member])
        (fun cell member => by simp [member])).bind fun later => ?_
      refine Assembly.Sound.pure fun cell isOutput => ?_
      rcases List.mem_cons.mp isOutput with rfl | ofLater
      · simp
      · exact .inr ofLater

/-- The value of a gate argument is settled. -/
theorem gateArgument_sound
    {shape : GateShape}
    {input : GateCells field}
    (inputKnown : ∀ cell ∈ input.all, cell ∈ known) :
    Assembly.Sound known (gateArgument shape input) ({·}) := by
  simp only [GateCells.all, List.forall_mem_cons, List.forall_mem_append] at inputKnown
  obtain ⟨challengeKnown, constraintsKnown, selectorsKnown⟩ := inputKnown
  refine Assembly.checkLength_sound.bind fun _ => ?_
  refine Assembly.checkLength_sound.bind fun _ => ?_
  refine (Assembly.Sound.lift (powersFromZero_sound (by simp [challengeKnown]))).bind
    fun powers => ?_
  refine (combineGates_sound (fun cell member => by simp [constraintsKnown cell member])
    (fun cell member => by simp [member])).bind fun combined => ?_
  exact Assembly.Sound.lift (innerProductOfCells_sound
    (fun cell member => by simp [selectorsKnown cell member]) fun cell member => by simp [member])

/-- The powers of a settled challenge are settled, from the first on. -/
theorem powersFromOne_sound
    {challenge : Cell field}
    {count : Nat}
    (challengeKnown : challenge ∈ known) :
    Assembly.Sound known (powersFromOne challenge count)
      (fun powers => {cell | cell ∈ powers}) := by
  unfold powersFromOne
  split
  next => exact Assembly.Sound.crash
  next =>
    cases count with
    | zero => exact Assembly.Sound.pure (by simp)
    | succ count => exact Assembly.Sound.lift (geometric_sound challengeKnown challengeKnown)

/-- A compression of settled cells is settled. -/
theorem compress_sound
    {base : Cell field}
    {powers values : List (Cell field)}
    (baseKnown : base ∈ known)
    (powersKnown : ∀ cell ∈ powers, cell ∈ known)
    (valuesKnown : ∀ cell ∈ values, cell ∈ known) :
    Synthesis.Sound known (compress base powers values) ({·}) := by
  refine Synthesis.innerProduct_sound fun pair member => ?_
  obtain ⟨leftMember, rightMember⟩ := List.of_mem_zip member
  constructor
  · obtain ⟨cell, isValue, same⟩ := List.mem_map.mp leftMember
    rw [← same]
    rcases List.mem_cons.mp isValue with rfl | ofValues
    · exact baseKnown
    · exact valuesKnown cell ofValues
  · rcases List.mem_cons.mp rightMember with isOne | ofPowers
    · rw [isOne]
      trivial
    · obtain ⟨cell, isPower, same⟩ := List.mem_map.mp ofPowers
      rw [← same]
      exact powersKnown cell isPower

/-- A check of lengths settles nothing. -/
theorem checkLookup_sound {shape : LookupShape} {input : LookupCells field} :
    Assembly.Sound known (checkLookup shape input) (fun _ => ∅) := by
  refine Assembly.checkLength_sound.bind fun _ => ?_
  refine Assembly.checkLength_sound.bind fun _ => ?_
  refine Assembly.checkLength_sound.bind fun _ => ?_
  refine Assembly.checkLength_sound.bind fun _ => ?_
  refine Assembly.checkLength_sound.bind fun _ => ?_
  refine Assembly.checkLength_sound.bind fun _ => ?_
  refine Assembly.checkLength_sound.bind fun _ => ?_
  refine Assembly.checkLength_sound.bind fun _ => ?_
  exact Assembly.checkLength_sound

/-- The challenges of both products are among some cells. -/
structure ChallengesKnown (known : Set (Cell field)) (challenges : LookupChallenges field) :
    Prop where
  beta : challenges.beta ∈ known
  gamma : challenges.gamma ∈ known
  powers : ∀ cell ∈ challenges.powers, cell ∈ known
  onePlusBeta : challenges.onePlusBeta ∈ known
  gammaBeta : challenges.gammaBeta ∈ known

/-- The cells of the challenges of both products. -/
def challengeCells (challenges : LookupChallenges field) : Set (Cell field) :=
  {cell | cell = challenges.beta ∨ cell = challenges.gamma ∨ cell ∈ challenges.powers
    ∨ cell = challenges.onePlusBeta ∨ cell = challenges.gammaBeta}

/-- The cells of challenges are known where all of them are. -/
theorem ChallengesKnown.of_subset
    {challenges : LookupChallenges field}
    (included : challengeCells challenges ⊆ known) :
    ChallengesKnown known challenges :=
  ⟨included (.inl rfl), included (.inr (.inl rfl)),
    fun _ member => included (.inr (.inr (.inl member))),
    included (.inr (.inr (.inr (.inl rfl)))), included (.inr (.inr (.inr (.inr rfl))))⟩

/-- Challenges stay known where more is. -/
theorem ChallengesKnown.mono
    {more : Set (Cell field)}
    {challenges : LookupChallenges field}
    (isKnown : ChallengesKnown known challenges)
    (included : known ⊆ more) :
    ChallengesKnown more challenges :=
  ⟨included isKnown.beta, included isKnown.gamma,
    fun cell member => included (isKnown.powers cell member), included isKnown.onePlusBeta,
    included isKnown.gammaBeta⟩

/-- A product is settled if its factors and the challenges are. -/
theorem multiplyPair_sound
    {challenges : LookupChallenges field}
    {product value shifted : Cell field}
    (challengesKnown : ChallengesKnown known challenges)
    (productKnown : product ∈ known)
    (valueKnown : value ∈ known)
    (shiftedKnown : shifted ∈ known) :
    Synthesis.Sound known (multiplyPair challenges product value shifted) ({·}) := by
  refine (Synthesis.add_sound (by simp [challengesKnown.gammaBeta])
    (by simp [valueKnown])).bind fun sum => ?_
  refine (Synthesis.mulAdd_sound (by simp [challengesKnown.beta]) (by simp [shiftedKnown])
    (by simp)).bind fun factor => ?_
  exact Synthesis.mul_sound (by simp [productKnown]) (by simp)

/-- The product stays settled after the factor of one lookup constraint. -/
theorem multiplyConstraint_sound
    {challenges : LookupChallenges field}
    {product selector tableId : Cell field}
    {values : List (Cell field)}
    (challengesKnown : ChallengesKnown known challenges)
    (productKnown : product ∈ known)
    (selectorKnown : selector ∈ known)
    (tableIdKnown : tableId ∈ known)
    (valuesKnown : ∀ cell ∈ values, cell ∈ known) :
    Synthesis.Sound known (multiplyConstraint challenges product selector tableId values)
      ({·}) := by
  refine (compress_sound tableIdKnown challengesKnown.powers valuesKnown).bind
    fun compressed => ?_
  refine (Synthesis.mul_sound (by simp [selectorKnown]) (by simp)).bind fun selected => ?_
  refine (Synthesis.add_sound (by simp [challengesKnown.gamma]) (by simp)).bind
    fun shifted => ?_
  refine (Synthesis.mul_sound (by simp [challengesKnown.onePlusBeta]) (by simp)).bind
    fun factor => ?_
  exact Synthesis.mul_sound (by simp [productKnown]) (by simp)

/-- The product stays settled after the factors of all lookup constraints. -/
theorem multiplyConstraints_sound
    {challenges : LookupChallenges field}
    {product : Cell field}
    {selectors : List (Cell field)}
    {widths : List UInt64}
    {tableIds inputs : List (Cell field)}
    (challengesKnown : ChallengesKnown known challenges)
    (productKnown : product ∈ known)
    (selectorsKnown : ∀ cell ∈ selectors, cell ∈ known)
    (tableIdsKnown : ∀ cell ∈ tableIds, cell ∈ known)
    (inputsKnown : ∀ cell ∈ inputs, cell ∈ known) :
    Assembly.Sound known
      (multiplyConstraints challenges product selectors widths tableIds inputs) ({·}) := by
  induction selectors generalizing product widths tableIds inputs known with
  | nil =>
      refine Assembly.Sound.pure ?_
      rintro cell rfl
      exact productKnown
  | cons selector selectors inductionHypothesis =>
      rcases widths with _ | ⟨width, widths⟩
      · exact Assembly.Sound.crash
      rcases tableIds with _ | ⟨tableId, tableIds⟩
      · exact Assembly.Sound.crash
      obtain ⟨selectorKnown, selectorsKnown⟩ := List.forall_mem_cons.mp selectorsKnown
      obtain ⟨tableIdKnown, tableIdsKnown⟩ := List.forall_mem_cons.mp tableIdsKnown
      refine (Assembly.split_sound inputsKnown).bind fun parts => ?_
      refine (Assembly.Sound.lift (multiplyConstraint_sound
        (challengesKnown.mono Set.subset_union_left) (.inl productKnown) (.inl selectorKnown)
        (.inl tableIdKnown) fun cell member => .inr (.inl member))).bind fun product => ?_
      have included : known ⊆ known ∪ {cell | cell ∈ parts.1 ∨ cell ∈ parts.2} ∪ {product} :=
        Set.subset_union_left.trans Set.subset_union_left
      exact inductionHypothesis (challengesKnown.mono included) (by simp)
        (fun cell member => included (selectorsKnown cell member))
        (fun cell member => included (tableIdsKnown cell member))
        fun cell member => .inl (.inr (.inr member))

/-- The product stays settled after the factor of one option. -/
theorem multiplyOption_sound
    {challenges : LookupChallenges field}
    {table : LookupTable field}
    {product : Cell field}
    {option shiftedOption : List (Cell field)}
    (challengesKnown : ChallengesKnown known challenges)
    (idKnown : table.id ∈ known)
    (selectorKnown : table.selector ∈ known)
    (shiftedSelectorKnown : table.shiftedSelector ∈ known)
    (productKnown : product ∈ known)
    (optionKnown : ∀ cell ∈ option, cell ∈ known)
    (shiftedKnown : ∀ cell ∈ shiftedOption, cell ∈ known) :
    Synthesis.Sound known (multiplyOption challenges table product option shiftedOption)
      ({·}) := by
  refine (compress_sound idKnown challengesKnown.powers optionKnown).bind fun row => ?_
  refine (compress_sound (.inl idKnown) (challengesKnown.mono Set.subset_union_left).powers
    fun cell member => .inl (shiftedKnown cell member)).bind fun shiftedRow => ?_
  refine (Synthesis.mul_sound (by simp [selectorKnown]) (by simp)).bind fun value => ?_
  refine (Synthesis.mul_sound (by simp [shiftedSelectorKnown]) (by simp)).bind fun shifted => ?_
  refine multiplyPair_sound (challengesKnown.mono ?_) (by simp [productKnown]) (by simp) (by simp)
  intro cell member
  simp [member]

/--
The product stays settled after the options of one table, and later options are
among the known.
-/
theorem multiplyOptions_sound
    {challenges : LookupChallenges field}
    {table : LookupTable field}
    {product : Cell field}
    {count : Nat}
    {options shiftedOptions : List (Cell field)}
    (challengesKnown : ChallengesKnown known challenges)
    (idKnown : table.id ∈ known)
    (selectorKnown : table.selector ∈ known)
    (shiftedSelectorKnown : table.shiftedSelector ∈ known)
    (productKnown : product ∈ known)
    (optionsKnown : ∀ cell ∈ options, cell ∈ known)
    (shiftedKnown : ∀ cell ∈ shiftedOptions, cell ∈ known) :
    Assembly.Sound known
      (multiplyOptions challenges table product count options shiftedOptions)
      (fun result => {cell | cell = result.1 ∨ cell ∈ result.2.1 ∨ cell ∈ result.2.2}) := by
  induction count generalizing product options shiftedOptions known with
  | zero =>
      refine Assembly.Sound.pure ?_
      rintro cell (rfl | ofOptions | ofShifted)
      · exact productKnown
      · exact optionsKnown cell ofOptions
      · exact shiftedKnown cell ofShifted
  | succ count inductionHypothesis =>
      refine (Assembly.split_sound optionsKnown).bind fun parts => ?_
      refine (Assembly.split_sound fun cell member => .inl (shiftedKnown cell member)).bind
        fun shiftedParts => ?_
      have included : known ⊆ known ∪ {cell | cell ∈ parts.1 ∨ cell ∈ parts.2}
          ∪ {cell | cell ∈ shiftedParts.1 ∨ cell ∈ shiftedParts.2} :=
        Set.subset_union_left.trans Set.subset_union_left
      refine (Assembly.Sound.lift (multiplyOption_sound (challengesKnown.mono included)
        (included idKnown) (included selectorKnown) (included shiftedSelectorKnown)
        (included productKnown) (fun cell member => .inl (.inr (.inl member)))
        fun cell member => .inr (.inl member))).bind fun product => ?_
      have includedMore := included.trans
        (Set.subset_union_left : _ ⊆ _ ∪ ({product} : Set (Cell field)))
      exact inductionHypothesis (challengesKnown.mono includedMore) (includedMore idKnown)
        (includedMore selectorKnown) (includedMore shiftedSelectorKnown) (by simp)
        (fun cell member => .inl (.inl (.inr (.inr member))))
        fun cell member => .inl (.inr (.inr member))

/-- The product stays settled after the options of all tables. -/
theorem multiplyTables_sound
    {challenges : LookupChallenges field}
    {product : Cell field}
    {number : Nat}
    {sizes : List (UInt64 × UInt64)}
    {selectors shiftedSelectors options shiftedOptions : List (Cell field)}
    (challengesKnown : ChallengesKnown known challenges)
    (productKnown : product ∈ known)
    (selectorsKnown : ∀ cell ∈ selectors, cell ∈ known)
    (shiftedSelectorsKnown : ∀ cell ∈ shiftedSelectors, cell ∈ known)
    (optionsKnown : ∀ cell ∈ options, cell ∈ known)
    (shiftedKnown : ∀ cell ∈ shiftedOptions, cell ∈ known) :
    Assembly.Sound known
      (multiplyTables challenges product number sizes selectors shiftedSelectors options
        shiftedOptions)
      ({·}) := by
  induction sizes generalizing product number selectors shiftedSelectors options shiftedOptions
    known with
  | nil =>
      refine Assembly.Sound.pure ?_
      rintro cell rfl
      exact productKnown
  | cons size sizes inductionHypothesis =>
      rcases selectors with _ | ⟨selector, selectors⟩
      · exact Assembly.Sound.crash
      rcases shiftedSelectors with _ | ⟨shiftedSelector, shiftedSelectors⟩
      · exact Assembly.Sound.crash
      obtain ⟨selectorKnown, selectorsKnown⟩ := List.forall_mem_cons.mp selectorsKnown
      obtain ⟨shiftedSelectorKnown, shiftedSelectorsKnown⟩ :=
        List.forall_mem_cons.mp shiftedSelectorsKnown
      refine (Assembly.Sound.lift (Synthesis.constant_sound _)).bind fun id => ?_
      refine (multiplyOptions_sound (challengesKnown.mono Set.subset_union_left) (by simp)
        (by simp [selectorKnown]) (by simp [shiftedSelectorKnown]) (by simp [productKnown])
        (fun cell member => .inl (optionsKnown cell member))
        fun cell member => .inl (shiftedKnown cell member)).bind fun result => ?_
      have included : known ⊆ known ∪ {id}
          ∪ {cell | cell = result.1 ∨ cell ∈ result.2.1 ∨ cell ∈ result.2.2} :=
        Set.subset_union_left.trans Set.subset_union_left
      exact inductionHypothesis (challengesKnown.mono included) (by simp)
        (fun cell member => included (selectorsKnown cell member))
        (fun cell member => included (shiftedSelectorsKnown cell member))
        (fun cell member => .inr (.inr (.inl member)))
        fun cell member => .inr (.inr (.inr member))

/-- The product stays settled after the factors of the sorted pairs. -/
theorem multiplySorted_sound
    {known : Set (Cell field)}
    {challenges : LookupChallenges field}
    {product : Cell field}
    {sorted : List (Cell field)}
    (challengesKnown : ChallengesKnown known challenges)
    (productKnown : product ∈ known)
    (sortedKnown : ∀ cell ∈ sorted, cell ∈ known) :
    Synthesis.Sound known (multiplySorted challenges product sorted) ({·}) := by
  have unchanged : Synthesis.Sound known (Pure.pure product) ({·}) := by
    refine Synthesis.Sound.pure ?_
    rintro cell rfl
    exact productKnown
  match sorted with
  | [] => exact unchanged
  | [_] => exact unchanged
  | value :: shifted :: rest =>
      have valueKnown := sortedKnown value (by simp)
      have shiftedKnown := sortedKnown shifted (by simp)
      refine (multiplyPair_sound challengesKnown productKnown valueKnown shiftedKnown).bind
        fun product => ?_
      exact multiplySorted_sound (challengesKnown.mono Set.subset_union_left) (by simp)
        fun cell member => .inl (sortedKnown cell (by simp [member]))

/-- The differences of settled cells are settled. -/
theorem linkDifferences_sound
    {known : Set (Cell field)}
    {sorted : List (Cell field)}
    (sortedKnown : ∀ cell ∈ sorted, cell ∈ known) :
    Synthesis.Sound known (linkDifferences sorted) (fun links => {cell | cell ∈ links}) := by
  match sorted with
  | [] | [_] | [_, _] => exact Synthesis.Sound.pure (by simp)
  | _ :: shifted :: value :: rest =>
      have shiftedKnown := sortedKnown shifted (by simp)
      have valueKnown := sortedKnown value (by simp)
      refine (Synthesis.sub_sound (by simp [valueKnown]) (by simp [shiftedKnown])).bind
        fun difference => ?_
      refine (linkDifferences_sound fun cell member =>
        .inl (sortedKnown cell (by simp_all))).bind fun links => ?_
      refine Synthesis.Sound.pure fun cell isOutput => ?_
      rcases List.mem_cons.mp isOutput with rfl | later
      · simp
      · exact .inr later

/-- The four values of a lookup argument, from its cells and both products, are settled. -/
theorem lookupResult_sound
    {input : LookupCells field}
    {one numerator denominator : Cell field}
    (inputKnown : ∀ cell ∈ input.all, cell ∈ known)
    (oneKnown : one ∈ known)
    (numeratorKnown : numerator ∈ known)
    (denominatorKnown : denominator ∈ known) :
    Synthesis.Sound known (lookupResult input one numerator denominator)
      (fun result => {cell | cell ∈ result.toList}) := by
  have currentKnown : input.accumulator.current ∈ known := inputKnown _ (by simp [LookupCells.all])
  have nextKnown : input.accumulator.next ∈ known := inputKnown _ (by simp [LookupCells.all])
  have firstKnown : input.firstRow ∈ known := inputKnown _ (by simp [LookupCells.all])
  have lastKnown : input.lastRow.current ∈ known := inputKnown _ (by simp [LookupCells.all])
  have blindKnown : input.blindRows.current ∈ known := inputKnown _ (by simp [LookupCells.all])
  have alphasKnown : ∀ cell ∈ input.alphas, cell ∈ known :=
    fun cell member => inputKnown cell (by simp [LookupCells.all, member])
  have sortedKnown : ∀ cell ∈ input.sorted, cell ∈ known :=
    fun cell member => inputKnown cell (by simp [LookupCells.all, member])
  refine (Synthesis.sub_sound (by simp [oneKnown]) (by simp [currentKnown])).bind
    fun notOne => ?_
  refine (Synthesis.mul_sound (by simp [firstKnown]) (by simp)).bind fun first => ?_
  refine (Synthesis.mul_sound (by simp [currentKnown]) (by simp [currentKnown])).bind
    fun square => ?_
  refine (Synthesis.sub_sound (by simp) (by simp [currentKnown])).bind fun notBit => ?_
  refine (Synthesis.mul_sound (by simp [lastKnown]) (by simp)).bind fun last => ?_
  refine (Synthesis.add_sound (by simp [lastKnown]) (by simp [blindKnown])).bind
    fun inactive => ?_
  refine (Synthesis.sub_sound (by simp [oneKnown]) (by simp)).bind fun active => ?_
  refine (Synthesis.mul_sound (by simp [nextKnown]) (by simp [denominatorKnown])).bind
    fun next => ?_
  refine (Synthesis.mul_sound (by simp [currentKnown]) (by simp [numeratorKnown])).bind
    fun current => ?_
  refine (Synthesis.sub_sound (by simp) (by simp)).bind fun change => ?_
  refine (Synthesis.mul_sound (by simp) (by simp)).bind fun step => ?_
  refine (linkDifferences_sound fun cell member => by simp [sortedKnown cell member]).bind
    fun differences => ?_
  refine (innerProductOfCells_sound (fun cell member => by simp [alphasKnown cell member])
    fun cell member => by simp [member]).bind fun linked => ?_
  refine (Synthesis.mul_sound (by simp [firstKnown]) (by simp)).bind fun links => ?_
  refine Synthesis.Sound.pure fun cell isOutput => ?_
  simp only [LookupResult.toList, Set.mem_ofPred_eq, List.mem_cons, List.not_mem_nil, or_false]
    at isOutput
  rcases isOutput with rfl | rfl | rfl | rfl <;> simp

/-- What is derived from settled challenges is settled. -/
theorem deriveChallenges_sound
    {input : LookupCells field}
    {one : Cell field}
    {powers : List (Cell field)}
    (betaKnown : input.beta ∈ known)
    (gammaKnown : input.gamma ∈ known)
    (oneKnown : one ∈ known)
    (powersKnown : ∀ cell ∈ powers, cell ∈ known) :
    Synthesis.Sound known (deriveChallenges input one powers) challengeCells := by
  refine (Synthesis.add_sound (by simp [betaKnown]) (by simp [oneKnown])).bind
    fun onePlusBeta => ?_
  refine (Synthesis.mul_sound (by simp [gammaKnown]) (by simp)).bind fun gammaBeta => ?_
  refine Synthesis.Sound.pure ?_
  rintro cell (rfl | rfl | ofPowers | rfl | rfl)
  · simp [betaKnown]
  · simp [gammaKnown]
  · simp [powersKnown cell ofPowers]
  · simp
  · simp

/-- The selectors of lookup constraints are those of their gates. -/
theorem mem_constraintSelectors
    {sizes : LookupSizes}
    {selectors : List (Cell field)}
    {cell : Cell field}
    (member : cell ∈ constraintSelectors sizes selectors) :
    cell ∈ selectors := by
  obtain ⟨⟨selector, size⟩, isPair, repeated⟩ := List.mem_flatMap.mp member
  obtain rfl := List.eq_of_mem_replicate repeated
  exact (List.of_mem_zip isPair).1

/-- The values of a lookup argument are settled. -/
theorem lookupArgument_sound
    {shape : LookupShape}
    {input : LookupCells field}
    (inputKnown : ∀ cell ∈ input.all, cell ∈ known) :
    Assembly.Sound known (lookupArgument shape input)
      (fun result => {cell | cell ∈ result.toList}) := by
  have thetaKnown : input.theta ∈ known := inputKnown _ (by simp [LookupCells.all])
  have betaKnown : input.beta ∈ known := inputKnown _ (by simp [LookupCells.all])
  have gammaKnown : input.gamma ∈ known := inputKnown _ (by simp [LookupCells.all])
  refine checkLookup_sound.bind fun _ => ?_
  refine (Assembly.Sound.lift (Synthesis.constant_sound 1)).bind fun one => ?_
  refine (powersFromOne_sound (by simp [thetaKnown])).bind fun powers => ?_
  refine (Assembly.Sound.lift (deriveChallenges_sound (by simp [betaKnown])
    (by simp [gammaKnown]) (by simp) fun cell member => by simp [member])).bind
    fun challenges => ?_
  have challengesKnown := ChallengesKnown.of_subset
    (Set.subset_union_right : challengeCells challenges ⊆
      known ∪ ∅ ∪ {one} ∪ {cell | cell ∈ powers} ∪ challengeCells challenges)
  have inputLater : ∀ cell ∈ input.all,
      cell ∈ known ∪ ∅ ∪ {one} ∪ {cell | cell ∈ powers} ∪ challengeCells challenges :=
    fun cell member => .inl (.inl (.inl (.inl (inputKnown cell member))))
  have oneKnown : one ∈
      known ∪ ∅ ∪ {one} ∪ {cell | cell ∈ powers} ∪ challengeCells challenges :=
    .inl (.inl (.inr rfl))
  -- Both products and the values only need that these are known.
  generalize known ∪ ∅ ∪ {one} ∪ {cell | cell ∈ powers} ∪ challengeCells challenges = more
    at challengesKnown inputLater oneKnown
  refine (multiplyConstraints_sound challengesKnown oneKnown
    (fun cell member => inputLater cell (by simp [LookupCells.all, mem_constraintSelectors member]))
    (fun cell member => inputLater cell (by simp [LookupCells.all, member]))
    fun cell member => inputLater cell (by simp [LookupCells.all, member])).bind
    fun lookedUp => ?_
  have first : more ⊆ more ∪ {lookedUp} := Set.subset_union_left
  refine (multiplyTables_sound (challengesKnown.mono first) (by simp)
    (fun cell member => first (inputLater cell (by simp [LookupCells.all, member])))
    (fun cell member => first (inputLater cell (by simp [LookupCells.all, member])))
    (fun cell member => first (inputLater cell (by simp [LookupCells.all, member])))
    fun cell member => first (inputLater cell (by simp [LookupCells.all, member]))).bind
    fun numerator => ?_
  have second : more ⊆ more ∪ {lookedUp} ∪ {numerator} := first.trans Set.subset_union_left
  refine (Assembly.Sound.lift (multiplySorted_sound (challengesKnown.mono second)
    (second oneKnown)
    fun cell member => second (inputLater cell (by simp [LookupCells.all, member])))).bind
    fun denominator => ?_
  have third : more ⊆ more ∪ {lookedUp} ∪ {numerator} ∪ {denominator} :=
    second.trans Set.subset_union_left
  exact Assembly.Sound.lift (lookupResult_sound
    (fun cell member => third (inputLater cell member)) (third oneKnown) (by simp) (by simp))

end Gadget

end Plonkish
