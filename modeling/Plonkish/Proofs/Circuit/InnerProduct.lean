import Mathlib.Algebra.BigOperators.Fin
import Plonkish.Proofs.Circuit.Determination

namespace Plonkish

/-!
# Inner products

An inner product is a chain of gates, each of which starts at the sum so far.
The gates of a chain add up: the last sum is the first cell plus the products
of the cells between the sums.
-/

namespace Synthesis

variable {field : PrimeField}

/-- The cells of an inner product, from a source for its first cell on. -/
def productChain
    (source : Source field)
    (sum : Element field)
    (pairs : List (Source field × Source field)) :
    List (Entry field) :=
  ⟨source, !pairs.isEmpty⟩ :: productEntries sum pairs

/-- A chain begins with a gate and continues with the chain from the next sum. -/
theorem productChain_cons
    (source : Source field)
    (sum : Element field)
    (left right : Source field)
    (rest : List (Source field × Source field)) :
    productChain source sum ((left, right) :: rest) =
      .gated source :: .plain left :: .plain right ::
        productChain (.witness (sum + left.value * right.value))
          (sum + left.value * right.value) rest := rfl

theorem productChain_nil (source : Source field) (sum : Element field) :
    productChain source sum [] = [.plain source] := rfl

theorem productChain_gates
    {assignment : Nat → Element field}
    {base : Nat}
    {source : Source field}
    {sum : Element field}
    {pairs : List (Source field × Source field)}
    (starts : source.value = sum)
    (matched : Entry.AllMatchAt assignment base (productChain source sum pairs)) :
    Entry.GatesHoldAt assignment base (productChain source sum pairs) := by
  induction pairs generalizing base source sum with
  | nil => simp [productChain_nil]
  | cons pair rest inductionHypothesis =>
      obtain ⟨left, right⟩ := pair
      rw [productChain_cons] at matched ⊢
      obtain ⟨atSum, atLeft, atRight, later⟩ := matched
      have atNext : assignment (base + 1 + 1 + 1) = sum + left.value * right.value := later.1
      refine ⟨fun _ => ?_, by simp, by simp, inductionHypothesis rfl later⟩
      simp only [Entry.gated_source, Entry.plain_source] at atSum atLeft atRight
      change assignment base + assignment (base + 1) * assignment (base + 1 + 1)
        = assignment (base + 1 + 1 + 1)
      rw [atSum, atLeft, atRight, atNext, starts]

/-- The sum of the products in a chain of gates. -/
def gateSum (assignment : Nat → Element field) (base gates : Nat) : Element field :=
  ∑ index ∈ Finset.range gates,
    assignment (base + 3 * index + 1) * assignment (base + 3 * index + 2)

theorem gateSum_succ (assignment : Nat → Element field) (base gates : Nat) :
    gateSum assignment base (gates + 1) =
      assignment (base + 1) * assignment (base + 2) + gateSum assignment (base + 3) gates := by
  simp only [gateSum, Finset.sum_range_succ', Nat.mul_add, Nat.mul_zero, Nat.mul_one,
    Nat.add_zero]
  rw [add_comm]
  congr 1
  refine Finset.sum_congr rfl fun index _ => ?_
  congr 2 <;> omega

/-- The last cell of a chain is its first cell plus all products, if its gates hold. -/
theorem productChain_last
    {assignment : Nat → Element field}
    {base : Nat}
    {source : Source field}
    {sum : Element field}
    {pairs : List (Source field × Source field)}
    (gates : Entry.GatesHoldAt assignment base (productChain source sum pairs)) :
    assignment (base + 3 * pairs.length) =
      assignment base + gateSum assignment base pairs.length := by
  induction pairs generalizing base source sum with
  | nil => simp [gateSum]
  | cons pair rest inductionHypothesis =>
      obtain ⟨left, right⟩ := pair
      rw [productChain_cons] at gates
      obtain ⟨firstGate, -, -, later⟩ := gates
      have first : assignment base + assignment (base + 1) * assignment (base + 2) =
          assignment (base + 3) := firstGate rfl
      have remaining := inductionHypothesis later
      have position : base + 3 * (rest.length + 1) = base + 3 + 3 * rest.length := by omega
      rw [List.length_cons, gateSum_succ, ← add_assoc, first, position]
      exact remaining

/-- The sum of the products of pairs of sources. -/
def productSum (pairs : List (Source field × Source field)) : Element field :=
  (pairs.map fun pair => pair.1.value * pair.2.value).sum

theorem sumOfProducts_eq
    (start : Element field)
    (pairs : List (Source field × Source field)) :
    sumOfProducts start pairs = start + productSum pairs := by
  induction pairs generalizing start with
  | nil => simp [sumOfProducts, productSum]
  | cons pair rest inductionHypothesis =>
      change sumOfProducts (start + pair.1.value * pair.2.value) rest = _
      rw [inductionHypothesis, productSum, productSum, List.map_cons, List.sum_cons, add_assoc]

/-- Where all factors are fixed, the products in a chain are those of the pairs. -/
theorem gateSum_of_fixed
    {assignment : Nat → Element field}
    {base : Nat}
    {source : Source field}
    {sum : Element field}
    {pairs : List (Source field × Source field)}
    (pairsFixed : ∀ pair ∈ pairs, pair.1.Fixed ∧ pair.2.Fixed)
    (fixed : Entry.AllFixedAt assignment base (productChain source sum pairs)) :
    gateSum assignment base pairs.length = productSum pairs := by
  induction pairs generalizing base source sum with
  | nil => simp [gateSum, productSum]
  | cons pair rest inductionHypothesis =>
      obtain ⟨left, right⟩ := pair
      rw [productChain_cons] at fixed
      obtain ⟨-, atLeft, atRight, later⟩ := fixed
      obtain ⟨leftFixed, rightFixed⟩ := pairsFixed (left, right) List.mem_cons_self
      have matchesLeft : assignment (base + 1) = left.value := atLeft leftFixed
      have matchesRight : assignment (base + 2) = right.value := atRight rightFixed
      have remaining := inductionHypothesis
        (fun pair member => pairsFixed pair (List.mem_cons_of_mem _ member)) later
      rw [List.length_cons, gateSum_succ, matchesLeft, matchesRight]
      change left.value * right.value + gateSum assignment (base + 3) rest.length = _
      rw [productSum, List.map_cons, List.sum_cons]
      exact congrArg (left.value * right.value + ·) remaining

/-- The last cell of a chain has the sum of the products as its value. -/
theorem productChain_getElem?
    (source : Source field)
    (pairs : List (Source field × Source field)) :
    ∃ entry, (productChain source source.value pairs)[3 * pairs.length]? = some entry
      ∧ entry.source.value = sumOfProducts source.value pairs := by
  induction pairs generalizing source with
  | nil => exact ⟨_, rfl, rfl⟩
  | cons pair rest inductionHypothesis =>
      obtain ⟨left, right⟩ := pair
      obtain ⟨entry, present, isSum⟩ :=
        inductionHypothesis (.witness (source.value + left.value * right.value))
      refine ⟨entry, ?_, isSum⟩
      rw [productChain_cons, List.length_cons, Nat.mul_add]
      exact present

theorem innerProduct_honest
    (source : Source field)
    (pairs : List (Source field × Source field)) :
    (Block.mk (productChain source source.value pairs) []).Honest where
  ties_inside := by simp
  ties_forward := by simp
  ties_distinct := by simp
  gates _ _ matched := productChain_gates rfl matched
  ties := by simp

/-- The last cell of an inner product is determined if all factors are fixed. -/
theorem innerProduct_determines
    {source : Source field}
    {pairs : List (Source field × Source field)}
    (sourceFixed : source.Fixed)
    (pairsFixed : ∀ pair ∈ pairs, pair.1.Fixed ∧ pair.2.Fixed) :
    (Block.mk (productChain source source.value pairs) []).Determines
      (3 * pairs.length) (sumOfProducts source.value pairs) where
  recorded := productChain_getElem? source pairs
  forced assignment base fixed gates _ := by
    have atSource : assignment base = source.value := fixed.1 sourceFixed
    rw [productChain_last gates, gateSum_of_fixed pairsFixed fixed, atSource, sumOfProducts_eq]

/-- An inner product is the sum of the products of all pairs. -/
theorem sumOfProducts_productStart (pairs : List (Source field × Source field)) :
    sumOfProducts (productStart pairs).1.value (productStart pairs).2 = productSum pairs := by
  rw [sumOfProducts_eq]
  unfold productStart
  split
  next left value rest =>
    split
    next isOne => simp [productSum, isOne]
    next => simp
  next => simp

/-- What an inner product lays out, and which cell it gives. -/
theorem innerProduct_apply
    (pairs : List (Source field × Source field))
    (transcript : Transcript field) :
    innerProduct pairs transcript =
      (⟨transcript.size + 3 * (productStart pairs).2.length, productSum pairs⟩,
        transcript.lay
          ⟨productChain (productStart pairs).1 (productStart pairs).1.value
            (productStart pairs).2, []⟩) := by
  rw [← sumOfProducts_productStart]
  rfl

/-- The first factor of a pair is the cell before its second factor. -/
theorem productChain_left
    {source : Source field}
    {sum : Element field}
    {pairs : List (Source field × Source field)}
    {index : Nat}
    {pair : Source field × Source field}
    (present : pairs[index]? = some pair) :
    (productChain source sum pairs)[3 * index + 1]? = some (.plain pair.1) := by
  induction pairs generalizing source sum index with
  | nil => cases present
  | cons head rest inductionHypothesis =>
      obtain ⟨left, right⟩ := head
      rw [productChain_cons]
      cases index with
      | zero =>
          obtain rfl := Option.some.inj present
          rfl
      | succ index =>
          let next := sum + left.value * right.value
          change (productChain (.witness next) next rest)[3 * index + 1]? = _
          exact inductionHypothesis present

/-- The second factor of a pair is its value, where it is fixed. -/
theorem right_of_fixed
    {assignment : Nat → Element field}
    {base : Nat}
    {source : Source field}
    {sum : Element field}
    {pairs : List (Source field × Source field)}
    (fixed : Entry.AllFixedAt assignment base (productChain source sum pairs))
    {index : Nat}
    {pair : Source field × Source field}
    (present : pairs[index]? = some pair)
    (rightFixed : pair.2.Fixed) :
    assignment (base + 3 * index + 2) = pair.2.value := by
  induction pairs generalizing base source sum index with
  | nil => cases present
  | cons head rest inductionHypothesis =>
      obtain ⟨left, right⟩ := head
      rw [productChain_cons] at fixed
      obtain ⟨-, -, atRight, later⟩ := fixed
      cases index with
      | zero =>
          obtain rfl := Option.some.inj present
          exact atRight rightFixed
      | succ index =>
          have position : base + 3 * (index + 1) + 2 = base + 3 + 3 * index + 2 := by omega
          rw [position]
          exact inductionHypothesis later present

/-- The sources of a chain are its first one and those of the pairs. -/
theorem mem_productChain
    {source : Source field}
    {sum : Element field}
    {pairs : List (Source field × Source field)}
    {entry : Entry field}
    (member : entry ∈ productChain source sum pairs)
    {cell : Cell field}
    (existing : entry.source = .existing cell) :
    source = .existing cell
      ∨ ∃ pair ∈ pairs, pair.1 = .existing cell ∨ pair.2 = .existing cell := by
  induction pairs generalizing source sum with
  | nil =>
      obtain rfl := List.mem_singleton.mp member
      exact .inl existing
  | cons pair rest inductionHypothesis =>
      obtain ⟨left, right⟩ := pair
      rw [productChain_cons] at member
      simp only [List.mem_cons] at member
      rcases member with rfl | rfl | rfl | later
      · exact .inl existing
      · exact .inr ⟨_, List.mem_cons_self, .inl existing⟩
      · exact .inr ⟨_, List.mem_cons_self, .inr existing⟩
      · rcases inductionHypothesis later with witness | ⟨pair, member, tied⟩
        · cases witness
        · exact .inr ⟨pair, List.mem_cons_of_mem _ member, tied⟩

variable {known : Set (Cell field)}

/-- An inner product begins with sources of a kind, if zero and all its sources are of it. -/
theorem productStart_all
    {kind : Source field → Prop}
    (zero : kind (.constant 0))
    {pairs : List (Source field × Source field)}
    (all : ∀ pair ∈ pairs, kind pair.1 ∧ kind pair.2) :
    kind (productStart pairs).1 ∧ ∀ pair ∈ (productStart pairs).2, kind pair.1 ∧ kind pair.2 := by
  unfold productStart
  split
  next left value rest =>
    split
    · exact ⟨(all _ List.mem_cons_self).1,
        fun pair member => all pair (List.mem_cons_of_mem _ member)⟩
    · exact ⟨zero, all⟩
  next => exact ⟨zero, all⟩

theorem innerProduct_sound
    {pairs : List (Source field × Source field)}
    (pairsKnown : ∀ pair ∈ pairs, pair.1.KnownTo known ∧ pair.2.KnownTo known) :
    Sound known (innerProduct pairs) ({·}) := by
  obtain ⟨startKnown, restKnown⟩ := productStart_all Source.knownTo_constant pairsKnown
  have restFixed : ∀ pair ∈ (productStart pairs).2, pair.1.Fixed ∧ pair.2.Fixed :=
    fun pair member => ⟨(restKnown pair member).1.fixed, (restKnown pair member).2.fixed⟩
  refine Sound.determined (innerProduct_honest (productStart pairs).1 (productStart pairs).2)
    (innerProduct_determines startKnown.fixed restFixed) fun entry member cell existing => ?_
  rcases mem_productChain member existing with start | ⟨pair, member, left | right⟩
  · exact startKnown.mem start
  · exact (restKnown pair member).1.mem left
  · exact (restKnown pair member).2.mem right

end Synthesis

end Plonkish
