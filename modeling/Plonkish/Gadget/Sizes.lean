import Plonkish.Circuit.Operation

namespace Plonkish

/-!
# Sizes

Sums and products of sizes that have to stay below `2 ^ 64`, and lists that are
cut into consecutive parts of given sizes.
-/

namespace Sizes

/-- The sum of two sizes, if it is a size. -/
def sum? (left right : Nat) : Option Nat :=
  if left + right < 1 <<< 64 then some (left + right) else none

/-- The product of two sizes, if it is a size. -/
def product? (left right : Nat) : Option Nat :=
  if left * right < 1 <<< 64 then some (left * right) else none

/-- Two sizes have a sum exactly if it is a size. -/
theorem sum?_eq_some_iff {left right sum : Nat} :
    sum? left right = some sum ↔ sum = left + right ∧ sum < 1 <<< 64 := by
  unfold sum?
  split <;> grind

/-- Two sizes have a product exactly if it is a size. -/
theorem product?_eq_some_iff {left right product : Nat} :
    product? left right = some product ↔ product = left * right ∧ product < 1 <<< 64 := by
  unfold product?
  split <;> grind

/-- The sum of sizes, added in order, if every partial sum is a size. -/
def total? (sizes : List UInt64) : Option Nat :=
  sizes.foldlM (fun total size => sum? total size.toNat) 0

/-- The sum of the products of pairs of sizes, if every product and partial sum is a size. -/
def totalProduct? (pairs : List (UInt64 × UInt64)) : Option Nat :=
  pairs.foldlM
    (fun total (left, right) => do sum? total (← product? left.toNat right.toNat)) 0

/-- The largest size; zero for none. -/
def largest (sizes : List UInt64) : Nat :=
  sizes.foldl (fun largest size => max largest size.toNat) 0

/-- The first items of a list and the others, if there are as many. -/
def split? (count : Nat) (items : List α) : Option (List α × List α) :=
  if count ≤ items.length then some (items.splitAt count) else none

/-- A list is cut exactly if it is long enough, and nothing of it is lost. -/
theorem split?_eq_some_iff {count : Nat} {items front back : List α} :
    split? count items = some (front, back) ↔ items = front ++ back ∧ front.length = count := by
  unfold split?
  constructor
  · intro cut
    split at cut
    next enough =>
      simp only [List.splitAt_eq, Option.some.injEq, Prod.mk.injEq] at cut
      obtain ⟨rfl, rfl⟩ := cut
      simp [enough]
    next => cases cut
  · rintro ⟨rfl, rfl⟩
    simp

end Sizes

namespace Assembly

variable {field : PrimeField}

/-- The first items of a list and the others; crashes if there are fewer. -/
def split (count : Nat) (items : List α) : Assembly field (List α × List α) :=
  match Sizes.split? count items with
  | some parts => pure parts
  | none => crash

/-- Refuse an input that has not as many cells as expected. -/
def checkLength (name : String) (expected : Nat) (cells : List (Cell field)) :
    Assembly field Unit :=
  if cells.length = expected then pure ()
  else refuse (.inputLength name expected cells.length)

end Assembly

end Plonkish
