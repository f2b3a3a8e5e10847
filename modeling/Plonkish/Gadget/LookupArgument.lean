import Plonkish.Gadget.GateArgument

namespace Plonkish

/-!
# Lookup arguments

The inputs of each lookup constraint and the columns of each table option are
compressed with powers of a challenge, beginning with its first power. The
compressed values enter two products: one over lookup constraints and table
options, and one over the sorted values. The results are the four values that
vanish for an honest argument: the first and the last value of the accumulator,
its step, and the links between adjacent sorted values.
-/

/-- The sizes of the lookup gates and tables. -/
structure LookupSizes where
  /-- How many constraints each lookup gate has. -/
  gateConstraints : List UInt64
  /-- How many inputs each constraint has, over all gates. -/
  constraintInputs : List UInt64
  /-- How many options each table has. -/
  tableOptions : List UInt64
  /-- How many columns each table has. -/
  tableColumns : List UInt64
  deriving DecidableEq

namespace LookupSizes

/-- How many constraints all gates have, if that is a size. -/
def constraints? (sizes : LookupSizes) : Option Nat :=
  Sizes.total? sizes.gateConstraints

/-- How many inputs all constraints have, if that is a size. -/
def inputs? (sizes : LookupSizes) : Option Nat :=
  Sizes.total? sizes.constraintInputs

/-- How many cells the options of all tables have, if that is a size. -/
def options? (sizes : LookupSizes) : Option Nat :=
  Sizes.totalProduct? (sizes.tableOptions.zip sizes.tableColumns)

/-- The largest number of values that are compressed together. -/
def widest (sizes : LookupSizes) : Nat :=
  max (Sizes.largest sizes.constraintInputs) (Sizes.largest sizes.tableColumns)

end LookupSizes

/-- Sizes that agree with each other, with their totals. -/
structure LookupShape where
  sizes : LookupSizes
  constraints : Nat
  inputs : Nat
  options : Nat
  deriving DecidableEq

namespace LookupShape

/-- The shape, if the declared numbers of gates and tables and all totals agree with the sizes. -/
def make (gates tables : Nat) (sizes : LookupSizes) : Except CircuitFailure LookupShape :=
  if sizes.gateConstraints.length ≠ gates then
    .error (.shape (.lookupGates gates sizes.gateConstraints.length))
  else if sizes.tableOptions.length ≠ tables ∨ sizes.tableColumns.length ≠ tables then
    .error (.shape
      (.lookupTables tables sizes.tableOptions.length sizes.tableColumns.length))
  else
    match sizes.constraints?, sizes.inputs?, sizes.options? with
    | some constraints, some inputs, some options =>
        if sizes.constraintInputs.length ≠ constraints then
          .error (.shape (.lookupInputs constraints sizes.constraintInputs.length))
        else
          .ok { sizes, constraints, inputs, options }
    | _, _, _ => .error (.shape .lookupSizesOverflow)

end LookupShape

/-- A value at the current and at the next row. -/
structure RowPair (field : PrimeField) where
  current : Cell field
  next : Cell field

/-- The cells of a lookup argument. -/
structure LookupCells (field : PrimeField) where
  theta : Cell field
  beta : Cell field
  gamma : Cell field
  alphas : List (Cell field)
  accumulator : RowPair field
  lastRow : RowPair field
  blindRows : RowPair field
  firstRow : Cell field
  gateSelectors : List (Cell field)
  tableIds : List (Cell field)
  lookupInputs : List (Cell field)
  tableSelectors : List (Cell field)
  options : List (Cell field)
  shiftedTableSelectors : List (Cell field)
  shiftedOptions : List (Cell field)
  /-- Each sorted value is followed by its shifted value. -/
  sorted : List (Cell field)

/-- The four values of a lookup argument. -/
structure LookupResult (field : PrimeField) where
  first : Cell field
  last : Cell field
  step : Cell field
  links : Cell field

namespace LookupResult

variable {field : PrimeField}

/-- The values in order. -/
def toList (result : LookupResult field) : List (Cell field) :=
  [result.first, result.last, result.step, result.links]

end LookupResult

namespace Gadget

variable {field : PrimeField}

/-- The largest number of cells that can be held at once. -/
def largestReserve : Nat := ((1 <<< 63) - 1) / 104

/-- As many powers of a challenge as asked for, from its first power on. -/
def powersFromOne (challenge : Cell field) (count : Nat) : Assembly field (List (Cell field)) :=
  if largestReserve < count then Assembly.crash
  else
    match count with
    | 0 => pure []
    | further + 1 => geometric challenge challenge further

/-- A value, plus the sum of values times powers. -/
def compress (base : Cell field) (powers values : List (Cell field)) :
    Synthesis field (Cell field) :=
  Synthesis.innerProduct
    (((base :: values).map Source.existing).zip
      (.constant 1 :: powers.map Source.existing))

/-- Check the numbers of cells of a lookup argument. -/
def checkLookup (shape : LookupShape) (input : LookupCells field) : Assembly field Unit := do
  let pairs := max (input.sorted.length / 2) 1
  let gates := shape.sizes.gateConstraints.length
  let tables := shape.sizes.tableOptions.length
  Assembly.checkLength "sorted" (2 * pairs) input.sorted
  Assembly.checkLength "alphas" (pairs - 1) input.alphas
  Assembly.checkLength "gate_selectors" gates input.gateSelectors
  Assembly.checkLength "constraints_table_ids" shape.constraints input.tableIds
  Assembly.checkLength "constraints_lookup_inputs" shape.inputs input.lookupInputs
  Assembly.checkLength "table_selectors" tables input.tableSelectors
  Assembly.checkLength "shifted_table_selectors" tables input.shiftedTableSelectors
  Assembly.checkLength "table_lookup_options" shape.options input.options
  Assembly.checkLength "shifted_table_lookup_options" shape.options input.shiftedOptions

/-- The challenges of both products, and what is derived from them. -/
structure LookupChallenges (field : PrimeField) where
  beta : Cell field
  gamma : Cell field
  /-- The powers with which values are compressed. -/
  powers : List (Cell field)
  onePlusBeta : Cell field
  /-- The product of `gamma` and `1 + beta`. -/
  gammaBeta : Cell field

/-- Derive what the products need from the challenges. -/
def deriveChallenges
    (input : LookupCells field)
    (one : Cell field)
    (powers : List (Cell field)) :
    Synthesis field (LookupChallenges field) := do
  let onePlusBeta ← Synthesis.add input.beta one
  let gammaBeta ← Synthesis.mul input.gamma onePlusBeta
  return { beta := input.beta, gamma := input.gamma, powers, onePlusBeta, gammaBeta }

/-- Multiply a product by the factor of one lookup constraint. -/
def multiplyConstraint
    (challenges : LookupChallenges field)
    (product selector tableId : Cell field)
    (values : List (Cell field)) :
    Synthesis field (Cell field) := do
  let compressed ← compress tableId challenges.powers values
  let selected ← Synthesis.mul selector compressed
  let shifted ← Synthesis.add challenges.gamma selected
  let factor ← Synthesis.mul challenges.onePlusBeta shifted
  Synthesis.mul product factor

/-- Multiply a product by the factors of lookup constraints, each with the selector of its gate. -/
def multiplyConstraints
    (challenges : LookupChallenges field)
    (product : Cell field) :
    (selectors : List (Cell field)) →
    (widths : List UInt64) →
    (tableIds inputs : List (Cell field)) →
    Assembly field (Cell field)
  | [], _, _, _ => return product
  | selector :: selectors, width :: widths, tableId :: tableIds, inputs => do
      let (values, inputs) ← Assembly.split width.toNat inputs
      let product ← multiplyConstraint challenges product selector tableId values
      multiplyConstraints challenges product selectors widths tableIds inputs
  | _ :: _, _, _, _ => Assembly.crash

/-- Multiply a product by the factor of a value and its shifted value. -/
def multiplyPair
    (challenges : LookupChallenges field)
    (product value shifted : Cell field) :
    Synthesis field (Cell field) := do
  let sum ← Synthesis.add challenges.gammaBeta value
  let factor ← Synthesis.mulAdd challenges.beta shifted sum
  Synthesis.mul product factor

/-- One table: its number of columns, its number, and its selectors. -/
structure LookupTable (field : PrimeField) where
  columns : Nat
  id : Cell field
  selector : Cell field
  shiftedSelector : Cell field

/-- Multiply a product by the factor of one option of a table. -/
def multiplyOption
    (challenges : LookupChallenges field)
    (table : LookupTable field)
    (product : Cell field)
    (option shiftedOption : List (Cell field)) :
    Synthesis field (Cell field) := do
  let row ← compress table.id challenges.powers option
  let shiftedRow ← compress table.id challenges.powers shiftedOption
  let value ← Synthesis.mul table.selector row
  let shifted ← Synthesis.mul table.shiftedSelector shiftedRow
  multiplyPair challenges product value shifted

/-- Multiply a product by the factors of options of one table; also the later options. -/
def multiplyOptions
    (challenges : LookupChallenges field)
    (table : LookupTable field)
    (product : Cell field) :
    Nat →
    (options shiftedOptions : List (Cell field)) →
    Assembly field (Cell field × List (Cell field) × List (Cell field))
  | 0, options, shiftedOptions => return (product, options, shiftedOptions)
  | count + 1, options, shiftedOptions => do
      let (option, options) ← Assembly.split table.columns options
      let (shiftedOption, shiftedOptions) ← Assembly.split table.columns shiftedOptions
      let product ← multiplyOption challenges table product option shiftedOption
      multiplyOptions challenges table product count options shiftedOptions

/-- Multiply a product by the factors of the options of all tables. -/
def multiplyTables
    (challenges : LookupChallenges field)
    (product : Cell field)
    (number : Nat) :
    (sizes : List (UInt64 × UInt64)) →
    (selectors shiftedSelectors options shiftedOptions : List (Cell field)) →
    Assembly field (Cell field)
  | [], _, _, _, _ => return product
  | (count, columns) :: sizes, selector :: selectors, shiftedSelector :: shiftedSelectors,
      options, shiftedOptions => do
      let id ← Synthesis.constant (Element.ofNat field (number + 1))
      let table := { columns := columns.toNat, id, selector, shiftedSelector }
      let (product, options, shiftedOptions) ←
        multiplyOptions challenges table product count.toNat options shiftedOptions
      multiplyTables challenges product (number + 1) sizes selectors shiftedSelectors
        options shiftedOptions
  | _ :: _, _, _, _, _ => Assembly.crash

/-- Multiply a product by the factors of the sorted values. -/
def multiplySorted
    (challenges : LookupChallenges field)
    (product : Cell field) :
    List (Cell field) → Synthesis field (Cell field)
  | value :: shifted :: rest => do
      let product ← multiplyPair challenges product value shifted
      multiplySorted challenges product rest
  | _ => return product

/-- The differences between each sorted value but the first and the shifted value before it. -/
def linkDifferences : List (Cell field) → Synthesis field (List (Cell field))
  | _ :: shifted :: value :: rest => do
      let difference ← Synthesis.sub value shifted
      return difference :: (← linkDifferences (value :: rest))
  | _ => return []

/-- Evaluate the four values from both products. -/
def lookupResult
    (input : LookupCells field)
    (one numerator denominator : Cell field) :
    Synthesis field (LookupResult field) := do
  let accumulator := input.accumulator
  let notOne ← Synthesis.sub one accumulator.current
  let first ← Synthesis.mul input.firstRow notOne
  let square ← Synthesis.mul accumulator.current accumulator.current
  let notBit ← Synthesis.sub square accumulator.current
  let last ← Synthesis.mul input.lastRow.current notBit
  let inactive ← Synthesis.add input.lastRow.current input.blindRows.current
  let active ← Synthesis.sub one inactive
  let next ← Synthesis.mul accumulator.next denominator
  let current ← Synthesis.mul accumulator.current numerator
  let change ← Synthesis.sub next current
  let step ← Synthesis.mul active change
  let differences ← linkDifferences input.sorted
  let linked ← innerProductOfCells input.alphas differences
  let links ← Synthesis.mul input.firstRow linked
  return { first, last, step, links }

/-- The selectors of all lookup constraints in order: that of its gate for each of them. -/
def constraintSelectors (sizes : LookupSizes) (selectors : List (Cell field)) :
    List (Cell field) :=
  (selectors.zip sizes.gateConstraints).flatMap
    fun (selector, size) => List.replicate size.toNat selector

/-- Evaluate a lookup argument. -/
def lookupArgument (shape : LookupShape) (input : LookupCells field) :
    Assembly field (LookupResult field) := do
  checkLookup shape input
  let one ← Synthesis.constant (1 : Element field)
  let powers ← powersFromOne input.theta shape.sizes.widest
  let challenges ← deriveChallenges input one powers
  let lookedUp ← multiplyConstraints challenges one
    (constraintSelectors shape.sizes input.gateSelectors) shape.sizes.constraintInputs
    input.tableIds input.lookupInputs
  let numerator ← multiplyTables challenges lookedUp 0
    (shape.sizes.tableOptions.zip shape.sizes.tableColumns)
    input.tableSelectors input.shiftedTableSelectors input.options input.shiftedOptions
  let denominator ← multiplySorted challenges one input.sorted
  lookupResult input one numerator denominator

end Gadget

end Plonkish
