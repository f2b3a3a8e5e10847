import Plonkish.Circuit.Failure
import Plonkish.Circuit.Transcript
import Plonkish.Json.Basic

namespace Plonkish

/-!
# Policies

A policy limits the circuit of a program: its number of rows is `2 ^ k`, some of
them are reserved, and there are limits on columns. The layout of a transcript
takes the fewest advice columns whose usable rows hold all cells, and the fewest
fixed columns that hold all distinct constants.
-/

/-- Limits for the circuit of one program. -/
structure Policy where
  /-- The logarithm of the number of rows. -/
  k : Nat
  /-- How many rows of a column are reserved. -/
  minimumRows : Nat
  /-- How many advice columns a layout may have. -/
  maxAdviceColumns : Nat
  /-- How many columns hold public inputs. -/
  instanceColumns : Nat
  deriving DecidableEq

/-- The column counts of a circuit. -/
structure Layout where
  k : Nat
  adviceColumns : Nat
  fixedColumns : Nat
  instanceColumns : Nat
  deriving DecidableEq

/-- A quotient, rounded up. -/
def quotientUp (dividend divisor : Nat) : Nat :=
  (dividend + (divisor - 1)) / divisor

namespace Transcript

variable {field : PrimeField}

/-- The values to which cells are fixed, each once. -/
def distinctConstants (transcript : Transcript field) : List (Element field) :=
  (transcript.constants.toList.map Prod.snd).eraseDups

end Transcript

namespace Policy

/-- The policy that holds where none is given. -/
def standard : Policy where
  k := 12
  minimumRows := 9
  maxAdviceColumns := 16
  instanceColumns := 1

/-- Check that a circuit can satisfy a policy at all. -/
def validate (policy : Policy) : Except CircuitFailure Unit :=
  if policy.k = 0 ∨ largestSize < policy.k then
    .error (.policy (.sizeOutOfRange policy.k))
  else if 1 <<< policy.k ≤ policy.minimumRows then
    .error (.policy (.noUsableRows policy.minimumRows policy.k))
  else if policy.maxAdviceColumns = 0 ∨ policy.instanceColumns = 0 then
    .error (.policy .noColumns)
  else
    .ok ()

/-- The rows of a column that are not reserved. -/
def usableRows (policy : Policy) : Nat :=
  (1 <<< policy.k) - policy.minimumRows

/-- The columns for a number of cells and a number of distinct constants. -/
def columnsFor (policy : Policy) (cells constants : Nat) : Except CircuitFailure Layout :=
  let needed := quotientUp cells policy.usableRows
  if policy.maxAdviceColumns < needed then
    .error (.layout needed policy.maxAdviceColumns)
  else
    .ok {
      k := policy.k
      adviceColumns := max needed 1
      fixedColumns := quotientUp constants (1 <<< policy.k)
      instanceColumns := policy.instanceColumns
    }

/-- The layout of a transcript. -/
def layout
    (policy : Policy)
    (transcript : Transcript field) :
    Except CircuitFailure Layout :=
  policy.columnsFor transcript.size transcript.distinctConstants.length

def toJson (policy : Policy) : Json :=
  .object [
    ("k", .natural policy.k),
    ("minimum_rows", .natural policy.minimumRows),
    ("max_advice_columns", .natural policy.maxAdviceColumns),
    ("instance_columns", .natural policy.instanceColumns)]

def ofJson? (document : Json) : Option Policy := do
  let [k, minimumRows, maxAdviceColumns, instanceColumns] ←
    document.fields? ["k", "minimum_rows", "max_advice_columns", "instance_columns"] | none
  return {
    k := ← k.size?
    minimumRows := ← minimumRows.size?
    maxAdviceColumns := ← maxAdviceColumns.size?
    instanceColumns := ← instanceColumns.size?
  }

end Policy

end Plonkish
