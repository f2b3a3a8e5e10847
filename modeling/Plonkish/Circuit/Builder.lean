import Plonkish.Circuit.Policy

namespace Plonkish

/-!
# Builders

A builder holds what was laid out in each phase that has begun, and the
parameters with which the circuit is configured. Counting its columns configures
it, whether or not a policy allows for as many. A circuit without any cell is
configured once more, as it takes one column all the same.
-/

/-- The parameters of a circuit; its advice columns are counted for each phase. -/
structure Parameters where
  k : Nat
  advicePerPhase : List Nat
  fixedColumns : Nat
  instanceColumns : Nat
  deriving DecidableEq

namespace Parameters

/-- The advice columns of the first phase; none if it has not begun. -/
def advice (parameters : Parameters) : Nat :=
  parameters.advicePerPhase.headD 0

/-- With one advice column in the first phase, which is begun if it has not been. -/
def withOneColumn (parameters : Parameters) : Parameters :=
  { parameters with advicePerPhase := 1 :: parameters.advicePerPhase.tail }

/-- The column counts of a circuit with these parameters. -/
def layout (parameters : Parameters) : Layout where
  k := parameters.k
  adviceColumns := parameters.advice
  fixedColumns := parameters.fixedColumns
  instanceColumns := parameters.instanceColumns

end Parameters

/-- What was laid out in each phase, and the parameters of the circuit. -/
structure Builder (field : PrimeField) where
  phases : List (Transcript field)
  config : Parameters

/-- A computation that configures a circuit, or refuses to. -/
abbrev Configuration (field : PrimeField) := ExceptT CircuitFailure (StateM (Builder field))

namespace Builder

variable {field : PrimeField}

/-- The builder of a policy, in which nothing is laid out. -/
def ofPolicy (policy : Policy) : Builder field where
  phases := []
  config := {
    k := policy.k
    advicePerPhase := []
    fixedColumns := 0
    instanceColumns := policy.instanceColumns
  }

/-- What was laid out in the first phase; nothing if it has not begun. -/
def first (builder : Builder field) : Transcript field :=
  builder.phases.headD .empty

/-- The values to which cells of any phase are fixed, each once. -/
def distinctConstants (builder : Builder field) : List (Element field) :=
  (builder.phases.flatMap fun transcript => transcript.constants.toList.map Prod.snd).eraseDups

/-- The parameters with the columns of what was laid out, if some rows are reserved. -/
def counted (builder : Builder field) (minimumRows : Nat) : Parameters :=
  { builder.config with
    advicePerPhase := builder.phases.map fun transcript =>
      quotientUp transcript.size ((1 <<< builder.config.k) - minimumRows)
    fixedColumns := quotientUp builder.distinctConstants.length (1 <<< builder.config.k) }

/-- Count the columns and configure the builder with them. -/
def calculate (minimumRows : Nat) : Configuration field Parameters :=
  modifyGet fun builder =>
    let parameters := builder.counted minimumRows
    (parameters, { builder with config := parameters })

/-- Configure the builder. -/
def configure (parameters : Parameters) : Configuration field Unit :=
  modify fun builder => { builder with config := parameters }

end Builder

/-- Fix the columns of a builder, if a policy allows for as many. -/
def Policy.fixColumns {field : PrimeField} (policy : Policy) : Configuration field Parameters := do
  let parameters ← Builder.calculate policy.minimumRows
  if policy.maxAdviceColumns < parameters.advice then
    throw (.layout parameters.advice policy.maxAdviceColumns)
  if parameters.advice = 0 then
    Builder.configure parameters.withOneColumn
    return parameters.withOneColumn
  return parameters

end Plonkish
