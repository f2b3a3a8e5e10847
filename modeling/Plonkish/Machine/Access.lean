import Plonkish.Machine.State

namespace Plonkish

/-!
# Direct access

Steps by which a translation is driven and tampered with by hand: cells are
picked by the names they are bound to, laid out, tied, exposed and overwritten.
A handle keeps the value it had, whatever happens to the cell.
-/

/-- How a cell is picked: by a name that is bound to it, or by its place in a bound vector. -/
structure Pick where
  id : ValueId
  index : Option Nat

namespace Translation

variable {field : PrimeField}

/-- Pick a cell; crashes if the vector is too short. -/
def pick (choice : Pick) : Translation field (Cell field) := do
  let machine ← get
  match choice.index with
  | none => ofExcept (machine.frame.scalar choice.id)
  | some index =>
      let cells ← ofExcept (machine.frame.vector choice.id)
      match cells[index]? with
      | some cell => return cell
      | none => crash

/-- Lay out a cell and bind a name to it. -/
def bindNew (id : ValueId) (synthesis : Synthesis field (Cell field)) :
    Translation field (Cell field) := do
  let cell ← lay synthesis
  bind id (.scalar cell)
  return cell

/-- Bind a name to a picked cell. -/
def bindPicked (id : ValueId) (choice : Pick) : Translation field (Cell field) := do
  let cell ← pick choice
  bind id (.scalar cell)
  return cell

/-- Bind a name to the vector of the cells of other names. -/
def bindAll (id : ValueId) (names : List ValueId) : Translation field (List (Cell field)) := do
  let frame := (← get).frame
  let cells ← names.mapM fun name => ofExcept (frame.scalar name)
  bind id (.vector cells)
  return cells

/-- Write a picked cell to memory. -/
def storePicked (pointer : Nat) (choice : Pick) : Translation field Unit := do
  let cell ← pick choice
  setMemory (← ofExcept ((← get).memory.store pointer cell))

/-- Expose a picked cell in a column of public inputs; crashes if there is no such column. -/
def exposePicked (choice : Pick) (column : Nat) : Translation field Unit := do
  let cell ← pick choice
  let machine ← get
  if column < machine.instances.size then
    set { machine with instances := machine.instances.modify column (·.push cell) }
  else
    crash

/-- Ask that a picked cell equals the cell of a name. -/
def equatePicked (choice : Pick) (id : ValueId) : Translation field Unit := do
  let left ← pick choice
  let right ← ofExcept ((← get).frame.scalar id)
  lay (Synthesis.equate left right)

/-- Overwrite the value of a cell; crashes if there is no such cell. -/
def overwrite (offset : Nat) (value : Element field) : Translation field Unit := do
  let machine ← get
  if offset < machine.transcript.size then
    set { machine with transcript := machine.transcript.overwrite offset value }
  else
    crash

/-- Overwrite the value of a picked cell. -/
def overwritePicked (choice : Pick) (value : Element field) : Translation field Unit := do
  overwrite (← pick choice).offset value

end Translation

end Plonkish
