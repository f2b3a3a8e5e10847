import Plonkish.Circuit.Policy

namespace Plonkish

/-!
# Placement

The cells of a transcript are placed in the advice columns one after the other.
A column ends at a cell whose gate would not fit below it, and at the last row
that a column may use; that cell is repeated at the top of the next column, so
that no gate is cut. The rows at which columns end are the break points.

The distinct constants are dealt out to the fixed columns in turn. Placement
breaks off when the columns do not suffice, and when a column of public inputs
is longer than the rows that can be used.
-/

/-- How many rows of a column are taken by blinding, at least. -/
def blindingRows : Nat := 7

/-- How many rows at the end of a column no cell is placed in. -/
def unplacedRows : Nat := 9

/-- The smallest size at which the blinding rows leave room for a gate. -/
def smallestPlaceableSize : Nat := 4

namespace Placement

variable {field : PrimeField}

/--
The break points of cells, where the next cell is placed at a column and a row.

Nothing if the cells need a column that there is not.
-/
def breakPoints?
    (columns lastRows : Nat)
    (column row : Nat) :
    List (Row field) → Option (List Nat)
  | [] => some []
  | cell :: rest =>
      if (cell.gate ∧ lastRows < row + 4) ∨ lastRows - 1 ≤ row then
        if columns ≤ column + 1 then
          none
        else
          (breakPoints? columns lastRows (column + 1) 1 rest).map (row :: ·)
      else
        breakPoints? columns lastRows column (row + 1) rest

/-- Whether the fixed columns hold a number of distinct constants. -/
def fixedColumnsSuffice (layout : Layout) (constants : Nat) : Bool :=
  constants = 0 || (constants - 1) / layout.fixedColumns < (1 <<< layout.k) - blindingRows

/--
Place a transcript, where the columns of public inputs have the given lengths.

The break points, or nothing if placement breaks off.
-/
def ofTranscript?
    (layout : Layout)
    (instanceLengths : List Nat)
    (transcript : Transcript field) :
    Option (List Nat) :=
  if layout.k < smallestPlaceableSize then
    none
  else if instanceLengths.any (fun length => decide ((1 <<< layout.k) - blindingRows < length)) then
    none
  else if fixedColumnsSuffice layout transcript.distinctConstants.length then
    breakPoints? layout.adviceColumns ((1 <<< layout.k) - unplacedRows) 0 0 transcript.rows.toList
  else
    none

end Placement

end Plonkish
