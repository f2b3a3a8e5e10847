import Plonkish.Circuit.Placement
import Plonkish.Proofs.Circuit.Spacing

namespace Plonkish

/-!
# Columns of placed cells

Placement deals the cells of a transcript out to columns in order. Where it does
not break off, every cell is in a column, no column is too long, and no gate is
cut, because gates are far enough apart. A column ends at the last row at which
one may end or up to two rows above it, and its last cell is repeated in the next
one. So the number of cells tells that they have a place if each column could do
with two rows less, and that they have none if each column would have to be full.
-/

namespace Placement

variable {field : PrimeField}

/-- Consecutive cells that are placed in one column. -/
structure Column where
  first : Nat
  height : Nat

/-- A cell is placed in a column. -/
def Column.Holds (column : Column) (offset : Nat) : Prop :=
  column.first ≤ offset ∧ offset < column.first + column.height

/-- The columns of cells by the rows at which they end; the last cell of one is repeated. -/
def columnsFrom (first size : Nat) : List Nat → List Column
  | [] => [⟨first, size - first⟩]
  | ending :: rest => ⟨first, ending + 1⟩ :: columnsFrom (first + ending) size rest

/-- Columns hold all cells of a transcript in order, and no gate is cut. -/
structure Holds (columns : List Column) (rows : Nat) (transcript : Transcript field) : Prop where
  /-- No column is too long. -/
  heights : ∀ column ∈ columns, column.height ≤ rows
  /-- The last cell of a column is the first of the next. -/
  joined : columns.IsChain fun column next => next.first + 1 = column.first + column.height
  /-- Every cell is placed. -/
  cells : ∀ offset < transcript.size, ∃ column ∈ columns, column.Holds offset
  /-- The four cells of a gate are placed in one column. -/
  gates : ∀ gate ∈ transcript.gates, ∃ column ∈ columns,
    ∀ position < 4, column.Holds (gate + position)

/-! ## Rows and columns -/

/-- A column ends at a cell whose gate would not fit below it, and at its last row. -/
def EndsAt (lastRows row : Nat) (cell : Row field) : Prop :=
  (cell.gate = true ∧ lastRows < row + 4) ∨ lastRows - 1 ≤ row

instance (lastRows row : Nat) (cell : Row field) : Decidable (EndsAt lastRows row cell) :=
  inferInstanceAs (Decidable (_ ∨ _))

variable {columns lastRows column row : Nat} {cell : Row field} {cells : List (Row field)}

/-- Where a column does not end, the next cell is below. -/
theorem breakPoints?_below (inside : ¬EndsAt lastRows row cell) :
    breakPoints? columns lastRows column row (cell :: cells) =
      breakPoints? columns lastRows column (row + 1) cells :=
  if_neg inside

/-- Where the last column ends, placement breaks off. -/
theorem breakPoints?_last
    (ending : EndsAt lastRows row cell)
    (last : columns ≤ column + 1) :
    breakPoints? columns lastRows column row (cell :: cells) = none :=
  (if_pos ending).trans (if_pos last)

/-- Where another column ends, its last cell is repeated at the top of the next one. -/
theorem breakPoints?_next
    (ending : EndsAt lastRows row cell)
    (more : ¬columns ≤ column + 1) :
    breakPoints? columns lastRows column row (cell :: cells) =
      (breakPoints? columns lastRows (column + 1) 1 cells).map (row :: ·) :=
  (if_pos ending).trans (if_neg more)

/-- Cells are placed below, or at the end of a column, which is not the last one. -/
theorem breakPoints?_cases
    {ends : List Nat}
    (placed : breakPoints? columns lastRows column row (cell :: cells) = some ends) :
    (¬EndsAt lastRows row cell
        ∧ breakPoints? columns lastRows column (row + 1) cells = some ends)
      ∨ EndsAt lastRows row cell ∧ column + 1 < columns
        ∧ ∃ later, breakPoints? columns lastRows (column + 1) 1 cells = some later
          ∧ ends = row :: later := by
  by_cases ending : EndsAt lastRows row cell
  · by_cases last : columns ≤ column + 1
    · rw [breakPoints?_last ending last] at placed
      cases placed
    · rw [breakPoints?_next ending last] at placed
      obtain ⟨later, laterPlaced, rfl⟩ := Option.map_eq_some_iff.mp placed
      exact .inr ⟨ending, Nat.not_le.mp last, later, laterPlaced, rfl⟩
  · rw [breakPoints?_below ending] at placed
    exact .inl ⟨ending, placed⟩

/-! ## How many cells fit -/

/-- Cells have a place if there are not too many for columns that end as early as they can. -/
theorem exists_breakPoints?
    (room : cells.length + row ≤ (columns - column) * (lastRows - 3)) :
    ∃ ends, breakPoints? columns lastRows column row cells = some ends := by
  induction cells generalizing column row with
  | nil => exact ⟨[], rfl⟩
  | cons cell rest inductionHypothesis =>
      rw [List.length_cons] at room
      by_cases ending : EndsAt lastRows row cell
      · have late : lastRows - 3 ≤ row := by
          rcases ending with ⟨-, beyond⟩ | lastRow
          · omega
          · omega
        by_cases last : columns ≤ column + 1
        · have few : (columns - column) * (lastRows - 3) ≤ 1 * (lastRows - 3) :=
            Nat.mul_le_mul_right _ (by omega)
          omega
        · have left : columns - column = columns - (column + 1) + 1 := by omega
          rw [left, Nat.succ_mul] at room
          obtain ⟨later, placed⟩ :
              ∃ later, breakPoints? columns lastRows (column + 1) 1 rest = some later :=
            inductionHypothesis (by omega)
          exact ⟨row :: later, by rw [breakPoints?_next ending last, placed]; rfl⟩
      · obtain ⟨ends, placed⟩ :
            ∃ ends, breakPoints? columns lastRows column (row + 1) rest = some ends :=
          inductionHypothesis (by omega)
        exact ⟨ends, by rw [breakPoints?_below ending, placed]⟩

/-- Placed cells leave the last row free, and one cell of each column but the last is repeated. -/
theorem length_le_of_breakPoints?
    {ends : List Nat}
    (placed : breakPoints? columns lastRows column row cells = some ends)
    (twoRows : 2 ≤ lastRows)
    (isColumn : column < columns)
    (isRow : row ≤ lastRows - 1) :
    cells.length + row ≤ (columns - column) * (lastRows - 1) := by
  induction cells generalizing column row ends with
  | nil =>
      rw [List.length_nil, Nat.zero_add]
      exact isRow.trans (Nat.le_mul_of_pos_left _ (Nat.sub_pos_of_lt isColumn))
  | cons cell rest inductionHypothesis =>
      rw [List.length_cons]
      rcases breakPoints?_cases placed with ⟨inside, below⟩ | ⟨-, more, later, above, rfl⟩
      · have room := inductionHypothesis below isColumn (by unfold EndsAt at inside; omega)
        omega
      · have room := inductionHypothesis above more (by omega)
        have left : columns - column = columns - (column + 1) + 1 := by omega
        rw [left, Nat.succ_mul]
        omega

/-- There are as many columns as rows at which one ends, and one more. -/
theorem length_ends_of_breakPoints?
    {ends : List Nat}
    (placed : breakPoints? columns lastRows column row cells = some ends)
    (isColumn : column < columns) :
    column + ends.length < columns := by
  induction cells generalizing column row ends with
  | nil =>
      obtain rfl : [] = ends := Option.some.inj placed
      exact isColumn
  | cons cell rest inductionHypothesis =>
      rcases breakPoints?_cases placed with ⟨-, below⟩ | ⟨-, more, later, above, rfl⟩
      · exact inductionHypothesis below isColumn
      · have fewer := inductionHypothesis above more
        rw [List.length_cons]
        omega

/-! ## What the columns hold -/

@[simp] theorem length_columnsFrom (first size : Nat) (ends : List Nat) :
    (columnsFrom first size ends).length = ends.length + 1 := by
  induction ends generalizing first with
  | nil => rfl
  | cons ending rest inductionHypothesis => simp [columnsFrom, inductionHypothesis]

/-- The last cell of a column is the first of the next. -/
theorem joined_columnsFrom (first size : Nat) (ends : List Nat) :
    (columnsFrom first size ends).IsChain
      fun column next => next.first + 1 = column.first + column.height := by
  induction ends generalizing first with
  | nil => exact List.isChain_singleton _
  | cons ending rest inductionHypothesis =>
      have later := inductionHypothesis (first + ending)
      cases rest with
      | nil => exact List.isChain_cons_cons.mpr ⟨Nat.add_assoc first ending 1, later⟩
      | cons nextEnding rest =>
          exact List.isChain_cons_cons.mpr ⟨Nat.add_assoc first ending 1, later⟩

variable {first size : Nat}

/-- No column is longer than it may be. -/
theorem heights_of_breakPoints?
    {ends : List Nat}
    (placed : breakPoints? columns lastRows column row cells = some ends)
    (twoRows : 2 ≤ lastRows)
    (isRow : row ≤ lastRows - 1)
    (isSize : size = first + row + cells.length) :
    ∀ column ∈ columnsFrom first size ends, column.height ≤ lastRows := by
  induction cells generalizing column row first ends with
  | nil =>
      obtain rfl : [] = ends := Option.some.inj placed
      intro column member
      obtain rfl := List.mem_singleton.mp member
      rw [List.length_nil] at isSize
      dsimp only
      omega
  | cons cell rest inductionHypothesis =>
      rw [List.length_cons] at isSize
      rcases breakPoints?_cases placed with ⟨inside, below⟩ | ⟨-, -, later, above, rfl⟩
      · exact inductionHypothesis below (by unfold EndsAt at inside; omega) (by omega)
      · intro column member
        rcases List.mem_cons.mp member with rfl | isLater
        · dsimp only
          omega
        · exact inductionHypothesis above (by omega) (by omega) column isLater

/-- Every cell is in a column. -/
theorem exists_column
    {ends : List Nat}
    (placed : breakPoints? columns lastRows column row cells = some ends)
    (isSize : size = first + row + cells.length)
    {offset : Nat}
    (later : first ≤ offset)
    (isCell : offset < size) :
    ∃ column ∈ columnsFrom first size ends, column.Holds offset := by
  induction cells generalizing column row first ends with
  | nil =>
      obtain rfl : [] = ends := Option.some.inj placed
      refine ⟨_, List.mem_singleton_self _, later, ?_⟩
      dsimp only
      omega
  | cons cell rest inductionHypothesis =>
      rw [List.length_cons] at isSize
      rcases breakPoints?_cases placed with ⟨-, below⟩ | ⟨-, -, laterEnds, above, rfl⟩
      · exact inductionHypothesis below (by omega) later
      · by_cases here : offset < first + row
        · refine ⟨_, List.mem_cons_self, later, ?_⟩
          dsimp only
          omega
        · obtain ⟨column, member, holds⟩ :=
            inductionHypothesis above (by omega) (Nat.not_lt.mp here)
          exact ⟨column, List.mem_cons_of_mem _ member, holds⟩

/--
Every gate is in one column.

The induction is on the cells that are not placed yet. The gates that start in
the current column fit below it, and no other one starts before they end, so the
column does not end before them either.
-/
theorem exists_column_of_gate
    {ends : List Nat}
    {selectors earlier : List Bool}
    (placed : breakPoints? columns lastRows column row cells = some ends)
    (fourRows : 4 ≤ lastRows)
    (isSpaced : spaced selectors = true)
    (split : selectors = earlier ++ cells.map Row.gate)
    (position : earlier.length = first + row)
    (fits : ∀ gate, first ≤ gate → gate < first + row → selectors[gate]? = some true →
      gate + 4 ≤ first + lastRows)
    {gate : Nat}
    (starts : selectors[gate]? = some true)
    (later : first ≤ gate) :
    ∃ column ∈ columnsFrom first selectors.length ends,
      ∀ position < 4, column.Holds (gate + position) := by
  obtain ⟨whole, -, -⟩ := gap_of_spaced isSpaced starts
  induction cells generalizing column row first ends earlier with
  | nil =>
      obtain rfl : [] = ends := Option.some.inj placed
      refine ⟨_, List.mem_singleton_self _, fun position inside => ?_⟩
      unfold Column.Holds
      dsimp only
      omega
  | cons cell rest inductionHypothesis =>
      have splitNext : selectors = (earlier ++ [cell.gate]) ++ rest.map Row.gate := by
        rw [split]
        simp
      have current : selectors[first + row]? = some cell.gate := by
        rw [split, ← position]
        simp
      rcases breakPoints?_cases placed with ⟨inside, below⟩ | ⟨ending, -, laterEnds, above, rfl⟩
      · have fitsBelow : ∀ gate, first ≤ gate → gate < first + (row + 1) →
            selectors[gate]? = some true → gate + 4 ≤ first + lastRows := by
          intro other otherLater otherBefore otherStarts
          by_cases isCurrent : other = first + row
          · subst isCurrent
            rw [current] at otherStarts
            have isGate : cell.gate = true := Option.some.inj otherStarts
            have enoughRows : ¬lastRows < row + 4 := fun beyond => inside (.inl ⟨isGate, beyond⟩)
            omega
          · exact fits other otherLater (by omega) otherStarts
        exact inductionHypothesis below splitNext (by simp [position]; omega) fitsBelow later
      · by_cases before : gate < first + row
        · -- the column ends behind the gate: a gate that ends it starts where this one ends
          have ended : gate + 3 ≤ first + row := by
            have fit := fits gate later before starts
            rcases ending with ⟨isGate, -⟩ | lastRow
            · obtain ⟨-, noFirst, noSecond⟩ := gap_of_spaced isSpaced starts
              rw [isGate] at current
              have notFirst : gate + 1 ≠ first + row := by
                intro same
                rw [same, current] at noFirst
                cases noFirst
              have notSecond : gate + 2 ≠ first + row := by
                intro same
                rw [same, current] at noSecond
                cases noSecond
              omega
            · omega
          refine ⟨_, List.mem_cons_self, fun position inside => ?_⟩
          unfold Column.Holds
          dsimp only
          omega
        · have fitsNext : ∀ gate, first + row ≤ gate → gate < first + row + 1 →
              selectors[gate]? = some true → gate + 4 ≤ first + row + lastRows := by
            intro other _ _ _
            omega
          obtain ⟨column, member, holds⟩ :=
            inductionHypothesis above splitNext (by simp [position]) fitsNext
              (Nat.not_lt.mp before)
          exact ⟨column, List.mem_cons_of_mem _ member, holds⟩

/-- Placed cells are held by as many columns as there are, or fewer. -/
theorem exists_columns
    {transcript : Transcript field}
    {ends : List Nat}
    (placed : breakPoints? columns lastRows 0 0 transcript.rows.toList = some ends)
    (isSpaced : transcript.Spaced)
    (fourRows : 4 ≤ lastRows)
    (someColumn : 0 < columns) :
    ∃ placement : List Column, placement.length ≤ columns
      ∧ Holds placement lastRows transcript := by
  have isSize : transcript.size = 0 + 0 + transcript.rows.toList.length := by
    simp [Transcript.size]
  have count := length_ends_of_breakPoints? placed someColumn
  refine ⟨columnsFrom 0 transcript.size ends, by simp; omega, ?_, joined_columnsFrom _ _ _, ?_, ?_⟩
  · exact heights_of_breakPoints? placed (by omega) (Nat.zero_le _) isSize
  · intro offset isCell
    exact exists_column placed isSize (Nat.zero_le offset) isCell
  · intro gate member
    have starts := Transcript.mem_gates_iff_selectors.mp member
    have noGate : ∀ gate, 0 ≤ gate → gate < 0 + 0 → transcript.selectors[gate]? = some true →
        gate + 4 ≤ 0 + lastRows := by
      intro other _ before _
      omega
    have held := exists_column_of_gate placed fourRows isSpaced (List.nil_append _).symm rfl noGate
      starts (Nat.zero_le gate)
    rwa [Transcript.length_selectors] at held

/-! ## Layouts -/

variable {layout : Layout} {lengths : List Nat} {transcript : Transcript field}

/-- What a layout has to have room for: a gate, the cells, the constants and the public inputs. -/
structure Fits (layout : Layout) (lengths : List Nat) (transcript : Transcript field) : Prop where
  size : smallestPlaceableSize ≤ layout.k
  cells : ∃ ends, breakPoints? layout.adviceColumns ((1 <<< layout.k) - unplacedRows) 0 0
    transcript.rows.toList = some ends
  constants : transcript.distinctConstants.length ≤
    layout.fixedColumns * ((1 <<< layout.k) - blindingRows)
  publicInputs : ∀ length ∈ lengths, length ≤ (1 <<< layout.k) - blindingRows

/-- The fixed columns hold constants if there is a fixed column and they fill no more rows. -/
theorem fixedColumnsSuffice_iff
    {constants : Nat}
    (someColumn : 0 < constants → 0 < layout.fixedColumns) :
    fixedColumnsSuffice layout constants = true ↔
      constants ≤ layout.fixedColumns * ((1 <<< layout.k) - blindingRows) := by
  unfold fixedColumnsSuffice
  rcases Nat.eq_zero_or_pos constants with rfl | positive
  · simp
  · have notZero : constants ≠ 0 := Nat.pos_iff_ne_zero.mp positive
    simp only [notZero, decide_false, Bool.false_or, decide_eq_true_eq,
      Nat.div_lt_iff_lt_mul (someColumn positive)]
    rw [Nat.mul_comm]
    omega

/-- A transcript is placed exactly if the layout has room for it. -/
theorem exists_ofTranscript?_iff
    (someColumn : 0 < transcript.distinctConstants.length → 0 < layout.fixedColumns) :
    (∃ ends, ofTranscript? layout lengths transcript = some ends) ↔
      Fits layout lengths transcript := by
  unfold ofTranscript?
  constructor
  · rintro ⟨ends, placed⟩
    split at placed
    next => cases placed
    next bigEnough =>
      split at placed
      next => cases placed
      next short =>
        split at placed
        next suffice =>
          exact {
            size := Nat.not_lt.mp bigEnough
            cells := ⟨ends, placed⟩
            constants := (fixedColumnsSuffice_iff someColumn).mp suffice
            publicInputs := by simpa using short
          }
        next => cases placed
  · intro fits
    obtain ⟨ends, placed⟩ := fits.cells
    have notSmall : ¬layout.k < smallestPlaceableSize := Nat.not_lt.mpr fits.size
    have short : ¬(lengths.any fun length =>
        decide ((1 <<< layout.k) - blindingRows < length)) = true := by
      simpa using fits.publicInputs
    have suffice := (fixedColumnsSuffice_iff someColumn).mpr fits.constants
    rw [if_neg notSmall, if_neg short, if_pos suffice]
    exact ⟨ends, placed⟩

end Placement

/-- A quotient that is rounded up is the least number that times the divisor covers the dividend. -/
theorem quotientUp_le_iff {dividend divisor columns : Nat} (positive : 0 < divisor) :
    quotientUp dividend divisor ≤ columns ↔ dividend ≤ columns * divisor := by
  rw [quotientUp, Nat.div_le_iff_le_mul positive]
  omega

/-- A quotient that is rounded up times the divisor is no less than the dividend. -/
theorem le_quotientUp_mul (dividend : Nat) {divisor : Nat} (positive : 0 < divisor) :
    dividend ≤ quotientUp dividend divisor * divisor :=
  (quotientUp_le_iff positive).mp le_rfl

namespace Policy

variable {policy : Policy}

/-- An accepted policy leaves a row that is not reserved. -/
theorem minimumRows_lt_of_validate (accepted : policy.validate = .ok ()) :
    policy.minimumRows < 1 <<< policy.k := by
  unfold validate at accepted
  split at accepted
  · cases accepted
  split at accepted
  · cases accepted
  next enough => exact Nat.not_le.mp enough

/-- The columns of a layout hold the cells and the constants, if no row but the reserved is lost. -/
theorem columns_of_layout
    {field : PrimeField}
    {transcript : Transcript field}
    {columns : Layout}
    (accepted : policy.validate = .ok ())
    (laidOut : policy.layout transcript = .ok columns) :
    columns.k = policy.k
      ∧ 0 < columns.adviceColumns
      ∧ transcript.size ≤ columns.adviceColumns * ((1 <<< policy.k) - policy.minimumRows)
      ∧ (0 < transcript.distinctConstants.length → 0 < columns.fixedColumns) := by
  have usable := minimumRows_lt_of_validate accepted
  unfold layout columnsFor at laidOut
  dsimp only at laidOut
  split at laidOut
  · cases laidOut
  · cases laidOut
    refine ⟨rfl, by simp, ?_, fun someConstant => ?_⟩
    · have enough := le_quotientUp_mul transcript.size (Nat.sub_pos_of_lt usable)
      exact enough.trans (Nat.mul_le_mul_right _ (Nat.le_max_left _ _))
    · have enough := le_quotientUp_mul transcript.distinctConstants.length
        (Nat.zero_lt_of_lt usable)
      exact Nat.pos_of_mul_pos_right (someConstant.trans_le enough)

end Policy

end Plonkish
