import Plonkish.Circuit.Policy
import Plonkish.Digest.Sha256
import Plonkish.Field.Text
import Plonkish.Json.Printer

namespace Plonkish

/-!
# Descriptions

The structure of a circuit as it is handed on: its columns, its gates, the pairs
of cells that are equal, the fixed cells, and the cells of the public inputs.
Pairs and fixed cells are sorted, so that equal circuits have one description,
whose digest is the fingerprint of the circuit.
-/

/-- The structure of a circuit, by offsets in its list of cells. -/
structure Description where
  k : Nat
  adviceColumns : Nat
  fixedColumns : Nat
  instanceColumns : Nat
  /-- The number of cells. -/
  rows : Nat
  /-- Where a gate starts. -/
  gates : List Nat
  /-- Cells that are equal, the earlier one first. -/
  copies : List (Nat × Nat)
  /-- Fixed cells, with their constants in hexadecimal. -/
  constants : List (Nat × String)
  /-- The cells of the first column of public inputs, in order. -/
  publicInputs : List Nat
  deriving DecidableEq

namespace Description

variable {field : PrimeField}

/-- Whether a pair comes no later than another, by its first part and then its second. -/
def copyLe (left right : Nat × Nat) : Bool :=
  left.1 < right.1 || (left.1 = right.1 && left.2 ≤ right.2)

/-- Whether a fixed cell comes no later than another, by its offset and then its text. -/
def constantLe (left right : Nat × String) : Bool :=
  left.1 < right.1 || (left.1 = right.1 && decide (left.2 ≤ right.2))

/-- The description of a transcript with a layout and exposed cells. -/
def ofTranscript
    (layout : Layout)
    (exposed : List (Cell field))
    (transcript : Transcript field) :
    Description where
  k := layout.k
  adviceColumns := layout.adviceColumns
  fixedColumns := layout.fixedColumns
  instanceColumns := layout.instanceColumns
  rows := transcript.size
  gates := transcript.gates
  copies := (transcript.copies.toList.map fun (left, right) =>
    (min left right, max left right)).mergeSort copyLe
  constants := (transcript.constants.toList.map fun (offset, value) =>
    (offset, value.toHex)).mergeSort constantLe
  publicInputs := exposed.map Cell.offset

/-- The constant of a cell: the first entry for its offset, if it is an element. -/
def constantAt?
    (field : PrimeField)
    (description : Description)
    (offset : Nat) :
    Option (Element field) := do
  let (_, text) ← description.constants.find? (·.1 = offset)
  Element.ofHex? field text

def toJson (description : Description) : Json :=
  .object [
    ("k", .natural description.k),
    ("advice_columns", .natural description.adviceColumns),
    ("fixed_columns", .natural description.fixedColumns),
    ("instance_columns", .natural description.instanceColumns),
    ("rows", .natural description.rows),
    ("gates", Json.ofList .natural description.gates),
    ("copies", Json.ofList
      (fun (left, right) => .array [.natural left, .natural right]) description.copies),
    ("constants", Json.ofList
      (fun (offset, text) => .array [.natural offset, .text text]) description.constants),
    ("public_inputs", Json.ofList .natural description.publicInputs)]

/-- Two cells that are equal. -/
def copyOfJson? (document : Json) : Option (Nat × Nat) := do
  let [left, right] ← document.list? some | none
  return (← left.size?, ← right.size?)

/-- A fixed cell with its constant. -/
def constantOfJson? (document : Json) : Option (Nat × String) := do
  let [offset, text] ← document.list? some | none
  return (← offset.size?, ← text.text?)

/-- The names of the fields of a description. -/
def fieldNames : List String :=
  ["k", "advice_columns", "fixed_columns", "instance_columns", "rows", "gates", "copies",
    "constants", "public_inputs"]

def ofJson? (document : Json) : Option Description := do
  let [k, adviceColumns, fixedColumns, instanceColumns, rows, gates, copies, constants,
    publicInputs] ← document.fields? fieldNames | none
  return {
    k := ← k.size?
    adviceColumns := ← adviceColumns.size?
    fixedColumns := ← fixedColumns.size?
    instanceColumns := ← instanceColumns.size?
    rows := ← rows.size?
    gates := ← gates.list? Json.size?
    copies := ← copies.list? copyOfJson?
    constants := ← constants.list? constantOfJson?
    publicInputs := ← publicInputs.list? Json.size?
  }

/-- The digest of the compact text. -/
def fingerprint (description : Description) : String :=
  Sha256.ofText description.toJson.compact

end Description

end Plonkish
