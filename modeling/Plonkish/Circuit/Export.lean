import Plonkish.Circuit.Description
import Plonkish.Json.Reader

namespace Plonkish

/-!
# Exports

What is handed on about a program: the structure of its circuit, and the table
of the values of its cells and public inputs. The structure does not mention
values; the table does not mention constraints.
-/

/-- The values of a circuit. -/
structure Table (field : PrimeField) where
  /-- The value of every cell. -/
  advice : List (Element field)
  /-- The values of the first column of public inputs, in order. -/
  publicInputs : List (Element field)
  deriving DecidableEq

namespace Table

variable {field : PrimeField}

/-- The table of a transcript with exposed cells. -/
def ofTranscript (exposed : List (Cell field)) (transcript : Transcript field) : Table field where
  advice := transcript.rows.toList.map Row.value
  publicInputs := exposed.map Cell.value

/-- The value of a cell. -/
def value? (table : Table field) (offset : Nat) : Option (Element field) :=
  table.advice[offset]?

/-- The document of an element. -/
def elementToJson (element : Element field) : Json :=
  .text element.toHex

/-- The element that a document holds. -/
def elementOfJson? (field : PrimeField) (document : Json) : Option (Element field) := do
  Element.ofHex? field (← document.text?)

def toJson (table : Table field) : Json :=
  .object [
    ("advice", Json.ofList elementToJson table.advice),
    ("public_inputs", Json.ofList elementToJson table.publicInputs)]

def ofJson? (field : PrimeField) (document : Json) : Option (Table field) := do
  let [advice, publicInputs] ← document.fields? ["advice", "public_inputs"] | none
  return {
    advice := ← advice.list? (elementOfJson? field)
    publicInputs := ← publicInputs.list? (elementOfJson? field)
  }

end Table

/-- The circuit and the table of one program. -/
structure Export (field : PrimeField) where
  circuit : Description
  table : Table field
  deriving DecidableEq

namespace Export

variable {field : PrimeField}

/-- The export of a transcript with a layout and exposed cells. -/
def ofTranscript
    (layout : Layout)
    (exposed : List (Cell field))
    (transcript : Transcript field) :
    Export field where
  circuit := .ofTranscript layout exposed transcript
  table := .ofTranscript exposed transcript

/-- The fingerprint of the circuit. -/
def fingerprint (result : Export field) : String :=
  result.circuit.fingerprint

def toJson (result : Export field) : Json :=
  .object [("circuit", result.circuit.toJson), ("table", result.table.toJson)]

def ofJson? (field : PrimeField) (document : Json) : Option (Export field) := do
  let [circuit, table] ← document.fields? ["circuit", "table"] | none
  return { circuit := ← Description.ofJson? circuit, table := ← Table.ofJson? field table }

def toText (result : Export field) : String :=
  result.toJson.compact

/-- The export that a text holds. -/
def ofText? (field : PrimeField) (text : String) : Option (Export field) := do
  ofJson? field (← Json.ofText? text)

end Export

end Plonkish
