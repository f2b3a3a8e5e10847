import Plonkish.Machine.Assignment
import Plonkish.Storage.Directory

namespace Plonkish

/-!
# Archives

Exports are kept in one directory, in two files each, which are named by the
fingerprint of the circuit. Both halves are read back on their own.
-/

namespace Config

/-- The path of the circuit with a fingerprint. -/
def circuitPath (config : Config) (fingerprint : String) : String :=
  Files.join config.directory ("circuit_" ++ fingerprint ++ ".json")

/-- The path of the table of the circuit with a fingerprint. -/
def assignmentPath (config : Config) (fingerprint : String) : String :=
  Files.join config.directory ("assignment_" ++ fingerprint ++ ".json")

end Config

/-- Which half of an export cannot be read. -/
inductive ArchiveFailure where
  | circuit
  | table
  deriving DecidableEq

/-- The message for readers. -/
def ArchiveFailure.message : ArchiveFailure → String
  | .circuit => "Failed to load circuit description"
  | .table => "Failed to load assignment table"

namespace Export

variable {field : PrimeField}

/-- Write both halves of an export. -/
def save (config : Config) (files : Files) (result : Export field) : Files :=
  let fingerprint := result.fingerprint
  (files.write (config.circuitPath fingerprint) result.circuit.toJson.compact).write
    (config.assignmentPath fingerprint) result.table.toJson.compact

/-- Whether both halves of an export with a fingerprint exist. -/
def isSaved (config : Config) (files : Files) (fingerprint : String) : Bool :=
  files.contains (config.circuitPath fingerprint)
    && files.contains (config.assignmentPath fingerprint)

/-- Read a document from a file. -/
def readDocument? (files : Files) (path : String) : Option Json := do
  Json.ofText? (← files.read? path)

/-- Read both halves of the export with a fingerprint. -/
def load
    (field : PrimeField)
    (config : Config)
    (files : Files)
    (fingerprint : String) :
    Except ArchiveFailure (Export field) :=
  match (readDocument? files (config.circuitPath fingerprint)).bind Description.ofJson? with
  | none => .error .circuit
  | some circuit =>
      match (readDocument? files (config.assignmentPath fingerprint)).bind
        (Table.ofJson? field) with
      | none => .error .table
      | some table => .ok { circuit, table }

end Export

end Plonkish
