import Plonkish.Proofs.Circuit.Document
import Plonkish.Storage.Archive

namespace Plonkish

/-!
# Archives keep the latest exports

A series of exports is saved in one directory, which is empty at first. The
paths of the two files of an export tell its fingerprint and which half they
hold, so a save replaces both halves of what was saved under its fingerprint and
nothing else. What is loaded is therefore one export, the latest that was saved
under the fingerprint, and not the halves of two.
-/

namespace Files

/-- Reading a file after a file was written, the same one or another. -/
theorem read?_write (files : Files) (path content other : String) :
    (files.write path content).read? other =
      if other = path then some content else files.read? other := by
  split
  next same => rw [same, read?_write_self]
  next differs => exact files.read?_write_of_ne content differs

/-- Names in a directory have different paths. -/
theorem join_injective (directory : String) : Function.Injective (join directory) := by
  intro left right same
  unfold join at same
  split at same
  · exact (String.append_right_inj _).mp same
  · exact (String.append_right_inj _).mp same

/-- No name leads from a directory to a file; one that starts at the root is not in it. -/
def IsEmptyDirectory (files : Files) (directory : String) : Prop :=
  ∀ name : String, name.toList.head? ≠ some '/' → files.read? (join directory name) = none

end Files

namespace Config

variable {config : Config} {files : Files}

/-- A name that is put between fixed texts is told by the path. -/
theorem join_append_injective (directory mark ending : String) :
    Function.Injective fun name => Files.join directory (mark ++ name ++ ending) := by
  intro left right same
  have sameName := Files.join_injective directory same
  exact (String.append_right_inj mark).mp ((String.append_left_inj ending).mp sameName)

theorem circuitPath_injective : Function.Injective config.circuitPath :=
  join_append_injective config.directory "circuit_" ".json"

theorem assignmentPath_injective : Function.Injective config.assignmentPath :=
  join_append_injective config.directory "assignment_" ".json"

theorem head?_append_append
    {mark : String}
    {first : Char}
    (starts : mark.toList.head? = some first)
    (name ending : String) :
    (mark ++ name ++ ending).toList.head? = some first := by
  rw [String.toList_append, String.toList_append, List.head?_append, List.head?_append, starts]
  rfl

theorem head?_circuitName (fingerprint : String) :
    ("circuit_" ++ fingerprint ++ ".json").toList.head? = some 'c' :=
  head?_append_append (by decide) fingerprint ".json"

theorem head?_assignmentName (fingerprint : String) :
    ("assignment_" ++ fingerprint ++ ".json").toList.head? = some 'a' :=
  head?_append_append (by decide) fingerprint ".json"

/-- A path tells which half it holds. -/
theorem circuitPath_ne_assignmentPath (left right : String) :
    config.circuitPath left ≠ config.assignmentPath right := by
  intro same
  have sameFirst := congrArg (·.toList.head?) (Files.join_injective _ same)
  simp only [head?_circuitName, head?_assignmentName] at sameFirst
  exact absurd sameFirst (by decide)

/-- An empty directory has no circuits and no tables. -/
theorem read?_of_isEmptyDirectory
    (empty : files.IsEmptyDirectory config.directory)
    (fingerprint : String) :
    files.read? (config.circuitPath fingerprint) = none
      ∧ files.read? (config.assignmentPath fingerprint) = none := by
  constructor
  · exact empty _ (head?_circuitName fingerprint ▸ by decide)
  · exact empty _ (head?_assignmentName fingerprint ▸ by decide)

end Config

namespace Export

variable {field : PrimeField} {config : Config} {files : Files} {fingerprint : String}

/-- A save writes the circuit under its fingerprint and leaves every other circuit. -/
theorem read?_circuitPath_save (result : Export field) :
    (result.save config files).read? (config.circuitPath fingerprint) =
      if result.fingerprint = fingerprint then some result.circuit.toJson.compact
      else files.read? (config.circuitPath fingerprint) := by
  unfold save
  rw [Files.read?_write_of_ne _ _ (Config.circuitPath_ne_assignmentPath _ _), Files.read?_write]
  simp only [Config.circuitPath_injective.eq_iff, eq_comm (a := fingerprint)]

/-- A save writes the table under the fingerprint and leaves every other table. -/
theorem read?_assignmentPath_save (result : Export field) :
    (result.save config files).read? (config.assignmentPath fingerprint) =
      if result.fingerprint = fingerprint then some result.table.toJson.compact
      else files.read? (config.assignmentPath fingerprint) := by
  unfold save
  rw [Files.read?_write, Files.read?_write_of_ne _ _ (Config.circuitPath_ne_assignmentPath _ _).symm]
  simp only [Config.assignmentPath_injective.eq_iff, eq_comm (a := fingerprint)]

/-- A document is read from the file with its text. -/
theorem readDocument?_of_read?
    {document : Json}
    {path : String}
    (readable : document.Readable)
    (file : files.read? path = some document.compact) :
    readDocument? files path = some document := by
  unfold readDocument?
  rw [file]
  exact Json.ofText?_compact readable

/-- An export with numbers of 64 bits is loaded from its two files. -/
theorem load_of_read?
    {result : Export field}
    (sized : result.circuit.IsSized)
    (circuitFile :
      files.read? (config.circuitPath fingerprint) = some result.circuit.toJson.compact)
    (tableFile :
      files.read? (config.assignmentPath fingerprint) = some result.table.toJson.compact) :
    load field config files fingerprint = .ok result := by
  unfold load
  rw [readDocument?_of_read? result.circuit.readable_toJson circuitFile,
    readDocument?_of_read? result.table.readable_toJson tableFile, Option.bind_some,
    Option.bind_some, Description.ofJson?_toJson_eq_some_iff.mpr sized,
    result.table.ofJson?_toJson]

/-- Without a circuit nothing is loaded. -/
theorem load_of_read?_eq_none (noCircuit : files.read? (config.circuitPath fingerprint) = none) :
    load field config files fingerprint = .error .circuit := by
  unfold load readDocument?
  rw [noCircuit]
  rfl

end Export

/-- An export that is saved, over whichever field; its circuit has numbers of 64 bits. -/
structure Saving where
  field : PrimeField
  result : Export field
  sized : result.circuit.IsSized

namespace Saving

/-- The fingerprint that is returned. -/
def fingerprint (saving : Saving) : String :=
  saving.result.fingerprint

/-- The files after a series of saves. -/
def saveAll (config : Config) (files : Files) (savings : List Saving) : Files :=
  savings.foldl (fun files saving => saving.result.save config files) files

/-- The latest of a series of saves under a fingerprint. -/
def latest? (savings : List Saving) (fingerprint : String) : Option Saving :=
  savings.reverse.find? (·.fingerprint = fingerprint)

theorem latest?_append_singleton (earlier : List Saving) (saving : Saving) (fingerprint : String) :
    latest? (earlier ++ [saving]) fingerprint =
      if saving.fingerprint = fingerprint then some saving
      else latest? earlier fingerprint := by
  unfold latest?
  rw [List.reverse_append, List.reverse_singleton, List.singleton_append, List.find?_cons]
  by_cases same : saving.fingerprint = fingerprint
  · simp only [same, decide_true, ↓reduceIte]
  · simp only [same, decide_false, ↓reduceIte]

/-- There is a latest save under a fingerprint exactly if there was one at all. -/
theorem isSome_latest?_iff {savings : List Saving} {fingerprint : String} :
    (latest? savings fingerprint).isSome ↔ ∃ saving ∈ savings, saving.fingerprint = fingerprint := by
  simp only [latest?, List.find?_isSome, List.mem_reverse, decide_eq_true_iff]

variable {config : Config}

/-- Where each save writes a text of its own, a series leaves that of the latest. -/
theorem read?_saveAll
    {pathOf : String → String}
    {textOf : Saving → String}
    (step : ∀ (files : Files) (saving : Saving) (fingerprint : String),
      (saving.result.save config files).read? (pathOf fingerprint) =
        if saving.fingerprint = fingerprint then some (textOf saving)
        else files.read? (pathOf fingerprint))
    (files : Files)
    (savings : List Saving)
    (fingerprint : String) :
    (saveAll config files savings).read? (pathOf fingerprint) =
      ((latest? savings fingerprint).map textOf).or (files.read? (pathOf fingerprint)) := by
  induction savings using List.reverseRecOn with
  | nil => rfl
  | append_singleton earlier saving inductionHypothesis =>
      have last : saveAll config files (earlier ++ [saving]) =
          saving.result.save config (saveAll config files earlier) :=
        List.foldl_append
      rw [last, step, inductionHypothesis, latest?_append_singleton]
      split <;> rfl

section EmptyDirectory

variable
  {files : Files}
  (empty : files.IsEmptyDirectory config.directory)
  (savings : List Saving)
  (fingerprint : String)

include empty

/-- The circuit that is there is that of the latest save. -/
theorem read?_circuitPath_saveAll :
    (saveAll config files savings).read? (config.circuitPath fingerprint) =
      (latest? savings fingerprint).map (·.result.circuit.toJson.compact) := by
  rw [read?_saveAll (fun _ _ _ => Export.read?_circuitPath_save _) files,
    (Config.read?_of_isEmptyDirectory empty fingerprint).1, Option.or_none]

/-- The table that is there is that of the latest save. -/
theorem read?_assignmentPath_saveAll :
    (saveAll config files savings).read? (config.assignmentPath fingerprint) =
      (latest? savings fingerprint).map (·.result.table.toJson.compact) := by
  rw [read?_saveAll (fun _ _ _ => Export.read?_assignmentPath_save _) files,
    (Config.read?_of_isEmptyDirectory empty fingerprint).2, Option.or_none]

/-- Both halves are there exactly if there is a latest save. -/
theorem isSaved_saveAll :
    Export.isSaved config (saveAll config files savings) fingerprint =
      (latest? savings fingerprint).isSome := by
  unfold Export.isSaved
  rw [Files.contains_eq_isSome_read?, Files.contains_eq_isSome_read?,
    read?_circuitPath_saveAll empty, read?_assignmentPath_saveAll empty, Option.isSome_map,
    Option.isSome_map, Bool.and_self]

end EmptyDirectory

/--
What was saved is loaded. After any series of saves into a directory that was
empty, of exports over whichever fields and with circuits that repeat or not,
there are both files exactly for the fingerprints that were returned. Each of
these loads the latest export that was saved under it, and nothing is loaded for
any other fingerprint.
-/
theorem load_latest
    (config : Config)
    (files : Files)
    (empty : files.IsEmptyDirectory config.directory)
    (savings : List Saving) :
    (∀ fingerprint : String,
        Export.isSaved config (saveAll config files savings) fingerprint ↔
          fingerprint ∈ savings.map Saving.fingerprint)
      ∧ (∀ fingerprint ∈ savings.map Saving.fingerprint,
          ∃ saving, latest? savings fingerprint = some saving
            ∧ Export.load saving.field config (saveAll config files savings) fingerprint =
                .ok saving.result)
      ∧ ∀ (field : PrimeField) (fingerprint : String),
          fingerprint ∉ savings.map Saving.fingerprint →
            Export.load field config (saveAll config files savings) fingerprint =
              .error .circuit := by
  have returned (fingerprint : String) :
      (latest? savings fingerprint).isSome ↔ fingerprint ∈ savings.map Saving.fingerprint := by
    rw [isSome_latest?_iff, List.mem_map]
  refine ⟨fun fingerprint => ?_, fun fingerprint wasReturned => ?_,
    fun field fingerprint notReturned => ?_⟩
  · rw [isSaved_saveAll empty, returned]
  · obtain ⟨saving, latest⟩ := Option.isSome_iff_exists.mp ((returned fingerprint).mpr wasReturned)
    refine ⟨saving, latest, Export.load_of_read? saving.sized ?_ ?_⟩
    · rw [read?_circuitPath_saveAll empty, latest]
      rfl
    · rw [read?_assignmentPath_saveAll empty, latest]
      rfl
  · have noLatest : latest? savings fingerprint = none :=
      Option.not_isSome_iff_eq_none.mp ((returned fingerprint).not.mpr notReturned)
    refine Export.load_of_read?_eq_none ?_
    rw [read?_circuitPath_saveAll empty, noLatest]
    rfl

/-- The circuit of a product of two exposed cells. -/
def productCircuit : Description where
  k := 4
  adviceColumns := 1
  fixedColumns := 1
  instanceColumns := 1
  rows := 4
  gates := [0]
  copies := []
  constants := [(0, (0 : Element .bn254Scalar).toHex)]
  publicInputs := [1, 2]

/-- The product of two numbers. -/
def ofProduct (left right : Element .bn254Scalar) : Saving where
  field := .bn254Scalar
  result := {
    circuit := productCircuit
    table := { advice := [0, left, right, left * right], publicInputs := [left, right] } }
  sized := by
    change productCircuit.IsSized
    constructor <;> decide

/-- The empty circuit, over another field. -/
def ofNothing : Saving where
  field := .secp256k1Base
  result := {
    circuit := {
      k := 4, adviceColumns := 1, fixedColumns := 0, instanceColumns := 1, rows := 0,
      gates := [], copies := [], constants := [], publicInputs := [] }
    table := { advice := [], publicInputs := [] } }
  sized := by constructor <;> decide

/--
Of two products that are saved before and after a circuit over another field,
the later one is loaded. A file outside the directory does not matter.
-/
theorem load_latest_interleaved :
    let files := Files.empty.write "circuit.json" "\x7b\x7d"
    let savings := [ofProduct 2 3, ofNothing, ofProduct 5 7]
    let saved := saveAll .standard files savings
    files.IsEmptyDirectory Config.standard.directory
      ∧ (ofProduct 2 3).fingerprint ∈ savings.map Saving.fingerprint
      ∧ Export.isSaved .standard saved ofNothing.fingerprint
      ∧ Export.load .bn254Scalar .standard saved (ofProduct 2 3).fingerprint =
          .ok (ofProduct 5 7).result
      ∧ (ofProduct 5 7).result ≠ (ofProduct 2 3).result := by
  intro files savings saved
  have empty : files.IsEmptyDirectory Config.standard.directory := by
    intro name _
    have inside : Files.join Config.standard.directory name = ".cache/assigner" ++ "/" ++ name :=
      if_neg (by decide)
    have elsewhere : ".cache/assigner" ++ "/" ++ name ≠ "circuit.json" := by
      intro same
      have sameFirst := congrArg (·.toList.head?) same
      simp only [String.toList_append] at sameFirst
      exact absurd (Option.some.inj sameFirst) (by decide)
    rw [inside, Files.read?_write_of_ne _ _ elsewhere]
    rfl
  obtain ⟨exist, loads, -⟩ := load_latest .standard files empty savings
  have wasReturned : (ofProduct 2 3).fingerprint ∈ savings.map Saving.fingerprint :=
    List.mem_cons_self
  have isLatest : latest? savings (ofProduct 2 3).fingerprint = some (ofProduct 5 7) := by
    change latest? ([ofProduct 2 3, ofNothing] ++ [ofProduct 5 7]) _ = _
    rw [latest?_append_singleton]
    exact if_pos rfl
  obtain ⟨saving, latest, loaded⟩ := loads _ wasReturned
  obtain rfl := Option.some.inj (latest.symm.trans isLatest)
  refine ⟨empty, wasReturned, (exist _).mpr (by simp [savings]), loaded, fun same => ?_⟩
  have sameInputs : ([5, 7] : List (Element .bn254Scalar)) = [2, 3] :=
    congrArg (·.table.publicInputs) same
  exact absurd sameInputs (by decide)

end Saving

end Plonkish
