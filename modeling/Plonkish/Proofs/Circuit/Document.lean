import Plonkish.Circuit.Export
import Plonkish.Proofs.Field.Arithmetic
import Plonkish.Proofs.Json.Encoding

namespace Plonkish

/-!
# Exports are read back from their bytes

A description with numbers of 64 bits is read back from its document, and so is
every table. Descriptions have different documents whatever their numbers are,
so the bytes that the fingerprint digests tell them apart: only a collision of
the digest gives two of them one fingerprint.
-/

namespace Numeral

/-- The digits of a byte tell which byte it is. -/
theorem byteDigits_injective {left right : UInt8}
    (same : byteDigits left.toNat = byteDigits right.toNat) :
    left = right := by
  have leftSmall : left.toNat < 256 := left.toNat_lt
  have rightSmall : right.toNat < 256 := right.toNat_lt
  have readsBack : ∀ {byte}, byte < 256 → ofLittleEndian? (byteDigits byte) = some byte := by
    intro byte small
    have fits : byte < 256 ^ 1 := small
    simpa [littleEndian, Nat.mod_eq_of_lt small] using ofLittleEndian?_littleEndian fits
  have sameByte := readsBack leftSmall
  rw [same, readsBack rightSmall] at sameByte
  exact UInt8.toNat_inj.mp (Option.some.inj sameByte).symm

end Numeral

namespace Sha256

/-- Different messages with the same digest. -/
def Collide (left right : ByteArray) : Prop :=
  left ≠ right ∧ digest left = digest right

/-- The digits of bytes tell which bytes they are. -/
theorem digits_injective {left right : List UInt8}
    (same : left.flatMap (fun byte => Numeral.byteDigits byte.toNat) =
      right.flatMap (fun byte => Numeral.byteDigits byte.toNat)) :
    left = right := by
  induction left generalizing right with
  | nil =>
      cases right with
      | nil => rfl
      | cons byte rest => cases same
  | cons byte rest inductionHypothesis =>
      cases right with
      | nil => cases same
      | cons other others =>
          rw [List.flatMap_cons, List.flatMap_cons] at same
          obtain ⟨sameByte, sameRest⟩ := List.append_inj same rfl
          rw [Numeral.byteDigits_injective sameByte, inductionHypothesis sameRest]

theorem ofText_eq_iff {left right : String} :
    ofText left = ofText right ↔ digest left.toUTF8 = digest right.toUTF8 := by
  constructor
  · exact fun same => digits_injective (String.ofList_injective same)
  · intro same
    rw [ofText, ofText, same]

/-- Texts have the same digest only if they are the same, or their bytes collide. -/
theorem ofText_eq_iff_or_collide {left right : String} :
    ofText left = ofText right ↔ left = right ∨ Collide left.toUTF8 right.toUTF8 := by
  rw [ofText_eq_iff]
  constructor
  · intro same
    by_cases sameText : left = right
    · exact .inl sameText
    · exact .inr ⟨fun sameBytes => sameText (String.toByteArray_inj.mp sameBytes), same⟩
  · rintro (rfl | ⟨-, same⟩)
    · rfl
    · exact same

end Sha256

namespace Description

/-- Every number of a description has 64 bits. -/
@[mk_iff] structure IsSized (description : Description) : Prop where
  k : description.k < 1 <<< 64
  adviceColumns : description.adviceColumns < 1 <<< 64
  fixedColumns : description.fixedColumns < 1 <<< 64
  instanceColumns : description.instanceColumns < 1 <<< 64
  rows : description.rows < 1 <<< 64
  gates : ∀ offset ∈ description.gates, offset < 1 <<< 64
  copies : ∀ pair ∈ description.copies, pair.1 < 1 <<< 64 ∧ pair.2 < 1 <<< 64
  constants : ∀ entry ∈ description.constants, entry.1 < 1 <<< 64
  publicInputs : ∀ offset ∈ description.publicInputs, offset < 1 <<< 64

theorem readable_toJson (description : Description) : description.toJson.Readable := by
  simp [toJson]

theorem copyOfJson?_eq_some_iff {pair : Nat × Nat} :
    copyOfJson? (.array [.natural pair.1, .natural pair.2]) = some pair ↔
      pair.1 < 1 <<< 64 ∧ pair.2 < 1 <<< 64 := by
  obtain ⟨left, right⟩ := pair
  simp [copyOfJson?, Json.list?, Option.bind_eq_some_iff, and_assoc]

theorem constantOfJson?_eq_some_iff {entry : Nat × String} :
    constantOfJson? (.array [.natural entry.1, .text entry.2]) = some entry ↔
      entry.1 < 1 <<< 64 := by
  obtain ⟨offset, text⟩ := entry
  simp [constantOfJson?, Json.list?, Option.bind_eq_some_iff]

/-- The fields of a description are found in its document. -/
theorem fields?_toJson (description : Description) :
    description.toJson.fields? fieldNames = some [
      .natural description.k,
      .natural description.adviceColumns,
      .natural description.fixedColumns,
      .natural description.instanceColumns,
      .natural description.rows,
      Json.ofList .natural description.gates,
      Json.ofList (fun pair => .array [.natural pair.1, .natural pair.2]) description.copies,
      Json.ofList (fun entry => .array [.natural entry.1, .text entry.2]) description.constants,
      Json.ofList .natural description.publicInputs] := rfl

/-- A description is read back exactly if its numbers have 64 bits. -/
theorem ofJson?_toJson_eq_some_iff {description : Description} :
    ofJson? description.toJson = some description ↔ description.IsSized := by
  unfold ofJson?
  rw [fields?_toJson, isSized_iff]
  obtain ⟨k, adviceColumns, fixedColumns, instanceColumns, rows, gates, copies, constants,
    publicInputs⟩ := description
  simp [Option.bind_eq_some_iff, Json.list?_ofList_eq_some_iff, copyOfJson?_eq_some_iff,
    constantOfJson?_eq_some_iff]

/-- Different descriptions have different documents. -/
theorem toJson_injective : Function.Injective toJson := by
  intro left right same
  have natural : Function.Injective Json.natural := fun _ _ => Json.natural.inj
  have copy : Function.Injective fun pair : Nat × Nat =>
      Json.array [.natural pair.1, .natural pair.2] := by
    rintro ⟨⟩ ⟨⟩ written
    simpa using written
  have constant : Function.Injective fun entry : Nat × String =>
      Json.array [.natural entry.1, .text entry.2] := by
    rintro ⟨⟩ ⟨⟩ written
    simpa using written
  have fields := left.fields?_toJson
  rw [same, right.fields?_toJson] at fields
  simp only [Option.some.injEq, List.cons.injEq, Json.natural.injEq, and_true,
    (Json.ofList_injective natural).eq_iff, (Json.ofList_injective copy).eq_iff,
    (Json.ofList_injective constant).eq_iff] at fields
  cases left
  cases right
  simpa [eq_comm] using fields

/-- The bytes that the fingerprint digests. -/
def bytes (description : Description) : ByteArray :=
  description.toJson.compact.toUTF8

/-- The bytes of a description tell which description it is, whatever its numbers are. -/
theorem bytes_injective : Function.Injective bytes := fun left right same =>
  toJson_injective
    (Json.compact_injective left.readable_toJson right.readable_toJson
      (String.toByteArray_inj.mp same))

/-- Descriptions share a fingerprint only if they are the same, or their bytes collide. -/
theorem fingerprint_eq_iff {left right : Description} :
    left.fingerprint = right.fingerprint ↔
      left = right ∨ Sha256.Collide left.bytes right.bytes := by
  rw [fingerprint, fingerprint, Sha256.ofText_eq_iff_or_collide]
  refine or_congr_left ⟨fun same => bytes_injective (congrArg String.toUTF8 same), ?_⟩
  rintro rfl
  rfl

end Description

namespace Table

variable {field : PrimeField}

theorem elementOfJson?_elementToJson (element : Element field) :
    elementOfJson? field (elementToJson element) = some element := by
  simp [elementOfJson?, elementToJson, Element.ofHex?_toHex]

theorem readable_toJson (table : Table field) : table.toJson.Readable := by
  simp [toJson, elementToJson]

/-- Every table is read back from its document. -/
theorem ofJson?_toJson (table : Table field) : ofJson? field table.toJson = some table := by
  have elements := Json.list?_ofList (@elementOfJson?_elementToJson field)
  simp [toJson, ofJson?, Json.fields?, Json.onlyMember?, elements]

end Table

namespace Export

variable {field : PrimeField}

theorem readable_toJson (result : Export field) : result.toJson.Readable := by
  simp [toJson, result.circuit.readable_toJson, result.table.readable_toJson]

theorem ofJson?_toJson_eq_some_iff {result : Export field} :
    ofJson? field result.toJson = some result ↔ result.circuit.IsSized := by
  obtain ⟨circuit, table⟩ := result
  rw [← Description.ofJson?_toJson_eq_some_iff]
  simp [toJson, ofJson?, Json.fields?, Json.onlyMember?, Option.bind_eq_some_iff,
    table.ofJson?_toJson]

/-- An export is read back exactly if the numbers of its circuit have 64 bits. -/
theorem ofText?_toText_eq_some_iff {result : Export field} :
    ofText? field result.toText = some result ↔ result.circuit.IsSized := by
  unfold ofText? toText
  rw [Json.ofText?_compact result.readable_toJson]
  exact ofJson?_toJson_eq_some_iff

theorem fromUTF8?_toUTF8 (text : String) : String.fromUTF8? text.toUTF8 = some text :=
  dif_pos text.isValidUTF8

/--
An export is read back from its bytes exactly if the numbers of its circuit
have 64 bits. The bytes that a fingerprint digests tell all descriptions apart,
so that different ones share a fingerprint only if those bytes collide.
-/
theorem bytes_faithful (field : PrimeField) :
    (∀ result : Export field,
      (String.fromUTF8? result.toText.toUTF8).bind (ofText? field) = some result ↔
        result.circuit.IsSized)
      ∧ (∀ left right : Description, left.bytes = right.bytes ↔ left = right)
      ∧ ∀ left right : Description, left.fingerprint = right.fingerprint ↔
          left = right ∨ Sha256.Collide left.bytes right.bytes := by
  refine ⟨fun result => ?_, fun left right => Description.bytes_injective.eq_iff,
    fun left right => Description.fingerprint_eq_iff⟩
  rw [fromUTF8?_toUTF8, Option.bind_some]
  exact ofText?_toText_eq_some_iff

/-- The export of a product of two cells, the first of them exposed, is read back. -/
theorem product_readsBack :
    let product : Export .bn254Scalar := {
      circuit := {
        k := 5, adviceColumns := 1, fixedColumns := 1, instanceColumns := 1, rows := 6,
        gates := [2], copies := [(0, 3), (1, 4)],
        constants := [(2, (0 : Element .bn254Scalar).toHex)], publicInputs := [0] }
      table := { advice := [9, 9, 0, 9, 9, 81], publicInputs := [9] } }
    (String.fromUTF8? product.toText.toUTF8).bind (ofText? .bn254Scalar) = some product := by
  intro product
  have sized : product.circuit.IsSized := by
    constructor <;> decide
  exact ((bytes_faithful .bn254Scalar).1 product).mpr sized

end Export

end Plonkish
