import Plonkish.Proofs.Json.Document

namespace Plonkish

/-!
# Data as documents

The rules by which a document that describes data is readable, and is read as
that data: for numbers and texts, for lists, and for the members of an object.
A whole document is then read back from its text in either form.
-/

namespace Json

@[simp] theorem readable_null : Readable .null := .null

@[simp] theorem readable_natural (value : Nat) : Readable (.natural value) := .natural value

@[simp] theorem readable_text (value : String) : Readable (.text value) := .text value

@[simp] theorem readable_array {items : List Json} :
    Readable (.array items) ↔ ∀ item ∈ items, Readable item := by
  constructor
  · rintro ⟨⟩
    assumption
  · exact .array

@[simp] theorem readable_object {members : List (String × Json)} :
    Readable (.object members) ↔ ∀ member ∈ members, Readable member.2 := by
  constructor
  · rintro ⟨⟩
    assumption
  · exact .object

@[simp] theorem readable_ofWord64 (value : UInt64) : Readable (ofWord64 value) :=
  .natural value.toNat

@[simp] theorem readable_ofList {write : α → Json} {items : List α} :
    Readable (ofList write items) ↔ ∀ item ∈ items, Readable (write item) := by
  rw [ofList, readable_array, List.forall_mem_map]

@[simp] theorem text?_text (value : String) : text? (.text value) = some value := rfl

@[simp] theorem variant?_text (name : String) : variant? (.text name) = some (name, .null) := rfl

@[simp] theorem variant?_object (name : String) (payload : Json) :
    variant? (.object [(name, payload)]) = some (name, payload) := rfl

@[simp] theorem unit?_null : unit? .null = some () := rfl

/-- A number is read as a size exactly if it has 64 bits. -/
@[simp] theorem size?_natural_eq_some_iff {value size : Nat} :
    size? (.natural value) = some size ↔ value < 1 <<< 64 ∧ value = size := by
  simp [size?, naturalBelow?]

@[simp] theorem word32?_toNat (value : UInt32) : word32? (.natural value.toNat) = some value := by
  have small : value.toNat < 1 <<< 32 := value.toNat_lt
  rw [word32?, naturalBelow?, if_pos small, Option.map_some, UInt32.ofNat_toNat]

@[simp] theorem word64?_toNat (value : UInt64) : word64? (.natural value.toNat) = some value := by
  have small : value.toNat < 1 <<< 64 := value.toNat_lt
  rw [word64?, naturalBelow?, if_pos small, Option.map_some, UInt64.ofNat_toNat]

@[simp] theorem word64?_ofWord64 (value : UInt64) : word64? (ofWord64 value) = some value :=
  word64?_toNat value

/-- A list is read back exactly if each of its items is. -/
theorem list?_ofList_eq_some_iff
    {read : Json → Option α}
    {write : α → Json}
    {items : List α} :
    list? read (ofList write items) = some items ↔
      ∀ item ∈ items, read (write item) = some item := by
  change (items.map write).mapM read = some items ↔ _
  induction items with
  | nil => simp
  | cons item rest inductionHypothesis =>
      rw [List.forall_mem_cons, ← inductionHypothesis]
      simp [Option.bind_eq_some_iff]

theorem list?_ofList
    {read : Json → Option α}
    {write : α → Json}
    (each : ∀ item, read (write item) = some item)
    (items : List α) :
    list? read (ofList write items) = some items :=
  list?_ofList_eq_some_iff.mpr fun item _ => each item

/-- Lists are written differently if their items are. -/
theorem ofList_injective {write : α → Json} (injective : Function.Injective write) :
    Function.Injective (ofList write) :=
  fun _ _ same => (List.map_inj_right fun _ _ written => injective written).mp (array.inj same)

end Json

end Plonkish
