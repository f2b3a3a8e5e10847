namespace Plonkish

/-!
# Documents

The values of JSON text, and the ways in which a document is read as data:
a natural below a limit, a list, a record with named fields, or one of several
named variants. A record is an object, in any order and with further members
ignored, or the array of exactly its fields in their declared order. A variant
is an object with one member, or a bare name, which stands for a null payload.
-/

/--
A JSON value.

Members of an object keep their order and their repetitions. A well-formed
value that no reader accepts, such as a fraction or a text with an unpaired
surrogate, is `unreadable`: it may only stand where a value is ignored.
-/
inductive Json where
  | null
  | bool (value : Bool)
  | natural (value : Nat)
  | text (value : String)
  | array (items : List Json)
  | object (members : List (String × Json))
  | unreadable
  deriving Inhabited

namespace Json

/-- The truth value of a Boolean. -/
def bool? : Json → Option Bool
  | .bool value => some value
  | _ => none

/-- The number, if it lies below a limit. -/
def naturalBelow? (limit : Nat) : Json → Option Nat
  | .natural value => if value < limit then some value else none
  | _ => none

/-- A number of 32 bits. -/
def word32? (value : Json) : Option UInt32 :=
  (value.naturalBelow? (1 <<< 32)).map UInt32.ofNat

/-- A number of 64 bits. -/
def word64? (value : Json) : Option UInt64 :=
  (value.naturalBelow? (1 <<< 64)).map UInt64.ofNat

/-- A size, that is a number of 64 bits without its width. -/
def size? (value : Json) : Option Nat :=
  value.naturalBelow? (1 <<< 64)

/-- The characters of a text. -/
def text? : Json → Option String
  | .text value => some value
  | _ => none

/-- The items of an array, each read in the same way. -/
def list? (read : Json → Option α) : Json → Option (List α)
  | .array items => items.mapM read
  | _ => none

/-- The value of the only member with a name. -/
def onlyMember? (members : List (String × Json)) (name : String) : Option Json :=
  match members.filter (·.1 = name) with
  | [(_, value)] => some value
  | _ => none

/-- The values of the named fields, in the order of the names. -/
def fields? (names : List String) : Json → Option (List Json)
  | .object members => names.mapM (onlyMember? members)
  | .array items => if items.length = names.length then some items else none
  | _ => none

/-- The name of a variant and its payload. -/
def variant? : Json → Option (String × Json)
  | .text name => some (name, .null)
  | .object [(name, payload)] => some (name, payload)
  | _ => none

/-- The payload of a variant that carries nothing. -/
def unit? : Json → Option Unit
  | .null => some ()
  | _ => none

/-- The first member with a name, for documents in which names do not repeat. -/
def member? (document : Json) (name : String) : Option Json :=
  match document with
  | .object members => (members.find? (·.1 = name)).map (·.2)
  | _ => none

/-- A value, or null for nothing. -/
def ofOption (write : α → Json) : Option α → Json
  | some value => write value
  | none => .null

/-- The document of a number of 64 bits. -/
def ofWord64 (value : UInt64) : Json :=
  .natural value.toNat

/-- The array of the items of a list, each written in the same way. -/
def ofList (write : α → Json) (items : List α) : Json :=
  .array (items.map write)

end Json

end Plonkish
