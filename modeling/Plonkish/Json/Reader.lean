import Plonkish.Json.Token

namespace Plonkish

/-!
# Reading documents

Tokens are read one at a time against the stack of containers that are still
open. Nothing is left over: a document is one value, and what follows it may
only be blank.
-/

namespace Json

/-- A container that is still open, with its parts so far, latest first. -/
inductive Container where
  | array (items : List Json)
  /-- The name is that of the member in progress. -/
  | object (members : List (String × Json)) (readable : Bool) (name : String)

/-- What the next token has to be. -/
inductive Expected where
  | value
  | firstItem
  | firstName
  | name
  | colon
  | separator
  | nothing (document : Json)

/-- The state between two tokens. -/
structure Reader where
  containers : List Container
  expected : Expected

namespace Reader

def start : Reader := ⟨[], .value⟩

/-- Take a complete value into the innermost container. -/
def take (value : Json) : List Container → Reader
  | [] => ⟨[], .nothing value⟩
  | .array items :: outer => ⟨.array (value :: items) :: outer, .separator⟩
  | .object members readable name :: outer =>
      ⟨.object ((name, value) :: members) readable name :: outer, .separator⟩

/-- The value of an object; one with an unreadable name is not readable at all. -/
def ofMembers (members : List (String × Json)) (readable : Bool) : Json :=
  if readable then .object members.reverse else .unreadable

/-- Read the first token of a value. -/
def value? (containers : List Container) : Token → Option Reader
  | .scalar value => some (take value containers)
  | .text (some value) => some (take (.text value) containers)
  | .text none => some (take .unreadable containers)
  | .openArray => some ⟨.array [] :: containers, .firstItem⟩
  | .openObject => some ⟨.object [] true "" :: containers, .firstName⟩
  | .closeArray | .closeObject | .comma | .colon => none

/-- Read the name of a member. -/
def name? (containers : List Container) (token : Token) : Option Reader :=
  match token, containers with
  | .text (some name), .object members readable _ :: outer =>
      some ⟨.object members readable name :: outer, .colon⟩
  | .text none, .object members _ _ :: outer =>
      some ⟨.object members false "" :: outer, .colon⟩
  | _, _ => none

/-- Read the end of the innermost container, or a comma. -/
def separator? (containers : List Container) (token : Token) : Option Reader :=
  match token, containers with
  | .comma, .array _ :: _ => some ⟨containers, .value⟩
  | .comma, .object _ _ _ :: _ => some ⟨containers, .name⟩
  | .closeArray, .array items :: outer => some (take (.array items.reverse) outer)
  | .closeObject, .object members readable _ :: outer =>
      some (take (ofMembers members readable) outer)
  | _, _ => none

/-- Read one token. -/
def step? (reader : Reader) (token : Token) : Option Reader :=
  match reader.expected with
  | .value => value? reader.containers token
  | .firstItem =>
      match token with
      | .closeArray => separator? reader.containers token
      | _ => value? reader.containers token
  | .firstName =>
      match token with
      | .closeObject => separator? reader.containers token
      | _ => name? reader.containers token
  | .name => name? reader.containers token
  | .colon =>
      match token with
      | .colon => some ⟨reader.containers, .value⟩
      | _ => none
  | .separator => separator? reader.containers token
  | .nothing _ => none

/-- Read tokens one after the other. -/
def run? (reader : Reader) : List Token → Option Reader
  | [] => some reader
  | token :: rest =>
      match reader.step? token with
      | some next => next.run? rest
      | none => none

/-- The document, once it is complete. -/
def document? (reader : Reader) : Option Json :=
  match reader.expected with
  | .nothing document => some document
  | _ => none

end Reader

/-- The value of a list of tokens. -/
def ofTokens? (tokens : List Token) : Option Json := do
  (← Reader.start.run? tokens).document?

/-- The value of a text. -/
def ofText? (text : String) : Option Json := do
  ofTokens? (← Token.scan? text.toList)

end Json

end Plonkish
