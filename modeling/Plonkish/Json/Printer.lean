import Plonkish.Json.Basic
import Plonkish.Numeral

namespace Plonkish

/-!
# Writing documents

The compact form has no blanks at all. The indented form puts each item and
each member on a line of its own, two blanks further in than its container,
and one blank after each colon; an empty container stays on its line. Both
append to the text written so far.
-/

namespace Json

/-- How a character of a text is written. -/
def escape (character : Char) : List Char :=
  match character with
  | '"' => ['\\', '"']
  | '\\' => ['\\', '\\']
  | '\x08' => ['\\', 'b']
  | '\x0c' => ['\\', 'f']
  | '\n' => ['\\', 'n']
  | '\r' => ['\\', 'r']
  | '\t' => ['\\', 't']
  | _ =>
      if character.toNat < 0x20 then
        ['\\', 'u', '0', '0'] ++ Numeral.byteDigits character.toNat
      else
        [character]

/-- Append characters to a text. -/
def pushAll (written : String) (characters : List Char) : String :=
  characters.foldl String.push written

/-- Append a quoted text. -/
def quote (written : String) (value : String) : String :=
  (value.toList.foldl (fun written character => pushAll written (escape character))
    (written.push '"')).push '"'

/-- Append the digits of a number. -/
def pushNatural (written : String) (value : Nat) : String :=
  pushAll written (Nat.toDigits 10 value)

mutual

/-- Append a value without any blanks. -/
def writeCompact (written : String) : Json → String
  | .null | .unreadable => written ++ "null"
  | .bool true => written ++ "true"
  | .bool false => written ++ "false"
  | .natural value => pushNatural written value
  | .text value => quote written value
  | .array [] => written ++ "[]"
  | .array (item :: rest) =>
      (writeCompactItems (writeCompact (written.push '[') item) rest).push ']'
  | .object [] => written ++ "\x7b\x7d"
  | .object ((name, value) :: rest) =>
      (writeCompactMembers
        (writeCompact ((quote (written.push '\x7b') name).push ':') value) rest).push '\x7d'

/-- Append the further items of an array. -/
def writeCompactItems (written : String) : List Json → String
  | [] => written
  | item :: rest => writeCompactItems (writeCompact (written.push ',') item) rest

/-- Append the further members of an object. -/
def writeCompactMembers (written : String) : List (String × Json) → String
  | [] => written
  | (name, value) :: rest =>
      writeCompactMembers
        (writeCompact ((quote (written.push ',') name).push ':') value) rest

end

/-- Begin a line at a depth of nesting. -/
def newLine (written : String) (depth : Nat) : String :=
  pushAll (written.push '\n') (List.replicate (2 * depth) ' ')

mutual

/-- Append a value that stands at a depth of nesting. -/
def writeIndented (depth : Nat) (written : String) : Json → String
  | .null | .unreadable => written ++ "null"
  | .bool true => written ++ "true"
  | .bool false => written ++ "false"
  | .natural value => pushNatural written value
  | .text value => quote written value
  | .array [] => written ++ "[]"
  | .array (item :: rest) =>
      let first := writeIndented (depth + 1) (newLine (written.push '[') (depth + 1)) item
      (newLine (writeIndentedItems (depth + 1) first rest) depth).push ']'
  | .object [] => written ++ "\x7b\x7d"
  | .object ((name, value) :: rest) =>
      let label := quote (newLine (written.push '\x7b') (depth + 1)) name ++ ": "
      let first := writeIndented (depth + 1) label value
      (newLine (writeIndentedMembers (depth + 1) first rest) depth).push '\x7d'

/-- Append the further items of an array, each on its own line. -/
def writeIndentedItems (depth : Nat) (written : String) : List Json → String
  | [] => written
  | item :: rest =>
      writeIndentedItems depth
        (writeIndented depth (newLine (written.push ',') depth) item) rest

/-- Append the further members of an object, each on its own line. -/
def writeIndentedMembers (depth : Nat) (written : String) : List (String × Json) → String
  | [] => written
  | (name, value) :: rest =>
      writeIndentedMembers depth
        (writeIndented depth (quote (newLine (written.push ',') depth) name ++ ": ") value) rest

end

/-- The text of a value without any blanks. -/
def compact (value : Json) : String :=
  writeCompact "" value

/-- The text of a value with one part on each line. -/
def indented (value : Json) : String :=
  writeIndented 0 "" value

end Json

end Plonkish
