import Plonkish.Json.Basic
import Plonkish.Numeral

namespace Plonkish

/-!
# Tokens of JSON text

Text is read from left to right by a machine that takes one character at a
time, so that reading ends with the text and needs no bound on the nesting.
Words, numbers and texts are complete values; a text whose escapes leave a
surrogate without its partner is recognised, and has no characters.
-/

/-- The smallest parts of JSON text. -/
inductive Token where
  | openArray
  | closeArray
  | openObject
  | closeObject
  | comma
  | colon
  /-- A text, unless a surrogate in it is unpaired. -/
  | text (value : Option String)
  /-- A number or a word. -/
  | scalar (value : Json)

namespace Token

/-- What has been read of a text: its characters, latest first. -/
structure Spelling where
  characters : List Char
  /-- A high surrogate that still needs its partner. -/
  high : Option Nat
  /-- Every earlier surrogate has a partner. -/
  paired : Bool

namespace Spelling

def empty : Spelling := ⟨[], none, true⟩

/-- Add a character that is no surrogate. -/
def push (spelling : Spelling) (character : Char) : Spelling :=
  ⟨character :: spelling.characters, none, spelling.paired && spelling.high.isNone⟩

/-- Add the unit of an escape: a character, or half of a surrogate pair. -/
def pushUnit (spelling : Spelling) (unit : Nat) : Spelling :=
  let isHigh := 0xD800 ≤ unit && unit < 0xDC00
  let isLow := 0xDC00 ≤ unit && unit < 0xE000
  match spelling.high with
  | some high =>
      if isLow then
        let code := 0x10000 + (high - 0xD800) * 0x400 + (unit - 0xDC00)
        { spelling with characters := Char.ofNat code :: spelling.characters, high := none }
      else
        { spelling with paired := false }
  | none =>
      if isHigh then { spelling with high := some unit }
      else if isLow then { spelling with paired := false }
      else spelling.push (Char.ofNat unit)

/-- The text that was spelled, if every surrogate has its partner. -/
def text? (spelling : Spelling) : Option String :=
  if spelling.paired && spelling.high.isNone then
    some (String.ofList spelling.characters.reverse)
  else
    none

end Spelling

/-- The part of a number that was read last. -/
inductive NumberPart where
  | sign
  | zero
  | digits
  | point
  | fraction
  | exponent
  | exponentSign
  | exponentDigits

/-- A token whose last character may not have been read. -/
inductive Pending where
  | none
  | text (spelling : Spelling)
  /-- After a backslash in a text. -/
  | escape (spelling : Spelling)
  /-- Inside the four digits of an escape: how many are missing, and their value so far. -/
  | unit (spelling : Spelling) (missing : Nat) (value : Nat)
  /-- A number, with its value while it has a natural one. -/
  | number (part : NumberPart) (value : Option Nat)
  /-- The letters of a word, latest first. -/
  | word (letters : List Char)

/-- The state between two characters: the open token, and the earlier ones, latest first. -/
structure Scanner where
  pending : Pending
  tokens : List Token

/-- The character that a backslash and a letter stand for. -/
def escaped? : Char → Option Char
  | '"' => some '"'
  | '\\' => some '\\'
  | '/' => some '/'
  | 'b' => some '\x08'
  | 'f' => some '\x0c'
  | 'n' => some '\n'
  | 'r' => some '\r'
  | 't' => some '\t'
  | _ => none

/-- The value of a word. -/
def word? (letters : List Char) : Option Json :=
  if letters = ['n', 'u', 'l', 'l'] then some .null
  else if letters = ['t', 'r', 'u', 'e'] then some (.bool true)
  else if letters = ['f', 'a', 'l', 's', 'e'] then some (.bool false)
  else none

/-- The value of a number that ends after the given part. -/
def number? (value : Option Nat) : NumberPart → Option Json
  | .zero | .digits =>
      match value with
      | some value => some (.natural value)
      | none => some .unreadable
  | .fraction | .exponentDigits => some .unreadable
  | .sign | .point | .exponent | .exponentSign => none

namespace Scanner

def start : Scanner := ⟨.none, []⟩

/-- Complete a token. -/
def emit (scanner : Scanner) (token : Token) : Scanner :=
  ⟨.none, token :: scanner.tokens⟩

/-- Replace the open token. -/
def resume (scanner : Scanner) (pending : Pending) : Scanner :=
  { scanner with pending }

/-- Read a character outside of any token. -/
def open? (scanner : Scanner) (character : Char) : Option Scanner :=
  match character with
  | ' ' | '\t' | '\n' | '\r' => some (scanner.resume .none)
  | '[' => some (scanner.emit .openArray)
  | ']' => some (scanner.emit .closeArray)
  | '\x7b' => some (scanner.emit .openObject)
  | '\x7d' => some (scanner.emit .closeObject)
  | ',' => some (scanner.emit .comma)
  | ':' => some (scanner.emit .colon)
  | '"' => some (scanner.resume (.text .empty))
  | '-' => some (scanner.resume (.number .sign none))
  | '0' => some (scanner.resume (.number .zero (some 0)))
  | _ =>
      match Numeral.decimalDigit? character with
      | some digit => some (scanner.resume (.number .digits (some digit)))
      | none =>
          if character.isAlpha then some (scanner.resume (.word [character])) else none

/-- Complete the open number or word, if there is one. -/
def close? (scanner : Scanner) : Option Scanner :=
  match scanner.pending with
  | .none => some scanner
  | .number part value => (number? value part).map (scanner.emit ∘ .scalar)
  | .word letters => (word? letters.reverse).map (scanner.emit ∘ .scalar)
  | .text _ | .escape _ | .unit _ _ _ => none

/-- The part of a number that a further character leads to. -/
def nextPart? (part : NumberPart) (character : Char) : Option NumberPart :=
  let isDigit := (Numeral.decimalDigit? character).isSome
  let isExponent := character = 'e' ∨ character = 'E'
  match part with
  | .sign => if character = '0' then some .zero else if isDigit then some .digits else none
  | .zero =>
      if character = '.' then some .point else if isExponent then some .exponent else none
  | .digits =>
      if isDigit then some .digits
      else if character = '.' then some .point
      else if isExponent then some .exponent
      else none
  | .point => if isDigit then some .fraction else none
  | .fraction =>
      if isDigit then some .fraction else if isExponent then some .exponent else none
  | .exponent =>
      if isDigit then some .exponentDigits
      else if character = '+' ∨ character = '-' then some .exponentSign
      else none
  | .exponentSign | .exponentDigits => if isDigit then some .exponentDigits else none

/-- The value of a number after a further character. -/
def nextValue (value : Option Nat) (part : NumberPart) (character : Char) : Option Nat :=
  match value, part, Numeral.decimalDigit? character with
  | some value, .digits, some digit => some (10 * value + digit)
  | _, _, _ => none

/-- Read one character. -/
def step? (scanner : Scanner) (character : Char) : Option Scanner :=
  match scanner.pending with
  | .none => scanner.open? character
  | .text spelling =>
      if character = '"' then some (scanner.emit (.text spelling.text?))
      else if character = '\\' then some (scanner.resume (.escape spelling))
      else if character.toNat < 0x20 then none
      else some (scanner.resume (.text (spelling.push character)))
  | .escape spelling =>
      if character = 'u' then
        some (scanner.resume (.unit spelling 4 0))
      else
        (escaped? character).map fun plain => scanner.resume (.text (spelling.push plain))
  | .unit spelling missing value =>
      (Numeral.hexDigit? character).map fun digit =>
        let value := 16 * value + digit
        if missing ≤ 1 then scanner.resume (.text (spelling.pushUnit value))
        else scanner.resume (.unit spelling (missing - 1) value)
  | .number part value =>
      match nextPart? part character with
      | some next => some (scanner.resume (.number next (nextValue value next character)))
      | none => do (← scanner.close?).open? character
  | .word letters =>
      if character.isAlpha then some (scanner.resume (.word (character :: letters)))
      else do (← scanner.close?).open? character

/-- Read characters one after the other. -/
def run? (scanner : Scanner) : List Char → Option Scanner
  | [] => some scanner
  | character :: rest =>
      match scanner.step? character with
      | some next => next.run? rest
      | none => none

end Scanner

/-- The tokens of a text. -/
def scan? (characters : List Char) : Option (List Token) := do
  let scanner ← (← Scanner.start.run? characters).close?
  return scanner.tokens.reverse

end Token

end Plonkish
