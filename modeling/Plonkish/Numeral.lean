namespace Plonkish

/-!
# Numerals

Digits in bases ten and sixteen, and the numbers they spell. Only the ASCII
digits count. Three readings of decimal text are told apart: canonical text has
no sign and no idle zero; a word may have one plus sign and idle zeros, but
stays below `2 ^ 64`; a hexadecimal byte string has two digits to a byte, the
first byte being the least significant.
-/

namespace Numeral

/-- The value of a decimal digit. -/
def decimalDigit? (character : Char) : Option Nat :=
  if '0' ≤ character ∧ character ≤ '9' then some (character.toNat - '0'.toNat) else none

/-- The value of a hexadecimal digit of either case. -/
def hexDigit? (character : Char) : Option Nat :=
  if '0' ≤ character ∧ character ≤ '9' then some (character.toNat - '0'.toNat)
  else if 'a' ≤ character ∧ character ≤ 'f' then some (character.toNat - 'a'.toNat + 10)
  else if 'A' ≤ character ∧ character ≤ 'F' then some (character.toNat - 'A'.toNat + 10)
  else none

/-- The hexadecimal digit of a number below 16, in lower case. -/
def hexDigit (value : Nat) : Char :=
  if value < 10 then Char.ofNat ('0'.toNat + value) else Char.ofNat ('a'.toNat + (value - 10))

/-- The digit of a number is read as that number. -/
theorem hexDigit?_hexDigit {value : Nat} (small : value < 16) :
    hexDigit? (hexDigit value) = some value := by
  have all : ∀ value < 16, hexDigit? (hexDigit value) = some value := by decide
  exact all value small

/-- The number whose digits are given most significant first. -/
def ofDigits (base : Nat) (digits : List Nat) : Nat :=
  digits.foldl (fun number digit => base * number + digit) 0

/-- The number spelled by decimal digits, of which there may be none. -/
def decimal? (characters : List Char) : Option Nat :=
  (characters.mapM decimalDigit?).map (ofDigits 10)

/-- The number spelled by canonical decimal text. -/
def canonicalDecimal? (text : String) : Option Nat :=
  match text.toList with
  | [] => none
  | ['0'] => some 0
  | '0' :: _ => none
  | characters => decimal? characters

/-- The number of 64 bits spelled by decimal text. -/
def word? (text : String) : Option UInt64 :=
  let digits :=
    match text.toList with
    | '+' :: digits => digits
    | digits => digits
  if digits.isEmpty then
    none
  else
    (decimal? digits).bind fun number =>
      if number < 1 <<< 64 then some (UInt64.ofNat number) else none

/-- The two digits of a byte. -/
def byteDigits (byte : Nat) : List Char :=
  [hexDigit (byte / 16), hexDigit (byte % 16)]

/-- The digits of the given number of bytes of a number, least significant byte first. -/
def littleEndian : Nat → Nat → List Char
  | 0, _ => []
  | bytes + 1, number => byteDigits (number % 256) ++ littleEndian bytes (number / 256)

/-- The number whose bytes are spelled least significant first. -/
def ofLittleEndian? : List Char → Option Nat
  | [] => some 0
  | [_] => none
  | high :: low :: rest => do
      let high ← hexDigit? high
      let low ← hexDigit? low
      let number ← ofLittleEndian? rest
      return 16 * high + low + 256 * number

/-- Without every leading pair of the two given characters. -/
def dropPairs (first second : Char) : List Char → List Char
  | left :: right :: rest =>
      if left = first ∧ right = second then dropPairs first second rest
      else left :: right :: rest
  | characters => characters

/-- A hexadecimal number without its base marks and idle zeros, in lower case. -/
def normalHex (text : String) : List Char :=
  let digits := dropPairs '0' 'X' (dropPairs '0' 'x' text.toList)
  (digits.dropWhile (· = '0')).map Char.toLower

end Numeral

end Plonkish
