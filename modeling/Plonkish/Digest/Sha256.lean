import Plonkish.Numeral

namespace Plonkish

/-!
# SHA-256

A message is padded to blocks of sixteen words. Each block is extended to
sixty-four words, and these are mixed into the eight words of the state one
after the other. The digest is the final state in hexadecimal.
-/

namespace Sha256

/-- The eight words of the state. -/
structure State where
  a : UInt32
  b : UInt32
  c : UInt32
  d : UInt32
  e : UInt32
  f : UInt32
  g : UInt32
  h : UInt32
  deriving DecidableEq

namespace State

def start : State where
  a := 0x6a09e667
  b := 0xbb67ae85
  c := 0x3c6ef372
  d := 0xa54ff53a
  e := 0x510e527f
  f := 0x9b05688c
  g := 0x1f83d9ab
  h := 0x5be0cd19

/-- The words of a state in order. -/
def words (state : State) : List UInt32 :=
  [state.a, state.b, state.c, state.d, state.e, state.f, state.g, state.h]

/-- The sum of two states, word by word. -/
def sum (left right : State) : State where
  a := left.a + right.a
  b := left.b + right.b
  c := left.c + right.c
  d := left.d + right.d
  e := left.e + right.e
  f := left.f + right.f
  g := left.g + right.g
  h := left.h + right.h

end State

/-- The constants of the sixty-four rounds. -/
def roundConstants : List UInt32 :=
  [0x428a2f98, 0x71374491, 0xb5c0fbcf, 0xe9b5dba5, 0x3956c25b, 0x59f111f1, 0x923f82a4, 0xab1c5ed5,
   0xd807aa98, 0x12835b01, 0x243185be, 0x550c7dc3, 0x72be5d74, 0x80deb1fe, 0x9bdc06a7, 0xc19bf174,
   0xe49b69c1, 0xefbe4786, 0x0fc19dc6, 0x240ca1cc, 0x2de92c6f, 0x4a7484aa, 0x5cb0a9dc, 0x76f988da,
   0x983e5152, 0xa831c66d, 0xb00327c8, 0xbf597fc7, 0xc6e00bf3, 0xd5a79147, 0x06ca6351, 0x14292967,
   0x27b70a85, 0x2e1b2138, 0x4d2c6dfc, 0x53380d13, 0x650a7354, 0x766a0abb, 0x81c2c92e, 0x92722c85,
   0xa2bfe8a1, 0xa81a664b, 0xc24b8b70, 0xc76c51a3, 0xd192e819, 0xd6990624, 0xf40e3585, 0x106aa070,
   0x19a4c116, 0x1e376c08, 0x2748774c, 0x34b0bcb5, 0x391c0cb3, 0x4ed8aa4a, 0x5b9cca4f, 0x682e6ff3,
   0x748f82ee, 0x78a5636f, 0x84c87814, 0x8cc70208, 0x90befffa, 0xa4506ceb, 0xbef9a3f7, 0xc67178f2]

/-- Rotate a word to the right. -/
def rotate (word : UInt32) (count : UInt32) : UInt32 :=
  (word >>> count) ||| (word <<< (32 - count))

/-- Mix one word of the message and one constant into the state. -/
def round (state : State) (word constant : UInt32) : State :=
  let upper := rotate state.e 6 ^^^ rotate state.e 11 ^^^ rotate state.e 25
  let choice := (state.e &&& state.f) ^^^ (~~~state.e &&& state.g)
  let first := state.h + upper + choice + constant + word
  let lower := rotate state.a 2 ^^^ rotate state.a 13 ^^^ rotate state.a 22
  let majority := (state.a &&& state.b) ^^^ (state.a &&& state.c) ^^^ (state.b &&& state.c)
  { a := first + (lower + majority)
    b := state.a
    c := state.b
    d := state.c
    e := state.d + first
    f := state.e
    g := state.f
    h := state.g }

/-- The next word of a schedule, from its sixteen latest words. -/
def nextWord (window : Array UInt32) (position : Nat) : UInt32 :=
  let wordBack := fun (back : Nat) => window.getD (position - back) 0
  let recent := wordBack 2
  let older := wordBack 15
  let small := rotate older 7 ^^^ rotate older 18 ^^^ (older >>> 3)
  let large := rotate recent 17 ^^^ rotate recent 19 ^^^ (recent >>> 10)
  wordBack 16 + small + wordBack 7 + large

/-- The sixty-four words that a block of sixteen words is extended to. -/
def schedule (block : List UInt32) : Array UInt32 :=
  (List.range 48).foldl (fun window step => window.push (nextWord window (step + 16))) block.toArray

/-- Mix a block into the state. -/
def compress (state : State) (block : List UInt32) : State :=
  let mixed :=
    ((schedule block).toList.zip roundConstants).foldl
      (fun state (word, constant) => round state word constant) state
  mixed.sum state

/-- The bytes of a number, most significant first. -/
def bigEndian (bytes : Nat) (number : Nat) : List UInt8 :=
  (List.range bytes).reverse.map fun position => UInt8.ofNat (number >>> (8 * position))

/-- What follows a message of the given length: a marker, zeros, and the length in bits. -/
def padding (length : Nat) : List UInt8 :=
  0x80 :: List.replicate ((119 - length % 64) % 64) 0 ++ bigEndian 8 (8 * length)

/-- The message with its padding. -/
def pad (message : ByteArray) : ByteArray :=
  (padding message.size).foldl ByteArray.push message

/-- The byte at a position, zero past the end. -/
def byteAt (bytes : ByteArray) (position : Nat) : UInt32 :=
  match bytes[position]? with
  | some byte => byte.toUInt32
  | none => 0

/-- The word that four bytes spell, the most significant byte first. -/
def wordAt (bytes : ByteArray) (position : Nat) : UInt32 :=
  (byteAt bytes position <<< 24) ||| (byteAt bytes (position + 1) <<< 16)
    ||| (byteAt bytes (position + 2) <<< 8) ||| byteAt bytes (position + 3)

/-- The sixteen words of a block. -/
def blockAt (bytes : ByteArray) (block : Nat) : List UInt32 :=
  (List.range 16).map fun word => wordAt bytes (64 * block + 4 * word)

/-- Mix every block of a padded message into the first state. -/
def absorb (bytes : ByteArray) : State :=
  (List.range (bytes.size / 64)).foldl
    (fun state block => compress state (blockAt bytes block)) .start

/-- The digest of a message. -/
def digest (message : ByteArray) : List UInt8 :=
  (absorb (pad message)).words.flatMap fun word => bigEndian 4 word.toNat

/-- The digest of the bytes of a text, in hexadecimal. -/
def ofText (text : String) : String :=
  String.ofList ((digest text.toUTF8).flatMap fun byte => Numeral.byteDigits byte.toNat)

end Sha256

end Plonkish
