import Plonkish.Json.Printer
import Plonkish.Json.Token

namespace Plonkish

/-!
# Tokens of written text

The scanner reads back what is written. A text that is appended in one piece is
read as one token; between two pieces nothing is pending but a number or a word,
which the next mark or blank completes.
-/

namespace Token

variable {tokens : List Token}

namespace Scanner

variable {scanner next closed : Scanner}

/-- Characters are read one part after the other. -/
theorem run?_append (first second : List Char) :
    scanner.run? (first ++ second) = (scanner.run? first).bind (·.run? second) := by
  induction first generalizing scanner with
  | nil => rfl
  | cons character rest inductionHypothesis =>
      simp only [List.cons_append, run?]
      cases scanner.step? character with
      | none => rfl
      | some next => exact inductionHypothesis

/-- The second part is read where the first one has ended. -/
theorem run?_append_of_eq_some
    {first : List Char}
    (reads : scanner.run? first = some next)
    (second : List Char) :
    scanner.run? (first ++ second) = next.run? second := by
  rw [run?_append, reads, Option.bind_some]

/-- A character that continues no number and no word. -/
def IsMark (character : Char) : Prop :=
  character.isAlpha = false ∧ Numeral.decimalDigit? character = none
    ∧ character ≠ '.' ∧ character ≠ '+' ∧ character ≠ '-'

instance (character : Char) : Decidable (IsMark character) :=
  inferInstanceAs (Decidable (_ ∧ _ ∧ _ ∧ _ ∧ _))

/-- A mark does not continue a number, wherever the number stands. -/
theorem nextPart?_of_isMark {character : Char} (mark : IsMark character) (part : NumberPart) :
    nextPart? part character = none := by
  obtain ⟨noLetter, noDigit, noPoint, noPlus, noMinus⟩ := mark
  have noZero : character ≠ '0' := by
    rintro rfl
    exact absurd noDigit (by decide)
  have noSmall : character ≠ 'e' := by
    rintro rfl
    exact absurd noLetter (by decide)
  have noLarge : character ≠ 'E' := by
    rintro rfl
    exact absurd noLetter (by decide)
  cases part <;>
    simp [nextPart?, noDigit, noPoint, noPlus, noMinus, noZero, noSmall, noLarge]

/-- A mark completes what is pending, and is read after it. -/
theorem step?_of_isMark
    (closes : scanner.close? = some closed)
    {character : Char}
    (mark : IsMark character) :
    scanner.step? character = closed.open? character := by
  obtain ⟨pending, tokens⟩ := scanner
  cases pending with
  | none =>
      cases closes
      rfl
  | text spelling => cases closes
  | escape spelling => cases closes
  | unit spelling missing value => cases closes
  | number part value =>
      unfold step?
      dsimp only
      rw [nextPart?_of_isMark mark, closes]
      rfl
  | word letters =>
      unfold step?
      dsimp only
      rw [if_neg (by simp [mark.1]), closes]
      rfl

end Scanner

/-- The scanner has read a text as some tokens, and nothing is pending. -/
def Ready (written : String) (tokens : List Token) : Prop :=
  Scanner.start.run? written.toList = some ⟨.none, tokens.reverse⟩

/-- The scanner has read a text as some tokens, the last of which may go on. -/
def Reads (written : String) (tokens : List Token) : Prop :=
  ∃ scanner, Scanner.start.run? written.toList = some scanner
    ∧ scanner.close? = some ⟨.none, tokens.reverse⟩

variable {written : String}

/-- Nothing has been read of the empty text. -/
theorem ready_empty : Ready "" [] := rfl

/-- A text with nothing pending has been read. -/
theorem Ready.reads (ready : Ready written tokens) : Reads written tokens :=
  ⟨_, ready, rfl⟩

/-- A text that is read as some tokens has these tokens. -/
theorem Reads.scan? (reads : Reads written tokens) :
    Token.scan? written.toList = some tokens := by
  obtain ⟨scanner, runs, closes⟩ := reads
  unfold Token.scan?
  rw [runs]
  change (do
    let scanner ← scanner.close?
    return scanner.tokens.reverse) = _
  rw [closes]
  exact congrArg some tokens.reverse_reverse

namespace Ready

/-- A blank changes nothing. -/
theorem push_space (ready : Ready written tokens) : Ready (written.push ' ') tokens := by
  unfold Ready
  rw [String.toList_push, Scanner.run?_append_of_eq_some ready]
  rfl

/-- Blanks between tokens are skipped. -/
theorem pushAll_spaces (ready : Ready written tokens) (count : Nat) :
    Ready (Json.pushAll written (List.replicate count ' ')) tokens := by
  induction count generalizing written with
  | zero => exact ready
  | succ count inductionHypothesis => exact inductionHypothesis ready.push_space

end Ready

namespace Reads

/-- After a line break and blanks nothing is pending. -/
theorem newLine (reads : Reads written tokens) (depth : Nat) :
    Ready (Json.newLine written depth) tokens := by
  obtain ⟨scanner, runs, closes⟩ := reads
  have broken : Ready (written.push '\n') tokens := by
    unfold Ready
    rw [String.toList_push, Scanner.run?_append_of_eq_some runs]
    unfold Scanner.run?
    rw [Scanner.step?_of_isMark closes (by decide)]
    rfl
  exact broken.pushAll_spaces (2 * depth)

/-- A mark is read as its token. -/
theorem push
    (reads : Reads written tokens)
    {character : Char}
    {token : Token}
    (mark : Scanner.IsMark character)
    (isToken : ∀ earlier, Scanner.open? ⟨.none, earlier⟩ character = some ⟨.none, token :: earlier⟩) :
    Ready (written.push character) (tokens ++ [token]) := by
  obtain ⟨scanner, runs, closes⟩ := reads
  unfold Ready
  rw [String.toList_push, Scanner.run?_append_of_eq_some runs]
  unfold Scanner.run?
  rw [Scanner.step?_of_isMark closes mark, isToken, List.reverse_append]
  rfl

/-- A comma completes what is pending and is a token. -/
theorem push_comma (reads : Reads written tokens) :
    Ready (written.push ',') (tokens ++ [.comma]) :=
  reads.push (by decide) fun _ => rfl

/-- A colon completes what is pending and is a token. -/
theorem push_colon (reads : Reads written tokens) :
    Ready (written.push ':') (tokens ++ [.colon]) :=
  reads.push (by decide) fun _ => rfl

/-- The end of an array completes what is pending and is a token. -/
theorem push_closeArray (reads : Reads written tokens) :
    Ready (written.push ']') (tokens ++ [.closeArray]) :=
  reads.push (by decide) fun _ => rfl

/-- The end of an object completes what is pending and is a token. -/
theorem push_closeObject (reads : Reads written tokens) :
    Ready (written.push '\x7d') (tokens ++ [.closeObject]) :=
  reads.push (by decide) fun _ => rfl

/-- The start of an array completes what is pending and is a token. -/
theorem push_openArray (reads : Reads written tokens) :
    Ready (written.push '[') (tokens ++ [.openArray]) :=
  reads.push (by decide) fun _ => rfl

/-- The start of an object completes what is pending and is a token. -/
theorem push_openObject (reads : Reads written tokens) :
    Ready (written.push '\x7b') (tokens ++ [.openObject]) :=
  reads.push (by decide) fun _ => rfl

end Reads

/-- Characters are appended in order. -/
theorem toList_pushAll (written : String) (characters : List Char) :
    (Json.pushAll written characters).toList = written.toList ++ characters := by
  unfold Json.pushAll
  induction characters generalizing written with
  | nil => simp
  | cons character rest inductionHypothesis =>
      rw [List.foldl_cons, inductionHypothesis, String.toList_push, List.append_assoc]
      rfl

section Texts

/-- A text of which some characters were read; no surrogate is waiting for its partner. -/
def spelled (characters : List Char) : Spelling :=
  ⟨characters, none, true⟩

/-- A unit that is no surrogate is the character with its number. -/
theorem pushUnit_spelled
    (character : Char)
    (small : character.toNat < 0xD800)
    (characters : List Char) :
    (spelled characters).pushUnit character.toNat = spelled (character :: characters) := by
  have notHigh : ¬ 0xD800 ≤ character.toNat := Nat.not_le.mpr small
  have notLow : ¬ 0xDC00 ≤ character.toNat := by omega
  simp [Spelling.pushUnit, Spelling.push, spelled, notHigh, notLow]

/-- A control character is read from the two digits of its number. -/
theorem run?_unit
    {character : Char}
    (control : character.toNat < 0x20)
    (earlier : List Char)
    (tokens : List Token) :
    Scanner.run? ⟨.text (spelled earlier), tokens⟩
        (['\\', 'u', '0', '0'] ++ Numeral.byteDigits character.toNat) =
      some ⟨.text (spelled (character :: earlier)), tokens⟩ := by
  have opened : Scanner.run? ⟨.text (spelled earlier), tokens⟩ ['\\', 'u', '0', '0'] =
      some ⟨.unit (spelled earlier) 2 0, tokens⟩ := rfl
  have high := Numeral.hexDigit?_hexDigit (show character.toNat / 16 < 16 by omega)
  have low := Numeral.hexDigit?_hexDigit (show character.toNat % 16 < 16 by omega)
  have number : 16 * (character.toNat / 16) + character.toNat % 16 = character.toNat := by omega
  have pushed := pushUnit_spelled character (by omega) earlier
  rw [Scanner.run?_append_of_eq_some opened]
  simp [Numeral.byteDigits, Scanner.run?, Scanner.step?, Scanner.resume, high, low, number, pushed]

/-- A character is read as it is written, by itself or as an escape. -/
theorem run?_escape (character : Char) (earlier : List Char) (tokens : List Token) :
    Scanner.run? ⟨.text (spelled earlier), tokens⟩ (Json.escape character) =
      some ⟨.text (spelled (character :: earlier)), tokens⟩ := by
  unfold Json.escape
  split
  iterate 7 rfl
  next noQuote noBackslash _ _ _ _ _ =>
    split
    next control => exact run?_unit control earlier tokens
    next printable =>
      have reads : Scanner.step? ⟨.text (spelled earlier), tokens⟩ character =
          some ⟨.text (spelled (character :: earlier)), tokens⟩ := by
        unfold Scanner.step?
        dsimp only
        rw [if_neg noQuote, if_neg noBackslash, if_neg printable]
        rfl
      unfold Scanner.run?
      rw [reads]
      rfl

/-- Escaped characters are read back in order, behind those that were read earlier. -/
theorem run?_flatMap_escape (characters earlier : List Char) (tokens : List Token) :
    Scanner.run? ⟨.text (spelled earlier), tokens⟩ (characters.flatMap Json.escape) =
      some ⟨.text (spelled (characters.reverse ++ earlier)), tokens⟩ := by
  induction characters generalizing earlier with
  | nil => rfl
  | cons character rest inductionHypothesis =>
      rw [List.flatMap_cons, Scanner.run?_append_of_eq_some (run?_escape character earlier tokens),
        inductionHypothesis, List.reverse_cons, List.append_assoc]
      rfl

/-- A quoted text is its escaped characters between quotation marks. -/
theorem toList_quote (written value : String) :
    (Json.quote written value).toList =
      written.toList ++ ('"' :: (value.toList.flatMap Json.escape ++ ['"'])) := by
  have escaped : ∀ (characters : List Char) (start : String),
      (characters.foldl (fun written character =>
        Json.pushAll written (Json.escape character)) start).toList =
          start.toList ++ characters.flatMap Json.escape := by
    intro characters
    induction characters with
    | nil => simp
    | cons character rest inductionHypothesis =>
        intro start
        rw [List.foldl_cons, inductionHypothesis, toList_pushAll, List.append_assoc]
        rfl
  simp [Json.quote, escaped, String.toList_push]

/-- A quoted text is read as that text, whichever characters it has. -/
theorem Ready.quote (ready : Ready written tokens) (value : String) :
    Ready (Json.quote written value) (tokens ++ [.text (some value)]) := by
  have opened : Scanner.step? ⟨.none, tokens.reverse⟩ '"' =
      some ⟨.text (spelled []), tokens.reverse⟩ := rfl
  have closed : Scanner.run?
      ⟨.text (spelled (value.toList.reverse ++ [])), tokens.reverse⟩ ['"'] =
        some ⟨.none, .text (some value) :: tokens.reverse⟩ := by
    simp [Scanner.run?, Scanner.step?, Scanner.emit, Spelling.text?, spelled]
  unfold Ready
  rw [toList_quote, Scanner.run?_append_of_eq_some ready, Scanner.run?, opened]
  dsimp only
  rw [Scanner.run?_append_of_eq_some (run?_flatMap_escape value.toList [] tokens.reverse), closed,
    List.reverse_append]
  rfl

end Texts

section Scalars

/-- The digits of a positive number are read as that number. -/
theorem run?_toDigits {value : Nat} (positive : 0 < value) (tokens : List Token) :
    Scanner.run? ⟨.none, tokens⟩ (Nat.toDigits 10 value) =
      some ⟨.number .digits (some value), tokens⟩ := by
  induction value using Nat.strongRecOn with
  | ind value inductionHypothesis =>
      rcases Nat.lt_or_ge value 10 with single | several
      · rw [Nat.toDigits_of_lt_base single]
        have first : ∀ digit < 10, 0 < digit →
            Scanner.run? ⟨.none, tokens⟩ [Nat.digitChar digit] =
              some ⟨.number .digits (some digit), tokens⟩ := by
          intro digit below above
          match digit, below, above with
          | 1, _, _ | 2, _, _ | 3, _, _ | 4, _, _ | 5, _, _ | 6, _, _ | 7, _, _ | 8, _, _
          | 9, _, _ => rfl
        exact first value single positive
      · have fewer : 0 < value / 10 := by omega
        have last : value % 10 < 10 := Nat.mod_lt _ (by decide)
        have split := Nat.toDigits_append_toDigits (b := 10) (by decide) fewer last
        rw [Nat.toDigits_of_lt_base last, Nat.div_add_mod] at split
        rw [← split, Scanner.run?_append_of_eq_some
          (inductionHypothesis (value / 10) (by omega) fewer)]
        have digit : ∀ digit < 10, Numeral.decimalDigit? (Nat.digitChar digit) = some digit := by
          decide
        simp [Scanner.run?, Scanner.step?, Scanner.nextPart?, Scanner.nextValue, Scanner.resume,
          digit _ last, Nat.div_add_mod]

/-- A number is read from its digits. -/
theorem Ready.pushNatural (ready : Ready written tokens) (value : Nat) :
    Reads (Json.pushNatural written value) (tokens ++ [.scalar (.natural value)]) := by
  unfold Json.pushNatural Reads
  rw [toList_pushAll, Scanner.run?_append_of_eq_some ready]
  rcases Nat.eq_zero_or_pos value with rfl | positive
  · exact ⟨_, rfl, by rw [List.reverse_append]; rfl⟩
  · rw [run?_toDigits positive]
    exact ⟨_, rfl, by rw [List.reverse_append]; rfl⟩

/-- A word is read as its value. -/
theorem Ready.append
    (ready : Ready written tokens)
    {word : String}
    {value : Json}
    (pending : Pending)
    (runs : Scanner.run? ⟨.none, tokens.reverse⟩ word.toList = some ⟨pending, tokens.reverse⟩)
    (closes : Scanner.close? ⟨pending, tokens.reverse⟩ =
      some ⟨.none, .scalar value :: tokens.reverse⟩) :
    Reads (written ++ word) (tokens ++ [.scalar value]) := by
  refine ⟨⟨pending, tokens.reverse⟩, ?_, ?_⟩
  · rw [String.toList_append, Scanner.run?_append_of_eq_some ready, runs]
  · rw [closes, List.reverse_append]
    rfl

theorem Ready.append_null (ready : Ready written tokens) :
    Reads (written ++ "null") (tokens ++ [.scalar .null]) :=
  ready.append (.word ['l', 'l', 'u', 'n']) rfl rfl

theorem Ready.append_true (ready : Ready written tokens) :
    Reads (written ++ "true") (tokens ++ [.scalar (.bool true)]) :=
  ready.append (.word ['e', 'u', 'r', 't']) rfl rfl

theorem Ready.append_false (ready : Ready written tokens) :
    Reads (written ++ "false") (tokens ++ [.scalar (.bool false)]) :=
  ready.append (.word ['e', 's', 'l', 'a', 'f']) rfl rfl

/-- An empty array stays on its line. -/
theorem Ready.append_emptyArray (ready : Ready written tokens) :
    Ready (written ++ "[]") (tokens ++ [.openArray, .closeArray]) := by
  unfold Ready
  rw [String.toList_append, Scanner.run?_append_of_eq_some ready, List.reverse_append]
  rfl

/-- An empty object in one piece is read as its two marks. -/
theorem Ready.append_emptyObject (ready : Ready written tokens) :
    Ready (written ++ "\x7b\x7d") (tokens ++ [.openObject, .closeObject]) := by
  unfold Ready
  rw [String.toList_append, Scanner.run?_append_of_eq_some ready, List.reverse_append]
  rfl

/-- A colon may be followed by a blank. -/
theorem Ready.append_colon (ready : Ready written tokens) :
    Ready (written ++ ": ") (tokens ++ [.colon]) := by
  unfold Ready
  rw [String.toList_append, Scanner.run?_append_of_eq_some ready, List.reverse_append]
  rfl

end Scalars

end Token

end Plonkish
