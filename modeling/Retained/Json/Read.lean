import Retained.Json.Builder
import Retained.Json.Number
import Retained.Text.Hex

/-!
# Reading JSON text

One pass over the characters: a scanner collects the characters of the current token and hands
finished tokens to the builder. The grammar is that of the JSON standard and nothing beyond it:
no comments, no trailing commas, no leading zeros, no raw control characters in strings.
-/

namespace Retained.Json

/-- Whether a character is insignificant between tokens. -/
def isSpace (character : Char) : Bool :=
  character == ' ' || character == '\t' || character == '\n' || character == '\r'

/-- Whether a character may belong to a literal or a number. -/
def isWordCharacter (character : Char) : Bool :=
  character.isAlpha || character.isDigit || character == '-' || character == '+' ||
    character == '.'

/-- The scalar that a word spells. -/
def ofWord? (word : List Char) : Option Json :=
  if word = "null".toList then some .null
  else if word = "true".toList then some (.bool true)
  else if word = "false".toList then some (.bool false)
  else (Number.ofLiteral? word).map .number

/-- The token that a punctuation character is. -/
def punctuation? (character : Char) : Option Token :=
  match character.toNat with
  | 0x5B => some .openArray
  | 0x5D => some .closeArray
  | 0x7B => some .openObject
  | 0x7D => some .closeObject
  | 0x2C => some .comma
  | 0x3A => some .colon
  | _ => none

/-- The character that a one-letter escape stands for. -/
def escaped? (letter : Char) : Option Char :=
  match letter with
  | '"' => some '"'
  | '\\' => some '\\'
  | '/' => some '/'
  | 'b' => some '\x08'
  | 'f' => some '\x0c'
  | 'n' => some '\n'
  | 'r' => some '\r'
  | 't' => some '\t'
  | _ => none

/-- The characters that a sequence of codes denotes: two halves of a surrogate pair side by side are
one character, and a half on its own denotes nothing. -/
def charactersOf? : List Nat → Option (List Char)
  | [] => some []
  | [code] => if 0xD800 ≤ code ∧ code ≤ 0xDFFF then none else some [Char.ofNat code]
  | code :: next :: rest =>
    if 0xD800 ≤ code ∧ code ≤ 0xDFFF then
      if code ≤ 0xDBFF ∧ 0xDC00 ≤ next ∧ next ≤ 0xDFFF then
        (charactersOf? rest).map
          (Char.ofNat (0x10000 + (code - 0xD800) * 0x400 + (next - 0xDC00)) :: ·)
      else
        none
    else
      (charactersOf? (next :: rest)).map (Char.ofNat code :: ·)

/-- What the scanner is in the middle of. Collected characters and codes stand newest first. -/
inductive ScanState where
  /-- Between two tokens. -/
  | between
  /-- In a literal or number. -/
  | word (characters : List Char)
  /-- In a string. -/
  | text (codes : List Nat)
  /-- Behind the backslash of an escape. -/
  | escape (codes : List Nat)
  /-- In the hexadecimal digits of an escape, with the digits still to come. -/
  | hex (codes : List Nat) (value : Nat) (left : Nat)

/-- A scanner in the middle of a text. -/
structure Scanner where
  /-- What it is in the middle of. -/
  mode : ScanState
  /-- What the finished tokens build. -/
  builder : Builder

namespace Scanner

/-- Nothing scanned yet. -/
def start : Scanner :=
  { mode := .between, builder := .start }

/-- A character between two tokens. -/
def stepBetween (builder : Builder) (character : Char) : Option Scanner :=
  if isSpace character then
    some { mode := .between, builder }
  else if character = '"' then
    some { mode := .text [], builder }
  else if isWordCharacter character then
    some { mode := .word [character], builder }
  else do
    let builder ← builder.accept (← punctuation? character)
    return { mode := .between, builder }

/-- The builder after the word that the collected characters spell. -/
def finishWord (builder : Builder) (characters : List Char) : Option Builder := do
  builder.accept (.scalar (← ofWord? characters.reverse))

/-- The builder after the string of the collected codes. -/
def finishText (builder : Builder) (codes : List Nat) : Option Builder :=
  builder.accept (.scalar (.string ((charactersOf? codes.reverse).map String.ofList)))

/-- The scanner after one more character, if the text may go on with it. -/
def step (scanner : Scanner) (character : Char) : Option Scanner :=
  let builder := scanner.builder
  match scanner.mode with
  | .between => stepBetween builder character
  | .word characters =>
    if isWordCharacter character then
      some { mode := .word (character :: characters), builder }
    else do
      stepBetween (← finishWord builder characters) character
  | .text codes =>
    if character = '"' then do
      return { mode := .between, builder := ← finishText builder codes }
    else if character = '\\' then
      some { mode := .escape codes, builder }
    else if character.toNat < 0x20 then
      none
    else
      some { mode := .text (character.toNat :: codes), builder }
  | .escape codes =>
    if character = 'u' then
      some { mode := .hex codes 0 4, builder }
    else do
      return { mode := .text ((← escaped? character).toNat :: codes), builder }
  | .hex codes value left => do
    let value := value * 16 + (← Text.hexValue? character)
    return { mode := if left ≤ 1 then .text (value :: codes) else .hex codes value (left - 1),
             builder }

/-- The value read, if the text may end here. -/
def finish (scanner : Scanner) : Option Json :=
  match scanner.mode with
  | .between => scanner.builder.finish
  | .word characters => do (← finishWord scanner.builder characters).finish
  | _ => none

end Scanner

/-- The value that a text writes, if it is a JSON text. -/
def read (text : String) : Option Json := do
  (← text.toList.foldlM Scanner.step .start).finish

end Retained.Json
