import Retained.Json.Number
import Retained.Text.Hex

/-!
# Writing JSON text

Values are written without insignificant space. In strings the quotation mark, the backslash and the
control characters are escaped, by a letter where there is one, and every other character stands for
itself.
-/

namespace Retained.Json

/-- The letter that escapes a character, if one does. -/
def escapeLetter? (character : Char) : Option Char :=
  match character with
  | '"' => some '"'
  | '\\' => some '\\'
  | '\x08' => some 'b'
  | '\x0c' => some 'f'
  | '\n' => some 'n'
  | '\r' => some 'r'
  | '\t' => some 't'
  | _ => none

/-- One character inside a string. -/
def writeCharacter (character : Char) : List Char :=
  match escapeLetter? character with
  | some letter => ['\\', letter]
  | none =>
    if character.toNat < 0x20 then
      ['\\', 'u', '0', '0', Text.hexDigit (character.toNat / 16),
        Text.hexDigit (character.toNat % 16)]
    else [character]

/-- A string; one that denotes no text is written as half of a surrogate pair. -/
def writeText : Option String → String
  | some text => "\"" ++ String.ofList (text.toList.flatMap writeCharacter) ++ "\""
  | none => "\"\\ud800\""

mutual

/-- The text of a value. -/
def write : Json → String
  | .null => "null"
  | .bool value => if value then "true" else "false"
  | .number value => value.render
  | .string text => writeText text
  | .array [] => "[]"
  | .array (element :: elements) => "[" ++ write element ++ writeElements elements ++ "]"
  | .object [] => "\x7b\x7d"
  | .object ((name, value) :: members) =>
    "\x7b" ++ writeText name ++ ":" ++ write value ++ writeMembers members ++ "\x7d"

/-- Further elements of an array, each after a comma. -/
def writeElements : List Json → String
  | [] => ""
  | element :: elements => "," ++ write element ++ writeElements elements

/-- Further members of an object, each after a comma. -/
def writeMembers : List (Option String × Json) → String
  | [] => ""
  | (name, value) :: members =>
    "," ++ writeText name ++ ":" ++ write value ++ writeMembers members

end

end Retained.Json
