import Retained.Json.Basic

/-!
# JSON numbers

The spelling of a number: a sign for negative numbers, digits without a leading zero, perhaps a
fraction, perhaps an exponent. A run of digits alone is read as the count that it writes; every
other spelling is kept digit by digit.
-/

namespace Retained.Number

/-- The number that a decimal digit writes. -/
def digitValue (digit : Char) : Nat :=
  digit.toNat - '0'.toNat

/-- The number that a run of decimal digits writes. -/
def ofDigits (digits : List Char) : Nat :=
  digits.foldl (fun value digit => value * 10 + digitValue digit) 0

/-- A run of digits and what follows it, if there is at least one digit. -/
def takeDigits? (text : List Char) : Option (List Char × List Char) :=
  match text.takeWhile Char.isDigit with
  | [] => none
  | digits => some (digits, text.dropWhile Char.isDigit)

/-- The digits after a decimal point, if the text starts with one. -/
def takeFraction? : List Char → Option (List Char × List Char)
  | '.' :: rest => takeDigits? rest
  | rest => some ([], rest)

/-- The signed exponent, if the text starts with an exponent mark. -/
def takeExponent? : List Char → Option (Option Int × List Char)
  | mark :: rest =>
    if mark = 'e' ∨ mark = 'E' then
      match rest with
      | '-' :: rest => (takeDigits? rest).map fun (digits, rest) =>
        (some (-Int.ofNat (ofDigits digits)), rest)
      | '+' :: rest => (takeDigits? rest).map fun (digits, rest) => (some (ofDigits digits), rest)
      | rest => (takeDigits? rest).map fun (digits, rest) => (some (ofDigits digits), rest)
    else
      some (none, mark :: rest)
  | [] => some (none, [])

/-- The number that a whole text spells, if it spells one. -/
def ofLiteral? (text : List Char) : Option Number := do
  let negative := text.head? == some '-'
  let (whole, rest) ← takeDigits? (if negative then text.drop 1 else text)
  if whole.head? == some '0' && 1 < whole.length then none
  let (fraction, rest) ← takeFraction? rest
  let (exponent, rest) ← takeExponent? rest
  if !rest.isEmpty then none
  if !negative && fraction.isEmpty && exponent.isNone then
    return .natural (ofDigits whole)
  else
    return .decimal negative whole fraction (exponent.getD 0)

/-- The text of a number. -/
def render : Number → String
  | .natural value => toString value
  | .decimal negative whole fraction exponent =>
    (if negative then "-" else "") ++ String.ofList whole ++
      (if fraction.isEmpty then "" else "." ++ String.ofList fraction) ++ "e" ++ toString exponent

end Retained.Number
