import Retained.Json.Number

/-!
# Numbers in double precision

A number other than a 64-bit count is held in double precision, unless it comes out as infinity. It
is read in two parts that are each rounded on their own: its leading digits as a 64-bit word, and
the power of ten that scales the word. Digits of the whole part that the word has no room for only
raise the power; digits of the fraction that it has no room for are dropped. Because both parts and
their product are rounded, the bound between the numbers held and those refused depends on the
spelling: of `17976931348623157e292` and `1797693134862315700e290` only the first can be held.
-/

namespace Retained.Number

/-- The double-precision value nearest to a whole number of any size: 53 significant bits, a half
going to the even neighbour. -/
def nearestDouble (number : Nat) : Nat :=
  let unit := Nat.pow 2 (number.log2 + 1 - 53)
  let whole := number / unit
  let rest := number % unit
  if 2 * rest < unit ∨ (2 * rest = unit ∧ whole % 2 = 0) then whole * unit else (whole + 1) * unit

/-- The least number whose nearest double-precision value is infinite. -/
def doubleBound : Nat := Nat.pow 2 1024 - Nat.pow 2 970

/-- The exponent of the largest power of ten in double precision. -/
def largestPower : Int := 308

/-- A word of leading digits, and the power of ten that scales it. -/
structure Scaled where
  /-- The leading digits. -/
  word : Nat
  /-- The power of ten. -/
  exponent : Int
deriving DecidableEq, Repr

namespace Scaled

/-- A word with digits put behind it as long as it stays below `2 ^ 64`, and the digits that are
left. -/
def takeWord (word : Nat) : List Char → Nat × List Char
  | [] => (word, [])
  | digit :: digits =>
    let next := word * 10 + digitValue digit
    if next < UInt64.size then takeWord next digits else (word, digit :: digits)

/-- The word and power for the digits before and after a point and a power of ten. -/
def ofDigits (whole fraction : List Char) (exponent : Int) : Scaled :=
  let (leading, counted) := takeWord 0 whole
  let (word, dropped) := takeWord leading fraction
  { word, exponent := exponent + counted.length - (fraction.length - dropped.length) }

/-- Whether the product of the word and the power stays finite. A negative power divides the word,
which keeps it finite. -/
def isFinite (scaled : Scaled) : Bool :=
  if scaled.word = 0 ∨ scaled.exponent < 0 then true
  else if largestPower < scaled.exponent then false
  else
    nearestDouble scaled.word * nearestDouble (Nat.pow 10 scaled.exponent.toNat) < doubleBound

end Scaled

/-- Whether a number can be held: a 64-bit count as it is, any other number in double precision. -/
def fitsDouble : Number → Bool
  | .natural value =>
    value < UInt64.size || (Scaled.ofDigits (Nat.toDigits 10 value) [] 0).isFinite
  | .decimal _ whole fraction exponent => (Scaled.ofDigits whole fraction exponent).isFinite

/-- The largest finite number in its common spelling can be held. -/
example : fitsDouble (.decimal false "1".toList "7976931348623157".toList 308) = true := by
  decide +kernel

/-- One more in the last place cannot. -/
example : fitsDouble (.decimal false "1".toList "7976931348623158".toList 308) = false := by
  decide +kernel

/-- The same number with a zero behind it can, because its word and its power round
differently. -/
example : fitsDouble (.decimal false "1".toList "79769313486231580".toList 308) = true := by
  decide +kernel

end Retained.Number
