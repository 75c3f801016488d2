/-!
# JSON values

A JSON value as its text gives it: members keep their order and repetitions, and a number keeps the
distinction between a bare run of digits and every other spelling, because a count or an identifier
may only be written as the former. A string whose escapes name half of a surrogate pair is legal
JSON that denotes no text; it is kept as `none`, so that it can be passed over where it does not
matter and refused where a text is wanted.
-/

namespace Retained

/-- A JSON number by its spelling. -/
inductive Number where
  /-- Digits alone. -/
  | natural (value : Nat)
  /-- Any other spelling: the digits before and after the point, scaled by a power of ten and
  negated if `negative`. -/
  | decimal (negative : Bool) (whole fraction : List Char) (exponent : Int)
deriving DecidableEq, Repr

/-- A JSON value. -/
inductive Json where
  /-- The literal `null`. -/
  | null
  /-- The literals `true` and `false`. -/
  | bool (value : Bool)
  /-- A number. -/
  | number (number : Number)
  /-- A string, `none` if it denotes no text. -/
  | string (text : Option String)
  /-- An array. -/
  | array (elements : List Json)
  /-- An object; a name may repeat, and may denote no text. -/
  | object (members : List (Option String × Json))
deriving Repr, Inhabited

namespace Json

/-- A text as a JSON string. -/
def ofText (text : String) : Json :=
  .string (some text)

/-- A count as a JSON number. -/
def ofNat (value : Nat) : Json :=
  .number (.natural value)

/-- An object with the given members, in their order. -/
def ofMembers (members : List (String × Json)) : Json :=
  .object (members.map fun (name, value) => (some name, value))

/-- A value that may be missing, as itself or `null`. -/
def ofOption {α : Type} (encode : α → Json) : Option α → Json
  | some value => encode value
  | none => .null

end Json

end Retained
