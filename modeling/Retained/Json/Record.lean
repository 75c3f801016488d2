import Std.Data.ExtTreeMap
import Retained.Json.Double

/-!
# Decoding JSON values

The parts that decoders are made of. A record lists the members it knows: others are passed over,
however often they occur, and a known one may occur once. A record may also be written as an array
of its members in their order, with the last ones left out. A variant is a record with one more
member, the tag, that says which record it is; in array form the tag stands first.

A variant is held as a whole before its tag is known, so all of it has to be holdable: texts
complete, numbers within double precision, and nesting within a limit that counts from the outermost
value.
-/

namespace Retained.Json

/-- The number of containers that may stand around each other in what is held as a whole. -/
def nestingLimit : Nat := 127

mutual

/-- Whether a value can be held with room for so many containers around each other. -/
def isHoldable (room : Nat) : Json → Bool
  | .null => true
  | .bool _ => true
  | .number value => value.fitsDouble
  | .string text => text.isSome
  | .array elements =>
    match room with
    | 0 => false
    | room + 1 => areHoldable room elements
  | .object members =>
    match room with
    | 0 => false
    | room + 1 => areHoldableMembers room members

/-- Whether every element can be held. -/
def areHoldable (room : Nat) : List Json → Bool
  | [] => true
  | element :: elements => isHoldable room element && areHoldable room elements

/-- Whether every member can be held, its name included. -/
def areHoldableMembers (room : Nat) : List (Option String × Json) → Bool
  | [] => true
  | (name, value) :: members =>
    name.isSome && isHoldable room value && areHoldableMembers room members

end

/-- The text of a string. -/
def text? : Json → Option String
  | .string text => text
  | _ => none

/-- The value of a literal `true` or `false`. -/
def flag? : Json → Option Bool
  | .bool value => some value
  | _ => none

/-- A number written as digits alone. -/
def natural? : Json → Option Nat
  | .number (.natural value) => some value
  | _ => none

/-- A 64-bit number written as digits alone. -/
def word64? (json : Json) : Option UInt64 := do
  let value ← json.natural?
  if value < UInt64.size then some (UInt64.ofNat value) else none

/-- A 32-bit number written as digits alone. -/
def word32? (json : Json) : Option UInt32 := do
  let value ← json.natural?
  if value < UInt32.size then some (UInt32.ofNat value) else none

/-- A value or `null`. -/
def nullable? {α : Type} (decode : Json → Option α) : Json → Option (Option α)
  | .null => some none
  | json => (decode json).map some

/-- An array of values. -/
def list? {α : Type} (decode : Json → Option α) : Json → Option (List α)
  | .array elements => elements.mapM decode
  | _ => none

/-- An object from texts to values, where the last member of a name counts. -/
def table? {α : Type} (decode : Json → Option α) :
    Json → Option (Std.ExtTreeMap String α compare)
  | .object members => do
    let entries ← members.mapM fun (name, value) => return (← name, ← decode value)
    return entries.foldl (fun table (name, value) => table.insert name value) ∅
  | _ => none

/-- The known members of a record. -/
abbrev Members := List (String × Json)

/-- The members of a record that knows the given names. -/
def record? (names : List String) : Json → Option Members
  | .object members => do
    let named ← members.mapM fun (name, value) => return (← name, value)
    let known := named.filter fun (name, _) => names.contains name
    if (known.map Prod.fst).Nodup then some known else none
  | .array elements => if elements.length ≤ names.length then some (names.zip elements) else none
  | _ => none

namespace Members

/-- The value of a member that has to be there. -/
def required {α : Type} (members : Members) (name : String) (decode : Json → Option α) :
    Option α := do
  decode (← members.lookup name)

/-- The value of a member that may be missing. -/
def withDefault {α : Type} (members : Members) (name : String) (default : α)
    (decode : Json → Option α) : Option α :=
  match members.lookup name with
  | some json => decode json
  | none => some default

end Members

/-- The tag of a variant, and the record that is left without it. -/
def variant? (tagName : String) (room : Nat) (json : Json) : Option (String × Json) :=
  if isHoldable room json then
    match json with
    | .object members =>
      match members.partition fun (name, _) => name == some tagName with
      | ([(_, .string (some tag))], others) => some (tag, .object others)
      | _ => none
    | .array (.string (some tag) :: elements) => some (tag, .array elements)
    | _ => none
  else
    none

end Retained.Json
