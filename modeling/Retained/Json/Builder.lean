import Retained.Json.Basic

/-!
# Building a JSON value from tokens

The tokens of a JSON text are taken one at a time. The builder holds the containers that are open
around its position, the innermost first, and what may come next; a token that may not come next is
refused. Nothing is ever looked at twice, so a text is read in one pass however deeply it nests.
-/

namespace Retained.Json

/-- A token: a scalar value or a mark of punctuation. -/
inductive Token where
  /-- A literal, number or string. -/
  | scalar (value : Json)
  /-- A left square bracket. -/
  | openArray
  /-- A right square bracket. -/
  | closeArray
  /-- A left brace. -/
  | openObject
  /-- A right brace. -/
  | closeObject
  /-- A comma. -/
  | comma
  /-- A colon. -/
  | colon
deriving Repr

/-- A container that is still open, with what it holds so far, the newest first. -/
inductive Frame where
  /-- An array. -/
  | elements (done : List Json)
  /-- An object between two members. -/
  | members (done : List (Option String × Json))
  /-- An object inside the member of a name. -/
  | member (done : List (Option String × Json)) (name : Option String)
deriving Repr

/-- What may come next. -/
inductive Position where
  /-- A value. -/
  | value
  /-- A value, or the end of the array just opened. -/
  | firstElement
  /-- A member, or the end of the object just opened. -/
  | firstMember
  /-- A member. -/
  | nextMember
  /-- The colon after a member's name. -/
  | afterName (name : Option String)
  /-- What follows a complete value. -/
  | afterValue (value : Json)
deriving Repr

/-- A partly read text. -/
structure Builder where
  /-- The open containers, the innermost first. -/
  frames : List Frame
  /-- What may come next. -/
  position : Position
deriving Repr

namespace Builder

/-- Nothing read yet. -/
def start : Builder :=
  { frames := [], position := .value }

/-- A token where a value may stand. -/
def acceptValue (frames : List Frame) : Token → Option Builder
  | .scalar value => some { frames, position := .afterValue value }
  | .openArray => some { frames := .elements [] :: frames, position := .firstElement }
  | .openObject => some { frames := .members [] :: frames, position := .firstMember }
  | _ => none

/-- A token where a member may start. -/
def acceptName (frames : List Frame) : Token → Option Builder
  | .scalar (.string name) => some { frames, position := .afterName name }
  | _ => none

/-- A token after a complete value: the value goes into the innermost container, which a closing
mark completes in turn. -/
def acceptAfter (value : Json) : List Frame → Token → Option Builder
  | .elements done :: frames, .comma =>
    some { frames := .elements (value :: done) :: frames, position := .value }
  | .elements done :: frames, .closeArray =>
    some { frames, position := .afterValue (.array (value :: done).reverse) }
  | .member done name :: frames, .comma =>
    some { frames := .members ((name, value) :: done) :: frames, position := .nextMember }
  | .member done name :: frames, .closeObject =>
    some { frames, position := .afterValue (.object ((name, value) :: done).reverse) }
  | _, _ => none

/-- The state after one more token, if the token may come next. -/
def accept (builder : Builder) (token : Token) : Option Builder :=
  match builder.position, builder.frames, token with
  | .value, frames, token => acceptValue frames token
  | .firstElement, .elements _ :: frames, .closeArray =>
    some { frames, position := .afterValue (.array []) }
  | .firstElement, frames, token => acceptValue frames token
  | .firstMember, .members _ :: frames, .closeObject =>
    some { frames, position := .afterValue (.object []) }
  | .firstMember, frames, token => acceptName frames token
  | .nextMember, frames, token => acceptName frames token
  | .afterName name, .members done :: frames, .colon =>
    some { frames := .member done name :: frames, position := .value }
  | .afterName _, _, _ => none
  | .afterValue value, frames, token => acceptAfter value frames token

/-- The value read, if the text is complete. -/
def finish : Builder → Option Json
  | { frames := [], position := .afterValue value } => some value
  | _ => none

end Builder

end Retained.Json
