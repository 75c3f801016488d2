import Retained.Label.Package

/-!
# Labels

A label names a target of a package: `//path:name` or `@repository//path:name`. Without a colon the
last segment of the path is the target's name, so `//a/b` and `//a/b:b` are one label. A label is
always absolute.
-/

namespace Retained

open Text

/-- A target of a package. -/
structure Label where
  /-- The package that the target belongs to. -/
  package : PackageId
  /-- The target's name inside its package. -/
  name : String
deriving DecidableEq, Repr, Inhabited

namespace Label

/-- Whether a text has two slashes in a row. -/
def hasDoubleSlash (text : List Char) : Bool :=
  (splitSlashes? text).isSome

/-- The first fault in a target name. -/
def checkName (name : List Char) : Except LabelFault Unit :=
  if name.isEmpty then .error .emptyTargetName
  else if hasOuterSlash name || hasDoubleSlash name then .error .targetSlashes
  else if (splitFields '/' name).any isUpLevel then .error .upLevelTarget
  else if name.all isTargetCharacter then .ok ()
  else .error .targetCharacter

/-- The last segment of a path, which names the target when a label does not. -/
def lastSegment (path : List Char) : List Char :=
  match splitLast? '/' path with
  | some (_, segment) => segment
  | none => path

/-- The path and the target name of the text after a repository. -/
def splitTarget (text : List Char) : Except LabelFault (List Char × List Char) :=
  match splitFirst? ':' text with
  | some halves => .ok halves
  | none =>
    let name := lastSegment text
    if name.isEmpty then .error .noTargetName else .ok (text, name)

/-- Whether a text starts like a label: at the main repository or at a named one. -/
def startsAbsolute : List Char → Bool
  | '@' :: _ => true
  | '/' :: '/' :: _ => true
  | _ => false

/-- The label that a text names, or the first fault in the text. -/
def read (text : List Char) : Except LabelFault Label := do
  unless startsAbsolute text do throw .notAbsolute
  let (repository, rest) ← splitRepository text
  let (path, name) ← splitTarget rest
  checkPath path
  checkName name
  return {
    package := { repository := String.ofList repository, path := String.ofList path }
    name := String.ofList name }

/-- The label that a text names. -/
def parse (input : String) : Except LabelError Label :=
  (read input.toList).mapError fun fault => { input, fault }

/-- The text of a label: its package, a colon, and the target's name. -/
def render (label : Label) : String :=
  label.package.render ++ ":" ++ label.name

/-- The parts of a label in the order in which labels are compared. -/
def members (label : Label) : List String :=
  label.package.members ++ [label.name]

/-- A label is known from its parts. -/
theorem members_injective {left right : Label} (same : left.members = right.members) :
    left = right := by
  obtain ⟨⟨leftRepository, leftPath⟩, leftName⟩ := left
  obtain ⟨⟨rightRepository, rightPath⟩, rightName⟩ := right
  simp only [members, PackageId.members, List.cons_append, List.nil_append, List.cons.injEq,
    and_true] at same
  obtain ⟨rfl, rfl, rfl⟩ := same
  rfl

end Label

end Retained
