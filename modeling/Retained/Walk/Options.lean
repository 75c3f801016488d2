import Retained.Text.Split
import Retained.Heap.Object

/-!
# What a walk does with objects and fields

Skip rules keep a walk out of objects altogether: a skipped object is neither marked nor entered.
Fields that only cache are followed on request. A needle narrows what is reported to classes that
contain it, without changing what is walked.
-/

namespace Retained

/-- A reason to keep out of an object, which may look at all that the object holds. -/
structure SkipRule (Ref : Type) where
  /-- Whether the rule keeps a walk out of an object. -/
  skips : HeapObject Ref → Bool

namespace SkipRule

variable {Ref : Type}

/-- Objects of one class are skipped. -/
def ofClass (className : String) : SkipRule Ref where
  skips object := object.className == className

/-- Objects of build machinery are skipped, except of the categories to be reported. -/
def byCategory (configuration precomputed workspaceStatus : Bool) : SkipRule Ref where
  skips object :=
    match object.category with
    | .plain => false
    | .configuration => !configuration
    | .precomputed => !precomputed
    | .workspaceStatus => !workspaceStatus

/-- The rule that skips nothing. -/
def reportAll : SkipRule Ref :=
  byCategory true true true

end SkipRule

/-- How a walk treats the objects and fields it meets. -/
structure WalkOptions (Ref : Type) where
  /-- An object that any rule skips is skipped. -/
  rules : List (SkipRule Ref)
  /-- Whether cache fields are followed. -/
  followTransient : Bool
  /-- The text that the class of a reported object contains, if reports are narrowed. -/
  needle : Option String

namespace WalkOptions

variable {Ref : Type}

/-- Whether a walk keeps out of an object. -/
def skips (options : WalkOptions Ref) (object : HeapObject Ref) : Bool :=
  options.rules.any fun rule => rule.skips object

/-- Whether a walk goes along a field. -/
def follows (options : WalkOptions Ref) (field : Field Ref) : Bool :=
  options.followTransient || !field.transient

/-- Whether an object is of a class to be reported. -/
def isWanted (options : WalkOptions Ref) (object : HeapObject Ref) : Bool :=
  match options.needle with
  | none => true
  | some needle => Text.occursIn needle.toList object.className.toList

/-- The objects that a walk goes on to from an object, in the order of its fields. -/
def successors (options : WalkOptions Ref) (object : HeapObject Ref) : List Ref :=
  (object.fields.filter options.follows).map Field.target

end WalkOptions

end Retained
