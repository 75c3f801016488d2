/-!
# Heap objects

The value of a build-graph node is an object whose fields refer to further objects. An object has a
class, a category that says whether it belongs to the node itself or to build machinery, a shape
from which its size follows, and fields. How fields refer to objects is left open: a snapshot refers
by identifier, a heap by place.
-/

namespace Retained

/-- What an object belongs to. -/
inductive Category where
  /-- The value of the node itself. -/
  | plain
  /-- A build configuration. -/
  | configuration
  /-- A value computed ahead of the build. -/
  | precomputed
  /-- The status of the workspace. -/
  | workspaceStatus
deriving DecidableEq, Repr, Inhabited

/-- The parameters from which an object's own size follows. -/
inductive Shape where
  /-- An object of a fixed size. -/
  | instance (shallowBytes : UInt64)
  /-- An array of elements of one size. -/
  | array (elementBytes : UInt32) (length : UInt64)
  /-- A hash table: a header, a table of references and entries. -/
  | collection (headerBytes : UInt32) (capacity entries : UInt64) (entryBytes : UInt32)
deriving DecidableEq, Repr, Inhabited

/-- A named reference to another object. -/
structure Field (Ref : Type) where
  /-- The field's name. -/
  name : String
  /-- The object it refers to. -/
  target : Ref
  /-- Whether the field is a cache that is not part of the value. -/
  transient : Bool
deriving DecidableEq, Repr

/-- An object, with references of some type. -/
structure HeapObject (Ref : Type) where
  /-- The object's class. -/
  className : String
  /-- What the object belongs to. -/
  category : Category
  /-- What its size follows from. -/
  shape : Shape
  /-- Its fields in the order of their declaration. -/
  fields : List (Field Ref)
deriving DecidableEq, Repr

namespace Field

variable {Ref Place : Type}

/-- The same field with its reference replaced. -/
def map (place : Ref → Place) (field : Field Ref) : Field Place :=
  { name := field.name, target := place field.target, transient := field.transient }

end Field

namespace HeapObject

variable {Ref Place Other : Type}

/-- The same object with every reference replaced. -/
def map (place : Ref → Place) (object : HeapObject Ref) : HeapObject Place :=
  { className := object.className, category := object.category, shape := object.shape
    fields := object.fields.map (Field.map place) }

/-- The same object with every reference looked up, in the order of the fields, unless a lookup
fails. -/
def mapM {m : Type → Type} [Monad m] (place : Ref → m Place) (object : HeapObject Ref) :
    m (HeapObject Place) := do
  let fields ← object.fields.mapM fun field =>
    return { name := field.name, target := ← place field.target, transient := field.transient }
  return { className := object.className, category := object.category,
           shape := object.shape, fields }

/-- The objects that the fields refer to, in the order of the fields. -/
def targets (object : HeapObject Ref) : List Ref :=
  object.fields.map Field.target

/-- References may be replaced in one go instead of two. -/
theorem map_map (object : HeapObject Ref) (first : Ref → Place) (second : Place → Other) :
    (object.map first).map second = object.map fun ref => second (first ref) := by
  have fields : ∀ field : Field Ref, Field.map second (Field.map first field) =
      Field.map (fun ref => second (first ref)) field := fun _ => rfl
  simp only [map, List.map_map, Function.comp_def, fields]

/-- Replacements that agree on what an object refers to give the same object. -/
theorem map_congr {object : HeapObject Ref} {left right : Ref → Place}
    (agree : ∀ field ∈ object.fields, left field.target = right field.target) :
    object.map left = object.map right := by
  have fields : object.fields.map (Field.map left) = object.fields.map (Field.map right) := by
    apply List.map_congr_left
    intro field held
    simp only [Field.map, agree field held]
  simp only [map, fields]

/-- An object whose references are replaced by themselves is the same. -/
theorem map_id (object : HeapObject Ref) : object.map (fun ref => ref) = object := by
  have field : Field.map (fun ref : Ref => ref) = id := rfl
  simp only [map, field, List.map_id]

/-- What an object refers to is replaced with its references. -/
theorem targets_map (object : HeapObject Ref) (place : Ref → Place) :
    (object.map place).targets = object.targets.map place := by
  simp only [targets, map, List.map_map, Function.comp_def, Field.map]

end HeapObject

end Retained
