import Retained.Heap.Basic

/-!
# Structural equality

Two objects are alike when their classes, categories, shapes and fields agree, and the objects that
their fields refer to are alike in turn. Attribution never uses this: it goes by place.
-/

namespace Retained.Heap

variable {size : Nat}

/-- Whether two objects agree apart from what their fields refer to. -/
def sameContents {Ref : Type} (left right : HeapObject Ref) : Bool :=
  left.className == right.className && left.category == right.category &&
    left.shape == right.shape &&
    left.fields.map (fun field => (field.name, field.transient)) ==
      right.fields.map (fun field => (field.name, field.transient))

/-- Whether the objects at two places are alike. -/
def alike (heap : Heap size) (left right : Fin size) : Bool :=
  left == right ||
    (sameContents (heap.object left) (heap.object right) &&
      ((heap.object left).fields.attach.zip (heap.object right).fields).all
        fun (⟨field, _⟩, other) => heap.alike field.target other.target)
termination_by left.val
decreasing_by exact heap.target_lt left ‹_›

end Retained.Heap
