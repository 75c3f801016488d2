import Retained.Heap.Object

/-!
# Heaps

A heap is a finite table of objects. An object is identified by its place, never by its contents, so
two objects with equal contents remain two objects, and one object referred to from many fields
remains one. Objects are made after the objects they refer to: every reference goes to an earlier
place, and no heap holds a cycle.
-/

namespace Retained

/-- A heap of `size` objects. -/
structure Heap (size : Nat) where
  /-- The objects by place. -/
  objects : Vector (HeapObject (Fin size)) size
  /-- Every reference goes to an earlier place. -/
  earlier : ∀ (place : Fin size), ∀ field ∈ objects[place].fields, field.target < place

namespace Heap

variable {size : Nat}

/-- The object at a place. -/
def object (heap : Heap size) (place : Fin size) : HeapObject (Fin size) :=
  heap.objects[place]

/-- A field of the object at a place refers to an earlier place. -/
theorem target_lt (heap : Heap size) (place : Fin size) {field : Field (Fin size)}
    (held : field ∈ (heap.object place).fields) : field.target < place :=
  heap.earlier place field held

/-- The heap without objects. -/
def empty : Heap 0 where
  objects := #v[]
  earlier place := place.elim0

/-! ## Making heaps -/

/-- Objects made so far, each referring to places made before it. -/
structure Draft where
  /-- The objects by place. -/
  objects : Array (HeapObject Nat)
  /-- Every reference goes to an earlier place. -/
  earlier : ∀ (place : Nat) (made : place < objects.size), ∀ field ∈ objects[place].fields,
    field.target < place

namespace Draft

/-- Nothing made yet. -/
def empty : Draft where
  objects := #[]
  earlier _ made := absurd made (Nat.not_lt_zero _)

/-- The number of objects made so far, which is the place of the next one. -/
abbrev count (draft : Draft) : Nat :=
  draft.objects.size

/-- One more object, which refers to objects made before. -/
def push (draft : Draft) (object : HeapObject (Fin draft.count)) : Draft where
  objects := draft.objects.push (object.map Fin.val)
  earlier place inside field held := by
    rw [Array.getElem_push] at held
    split at held
    · exact draft.earlier place _ field held
    · next last =>
      rw [Array.size_push] at inside
      have next : place = draft.objects.size := by omega
      simp only [HeapObject.map, List.mem_map] at held
      obtain ⟨drafted, _, rfl⟩ := held
      exact next ▸ drafted.target.isLt

/-- A new object takes the next place. -/
theorem count_push (draft : Draft) (object : HeapObject (Fin draft.count)) :
    (draft.push object).count = draft.count + 1 :=
  Array.size_push _

/-- The object made at a place, with its references as places of the finished heap. -/
def finished (draft : Draft) (place : Fin draft.count) : HeapObject (Fin draft.count) :=
  let object := draft.objects[place]
  { className := object.className, category := object.category, shape := object.shape
    fields := object.fields.attach.map fun ⟨field, held⟩ =>
      { name := field.name, transient := field.transient
        target := ⟨field.target,
          Nat.lt_trans (draft.earlier place place.isLt field held) place.isLt⟩ } }

/-- The heap of all objects made. -/
def heap (draft : Draft) : Heap draft.count where
  objects := Vector.ofFn draft.finished
  earlier place field held := by
    simp only [Fin.getElem_fin, Vector.getElem_ofFn, finished, List.mem_map, List.mem_attach,
      true_and, Subtype.exists] at held
    obtain ⟨drafted, kept, rfl⟩ := held
    exact draft.earlier place place.isLt drafted kept

end Draft

end Heap

end Retained
