/-!
# Marks

The set of objects that walks have already claimed, as one flag for each place of a heap. Marking
only ever adds, and marking an unmarked place leaves one place fewer unmarked, which is what bounds
every walk.
-/

namespace Retained

/-- A set of places of a heap of `size` objects. -/
structure Marks (size : Nat) where
  /-- Whether the place is in the set, for each place. -/
  flags : Vector Bool size
deriving DecidableEq

namespace Marks

variable {size : Nat}

/-- No place is marked. -/
def none : Marks size :=
  { flags := Vector.replicate size false }

/-- Whether a place is marked. -/
def contains (marks : Marks size) (place : Fin size) : Bool :=
  marks.flags.get place

/-- The set with a place marked. -/
def mark (marks : Marks size) (place : Fin size) : Marks size :=
  { flags := marks.flags.set place.val true place.isLt }

/-- The number of marked places. -/
def count (marks : Marks size) : Nat :=
  marks.flags.count true

/-- The number of places that are not marked. -/
def unmarked (marks : Marks size) : Nat :=
  marks.flags.count false

/-- No place is marked at first. -/
@[simp] theorem contains_none (place : Fin size) :
    (none : Marks size).contains place = false := by
  show (Vector.replicate size false)[place.val] = false
  exact Vector.getElem_replicate place.isLt

/-- After marking, the marked places are those marked before and the new one. -/
theorem contains_mark (marks : Marks size) (place other : Fin size) :
    (marks.mark place).contains other = (decide (place = other) || marks.contains other) := by
  show (marks.flags.set place.val true place.isLt)[other.val]
    = (decide (place = other) || marks.flags[other.val])
  rw [Vector.getElem_set]
  by_cases same : place = other
  · simp [same]
  · have apart : (place : Nat) ≠ other := fun equal => same (Fin.ext equal)
    simp [same, apart]

/-- Marking an unmarked place leaves fewer places unmarked. -/
theorem unmarked_mark_lt {marks : Marks size} {place : Fin size}
    (fresh : marks.contains place = false) : (marks.mark place).unmarked < marks.unmarked := by
  have flag : marks.flags[place.val] = false := fresh
  have present : 0 < marks.flags.count false :=
    Vector.count_pos_iff.2 (flag ▸ Vector.getElem_mem place.isLt)
  have counted : (marks.mark place).unmarked = marks.unmarked - 1 := by
    simp only [unmarked, mark, Vector.count_set, flag, beq_self_eq_true, if_true]
    rfl
  unfold unmarked at counted ⊢
  omega

end Marks

end Retained
