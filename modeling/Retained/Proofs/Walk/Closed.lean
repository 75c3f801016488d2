import Retained.Proofs.Walk.Alone

/-!
# Walks over closed marks

Marks are closed for a walk if they hold whatever the walk would go on to from a marked object. Over
closed marks, what a walk reaches is plain set difference: what it would reach if nothing were
marked, without what is marked. A walk leaves closed marks closed, so walks one after another add up
to unions and differences.
-/

namespace Retained.Walk

variable {size : Nat} {walk : Walk size} {marks : Marks size} {origin place : Fin size}

/-- The successors of marked objects are settled. -/
def Closed (walk : Walk size) (marks : Marks size) : Prop :=
  ∀ place next, marks.contains place = true → walk.Follows place next →
    walk.Settled marks next

/-- No marks are closed. -/
theorem closed_none (walk : Walk size) : walk.Closed .none := by
  intro place next marked
  rw [Marks.contains_none] at marked
  cases marked

/-- Over closed marks a walk reaches what it would reach over none, without what is marked. -/
theorem Closed.path_iff (closed : walk.Closed marks) :
    walk.Path marks origin place ↔
      walk.Path .none origin place ∧ marks.contains place = false := by
  constructor
  · intro path
    refine ⟨path.of_fewer ?_, path.enters_end.2⟩
    intro other marked
    rw [Marks.contains_none] at marked
    cases marked
  · intro reached
    exact reached.1.of_closed closed reached.2

/-- A walk over closed marks adds what it would reach over none. -/
theorem Traversed.contains_iff {before after : Scene size} {claimed : List (Fin size)}
    {summary : WalkSummary} (traversed : walk.Traversed origin before claimed summary after)
    (closed : walk.Closed before.marks) (place : Fin size) :
    after.marks.contains place = true ↔
      before.marks.contains place = true ∨ walk.Path .none origin place := by
  rw [traversed.marks, traversed.reach, closed.path_iff]
  constructor
  · exact Or.imp_right And.left
  · intro known_or_reached
    rcases known_or_reached with known | path
    · exact Or.inl known
    · cases known : before.marks.contains place with
      | true => exact Or.inl rfl
      | false => exact Or.inr ⟨path, rfl⟩

/-- A walk leaves closed marks closed. -/
theorem Traversed.closed {before after : Scene size} {claimed : List (Fin size)}
    {summary : WalkSummary} (traversed : walk.Traversed origin before claimed summary after)
    (closed : walk.Closed before.marks) : walk.Closed after.marks := by
  intro place next marked followed
  rcases (traversed.contains_iff closed place).mp marked with known | path
  · rcases closed place next known followed with hidden | still
    · exact Or.inl hidden
    · exact Or.inr ((traversed.marks next).mpr (Or.inl still))
  · by_cases hidden : walk.Hides next
    · exact Or.inl hidden
    · have further := Path.along path followed ⟨hidden, Marks.contains_none next⟩
      exact Or.inr ((traversed.contains_iff closed next).mpr (Or.inr further))

/-- A walk that hides no further objects and follows at least the same fields has at least the same
paths. -/
theorem Path.widen {other : Walk size} (path : walk.Path marks origin place)
    (hides : ∀ place, other.Hides place → walk.Hides place)
    (follows : ∀ place next, walk.Follows place next → other.Follows place next) :
    other.Path marks origin place := by
  have enters : ∀ place, walk.Enters marks place → other.Enters marks place := by
    intro place entered
    exact ⟨mt (hides place) entered.1, entered.2⟩
  induction path with
  | here entered => exact .here (enters _ entered)
  | along _ followed entered earlier =>
    exact .along earlier (follows _ _ followed) (enters _ entered)

/-- Marks that are closed for a walk are closed for one that hides the same objects and follows at
most the same fields. -/
theorem Closed.transfer {other : Walk size} (closed : walk.Closed marks)
    (hides : ∀ place, walk.Hides place → other.Hides place)
    (follows : ∀ place next, other.Follows place next → walk.Follows place next) :
    other.Closed marks := by
  intro place next marked followed
  exact (closed place next marked (follows place next followed)).imp_left (hides next)

end Retained.Walk
