/-!
# Sequences of checks

Reading, loading and dumping are sequences of steps in `Except`, each of which returns something or
refuses. A step comes out well (`Meets`) if what it returns is good and what it refuses for is
granted, and a sequence or a fold of steps comes out well if each of them does. A sequence returns
something exactly if each of its steps does.
-/

namespace Retained

variable {α β ε : Type} {granted : ε → Prop} {good : α → Prop}

/-- A step comes out well: what it returns is good, and what it refuses for is granted. -/
def Meets (granted : ε → Prop) (good : α → Prop) : Except ε α → Prop
  | .ok value => good value
  | .error refusal => granted refusal

namespace Meets

/-- What a step returns is good. -/
theorem ok {result : Except ε α} {value : α} (meets : Meets granted good result)
    (returned : result = .ok value) : good value := by
  rw [returned] at meets
  exact meets

/-- What a step refuses for is granted. -/
theorem error {result : Except ε α} {refusal : ε} (meets : Meets granted good result)
    (refused : result = .error refusal) : granted refusal := by
  rw [refused] at meets
  exact meets

/-- What comes out well comes out well by any wider standard. -/
theorem imp {wider : ε → Prop} {better : α → Prop} {result : Except ε α}
    (meets : Meets granted good result) (refusals : ∀ refusal, granted refusal → wider refusal)
    (goods : ∀ value, good value → better value) : Meets wider better result := by
  cases result with
  | ok value => exact goods value meets
  | error refusal => exact refusals refusal meets

/-- A step after another one comes out well if both do. -/
theorem bind {best : β → Prop} {result : Except ε α} {further : α → Except ε β}
    (meets : Meets granted good result)
    (onwards : ∀ value, good value → Meets granted best (further value)) :
    Meets granted best (result >>= further) := by
  cases result with
  | ok value => exact onwards value meets
  | error refusal => exact meets

/-- Refusals in other words are granted if those words are. -/
theorem mapError {δ : Type} {wider : δ → Prop} {result : Except ε α} {words : ε → δ}
    (meets : Meets granted good result)
    (refusals : ∀ refusal, granted refusal → wider (words refusal)) :
    Meets wider good (result.mapError words) := by
  cases result with
  | ok value => exact meets
  | error refusal => exact refusals refusal meets

/-- Anything may come out of a step of which nothing is asked. -/
theorem anything (result : Except ε α) : Meets (fun _ => True) (fun _ => True) result := by
  cases result <;> exact trivial

end Meets

/-- A fold of checks comes out well if each check keeps what holds of the items seen. -/
theorem foldlM_meets {check : β → α → Except ε β} {items : List α} {start : β}
    (holds : List α → β → Prop) (first : holds [] start)
    (kept : ∀ seen item rest state, items = seen ++ item :: rest → holds seen state →
      Meets granted (holds (seen ++ [item])) (check state item)) :
    Meets granted (holds items) (items.foldlM check start) := by
  -- The items are those seen and those left; the induction is on those left.
  have every : ∀ left seen state, items = seen ++ left → holds seen state →
      Meets granted (holds items) (left.foldlM check state) := by
    intro left
    induction left with
    | nil =>
      intro seen state split held
      rw [List.append_nil] at split
      rw [split]
      exact held
    | cons item rest further =>
      intro seen state split held
      rw [List.foldlM_cons]
      refine (kept seen item rest state split held).bind ?_
      intro next heldNext
      refine further (seen ++ [item]) next ?_ heldNext
      rw [split, List.append_assoc, List.singleton_append]
  exact every items [] start rfl first

/-! ## Steps that return -/

/-- Two steps one after the other return what the second one makes of what the first one returns. -/
theorem bind_eq_ok_iff {result : Except ε α} {further : α → Except ε β} {value : β} :
    result >>= further = .ok value ↔
      ∃ middle, result = .ok middle ∧ further middle = .ok value := by
  cases result <;> simp [bind, Except.bind]

/-- Two steps one after the other fail where the first one does, or else where the second one
does. -/
theorem bind_eq_error_iff {result : Except ε α} {further : α → Except ε β} {error : ε} :
    result >>= further = .error error ↔
      result = .error error ∨ ∃ middle, result = .ok middle ∧ further middle = .error error := by
  cases result <;> simp [bind, Except.bind]

/-- A mapped step returns what the map makes of what the step returns. -/
theorem map_eq_ok_iff {result : Except ε α} {change : α → β} {value : β} :
    result.map change = .ok value ↔ ∃ middle, result = .ok middle ∧ change middle = value := by
  cases result <;> simp [Except.map]

/-- A mapped step fails where the step does. -/
theorem map_eq_error_iff {result : Except ε α} {change : α → β} {error : ε} :
    result.map change = .error error ↔ result = .error error := by
  cases result <;> simp [Except.map]

/-- Refusals in other words return what the step does. -/
theorem mapError_eq_ok_iff {δ : Type} {result : Except ε α} {words : ε → δ} {value : α} :
    result.mapError words = .ok value ↔ result = .ok value := by
  cases result with
  | error error => exact iff_of_false nofun nofun
  | ok other =>
    constructor
    · intro same
      cases same
      rfl
    · intro same
      cases same
      rfl

/-- What a step returns is mapped in one go or in two. -/
theorem except_map_map {γ : Type} (result : Except ε α) (first : α → β) (second : β → γ) :
    (result.map first).map second = result.map fun value => second (first value) := by
  cases result <;> rfl

/-- Checks of some items one after the other let them pass if each check does. -/
theorem forM_eq_ok_iff {check : α → Except ε Unit} {items : List α} :
    items.forM check = .ok () ↔ ∀ item ∈ items, check item = .ok () := by
  induction items with
  | nil => exact iff_of_true rfl (by simp)
  | cons item rest further =>
    change check item >>= (fun _ => rest.forM check) = .ok () ↔ _
    rw [bind_eq_ok_iff, List.forall_mem_cons, ← further]
    constructor
    · rintro ⟨_, first, others⟩
      exact ⟨first, others⟩
    · intro all
      exact ⟨(), all⟩

end Retained
