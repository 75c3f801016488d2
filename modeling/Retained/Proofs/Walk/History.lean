import Mathlib.Data.List.FinRange
import Retained.Proofs.Walk.Step

/-!
# The history of a walk

The history of a walk that has the scene to itself says, for each of its steps, what the step marks.
It ends where the walk does, so that it tells how far a walk has come which does not complete, and
in which order objects are marked (`Walk.markingOrder`). Whether a walk completes or is interrupted,
it has marked the objects of its history, each once, and it has reported the wanted ones of them in
that order, up to the last one (`Walk.run_recorded`).
-/

namespace Retained

variable {size : Nat}

/-- The places that are marked in a set and not in another. -/
def Marks.added (before after : Marks size) : List (Fin size) :=
  (List.finRange size).filter fun place => after.contains place && !before.contains place

namespace Walk

/-- What each step of a walk marks from somewhere on its way on, up to the step with which it
ends. -/
def history (walk : Walk size) (cancellation : Cancellation) (taken : Nat) (walker : Walker size)
    (scene : Scene size) : List (List (Fin size)) :=
  match _stepped : walker.step walk (cancellation.isSet taken) scene with
  | (.running next, after) =>
    scene.marks.added after.marks :: walk.history cancellation (taken + 1) next after
  | (.finished _, _) => []
  | (.interrupted, _) => []
termination_by (scene.marks.unmarked, walker.weight walk)
decreasing_by exact Walker.step_decreases ‹_›

/-- The objects that a whole walk marks, in the order in which it marks them. -/
def markingOrder (walk : Walk size) (cancellation : Cancellation) (root : Fin size)
    (scene : Scene size) : List (Fin size) :=
  (walk.history cancellation 0 (.start root) scene).flatten

end Walk

namespace Walker.Stepped

variable {walk : Walk size} {cancelled : Bool} {scene after : Scene size} {walker : Walker size}
variable {claimed : List (Fin size)} {progress : WalkProgress size}

/-- What a step marks is what it claims. -/
theorem added (stepped : Stepped walk cancelled scene walker claimed progress after) :
    scene.marks.added after.marks = claimed := by
  have members : ∀ place, place ∈ scene.marks.added after.marks ↔ place ∈ claimed := by
    intro place
    simp only [Marks.added, List.mem_filter, List.mem_finRange, true_and, Bool.and_eq_true,
      Bool.not_eq_true', stepped.contains_iff]
    constructor
    · intro new
      obtain ⟨known | isClaimed, unmarked⟩ := new
      · rw [known] at unmarked
        cases unmarked
      · exact isClaimed
    · intro isClaimed
      exact ⟨Or.inr isClaimed, stepped.unmarked_of_claimed isClaimed⟩
  have distinct : (scene.marks.added after.marks).Nodup := (List.nodup_finRange size).filter _
  have same := (List.perm_ext_iff_of_nodup distinct stepped.claimed_nodup).mpr members
  rcases stepped.marks_cases with ⟨rfl, _⟩ | ⟨place, rfl, _, _⟩
  · exact List.perm_nil.mp same
  · exact List.perm_singleton.mp same

end Walker.Stepped

namespace Walk

variable {walk : Walk size} {cancellation : Cancellation} {taken : Nat} {walker next : Walker size}
variable {scene after : Scene size}

/-! ## Runs by their first step -/

/-- A walk that goes on is run from its next step. -/
theorem run_of_running
    (stepped : walker.step walk (cancellation.isSet taken) scene = (.running next, after)) :
    walk.run cancellation taken walker scene = walk.run cancellation (taken + 1) next after := by
  rw [Walk.run, stepped]

/-- A walk that goes on has the marks of its step in front of those of the others. -/
theorem history_of_running
    (stepped : walker.step walk (cancellation.isSet taken) scene = (.running next, after)) :
    walk.history cancellation taken walker scene =
      scene.marks.added after.marks :: walk.history cancellation (taken + 1) next after := by
  rw [Walk.history, stepped]

/-- A walk that completes is run to its summary. -/
theorem run_of_finished {summary : WalkSummary}
    (stepped : walker.step walk (cancellation.isSet taken) scene = (.finished summary, after)) :
    walk.run cancellation taken walker scene = (some summary, after) := by
  rw [Walk.run, stepped]

/-- A walk that completes marks nothing any more. -/
theorem history_of_finished {summary : WalkSummary}
    (stepped : walker.step walk (cancellation.isSet taken) scene = (.finished summary, after)) :
    walk.history cancellation taken walker scene = [] := by
  rw [Walk.history, stepped]

/-- A walk that is interrupted has no summary. -/
theorem run_of_interrupted
    (stepped : walker.step walk (cancellation.isSet taken) scene = (.interrupted, after)) :
    walk.run cancellation taken walker scene = (none, after) := by
  rw [Walk.run, stepped]

/-- A walk that is interrupted marks nothing any more. -/
theorem history_of_interrupted
    (stepped : walker.step walk (cancellation.isSet taken) scene = (.interrupted, after)) :
    walk.history cancellation taken walker scene = [] := by
  rw [Walk.history, stepped]

/-! ## What a run leaves -/

/-- What a walk has done to a scene that has marked these objects, in this order, whether it
completed or was interrupted. -/
structure Recorded (walk : Walk size) (before : Scene size) (unreported order : List (Fin size))
    (after : Scene size) : Prop where
  /-- No object is marked twice. -/
  distinct : order.Nodup
  /-- No object was marked before. -/
  fresh : ∀ place ∈ order, before.marks.contains place = false
  /-- They are marked, and nothing else is. -/
  marks : ∀ place, after.marks.contains place = true ↔
    before.marks.contains place = true ∨ place ∈ order
  /-- Of the objects marked, all up to the last one are seen, and the wanted ones of those are
  reported. -/
  reported : ∃ seen left, unreported ++ order = seen ++ left ∧ left.length ≤ 1 ∧
    after.reported.toList = before.reported.toList ++ seen.filter walk.wants

/-- A run that ends right away marks nothing more. -/
theorem recorded_nil (walk : Walk size) (walker : Walker size) (scene : Scene size) :
    walk.Recorded scene walker.unreported [] scene where
  distinct := List.nodup_nil
  fresh := by simp
  marks := by simp
  reported := by
    refine ⟨[], walker.unreported, by simp, ?_, by simp⟩
    unfold Walker.unreported
    split <;> simp

/-- Whatever becomes of a walk, the scene that it leaves has the marks of its history. -/
theorem run_recorded (walk : Walk size) (cancellation : Cancellation) (taken : Nat)
    (walker : Walker size) (scene : Scene size) :
    walk.Recorded scene walker.unreported (walk.history cancellation taken walker scene).flatten
      (walk.run cancellation taken walker scene).2 := by
  induction taken, walker, scene using Walk.run.induct walk cancellation with
  | case1 taken walker scene next after stepped further =>
    have rule := Walker.stepped_of_step stepped
    rw [run_of_running stepped, history_of_running stepped, List.flatten_cons, rule.added]
    obtain ⟨seen, conserved, told, _, _⟩ := rule.accounts
    obtain ⟨later, left, split, atMost, toldLater⟩ := further.reported
    have freshNow : ∀ place ∈ walker.claims walk scene, scene.marks.contains place = false :=
      fun place isClaimed => rule.unmarked_of_claimed isClaimed
    have freshLater : ∀ place ∈ (walk.history cancellation (taken + 1) next after).flatten,
        scene.marks.contains place = false ∧ place ∉ walker.claims walk scene := by
      intro place member
      have unmarked := further.fresh place member
      rw [← Bool.not_eq_true, rule.contains_iff, not_or, Bool.not_eq_true] at unmarked
      exact unmarked
    constructor
    case distinct =>
      refine List.nodup_append.mpr ⟨rule.claimed_nodup, further.distinct, ?_⟩
      intro place isClaimed other member same
      rw [same] at isClaimed
      exact (freshLater other member).2 isClaimed
    case fresh =>
      intro place member
      rcases List.mem_append.mp member with isClaimed | isLater
      · exact freshNow place isClaimed
      · exact (freshLater place isLater).1
    case marks =>
      intro place
      rw [further.marks, rule.contains_iff, List.mem_append, or_assoc]
    case reported =>
      refine ⟨seen ++ later, left, ?_, atMost, ?_⟩
      · rw [← List.append_assoc, conserved, List.append_assoc, split, List.append_assoc]
      · rw [toldLater, told, List.filter_append, List.append_assoc]
  | case2 taken walker scene summary after stepped =>
    have rule := Walker.stepped_of_step stepped
    obtain ⟨_, _, _, _, rfl⟩ := rule.finished
    rw [run_of_finished stepped, history_of_finished stepped]
    exact walk.recorded_nil walker after
  | case3 taken walker scene after stepped =>
    have rule := Walker.stepped_of_step stepped
    obtain ⟨_, _, rfl⟩ := rule.interrupted
    rw [run_of_interrupted stepped, history_of_interrupted stepped]
    exact walk.recorded_nil walker after

end Walk

end Retained
