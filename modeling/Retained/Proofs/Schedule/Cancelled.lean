import Retained.Proofs.Schedule.Liveness

/-!
# Schedules of cancelled sessions

In a session that is cancelled beforehand, the only thing that can happen is that the unit of the
root sees the cancellation (`State.refused`): whatever moves when, and whatever the graph, cycles
included, the schedule is where it began or there (`State.reaches_refused`), and it gets there in
the end (`State.refused_returns`).
-/

namespace Retained.Schedule

variable {size : Nat}

namespace State

variable {plan : Plan size} {root : NodeKey} {marks : Marks size}
variable {state next : State size} {move : Move} {session : Bool}

/-- The schedule of a cancelled session after the unit of its root has seen the cancellation. -/
def refused (plan : Plan size) (root : NodeKey) (marks : Marks size) : State size :=
  (start plan root marks true).fail root .dumpCancelled

/-- At first, the unit of the root has not begun. -/
theorem held_start : (start plan root marks session).units[root]? = some .spawned := by
  simp [start]

/-- In a cancelled session, the unit of the root is refused when it moves. -/
theorem advance_start :
    (start plan root marks true).advance plan root = some (refused plan root marks) := by
  have begins : (start plan root marks true).begin plan root = refused plan root marks := if_pos rfl
  simp only [advance, held_start, begins]

/-- In a cancelled session, nothing but the unit of the root moves at first, and it is refused. -/
theorem after_start (moved : (start plan root marks true).after plan move = some next) :
    next = refused plan root marks ∨ move = .cancel ∧ next = start plan root marks true := by
  cases move with
  | cancel =>
    cases moved
    exact Or.inr ⟨rfl, cancel_cancelled rfl⟩
  | advance key =>
    cases held : (start plan root marks true).units[key]? with
    | none => simp [after, advance, held] at moved
    | some stage =>
      obtain ⟨rfl, rfl⟩ := units_start held
      rw [after, advance_start] at moved
      exact Or.inl (Option.some.inj moved).symm
  | abandon key =>
    cases held : (start plan root marks true).units[key]? with
    | none => simp [after, abandon, held] at moved
    | some stage =>
      obtain ⟨rfl, rfl⟩ := units_start held
      simp [after, abandon, held] at moved

/-- Once the root is refused, every unit has failed. -/
theorem units_refused {key : NodeKey} {stage : Stage size}
    (held : (refused plan root marks).units[key]? = some stage) :
    stage = .failed .dumpCancelled := by
  rw [refused, units_fail] at held
  split at held
  · exact (Option.some.inj held).symm
  · next apart => exact absurd (units_start held).1 apart

/-- Once the root is refused, nothing moves any more. -/
theorem after_refused (moved : (refused plan root marks).after plan move = some next) :
    next = refused plan root marks := by
  have still : ∀ {key}, ¬ Moved plan (refused plan root marks) key next := by
    intro key unitMoved
    obtain ⟨stage, held, unresolved⟩ := unitMoved.held
    rw [units_refused held] at unresolved
    cases unresolved
  cases move with
  | cancel =>
    cases moved
    exact cancel_cancelled rfl
  | advance key => exact absurd (advance_moved moved) still
  | abandon key => exact absurd (abandon_moved moved) still

/-- In a cancelled session, a schedule is where it began or its root is refused. -/
theorem reaches_refused (reached : Reaches (Leads plan) (start plan root marks true) state) :
    state = start plan root marks true ∨ state = refused plan root marks := by
  induction reached with
  | refl => exact Or.inl rfl
  | step _ leads earlier =>
    obtain ⟨move, moved⟩ := leads
    rcases earlier with rfl | rfl
    · exact (after_start moved).symm.imp_left And.right
    · exact Or.inr (after_refused moved)

/-- A refused root is resolved. -/
theorem isResolved_refused : (refused plan root marks).isResolved root = true :=
  isResolved_of_held (units_fail_self _ root _)

/-- A root that has not begun is not resolved. -/
theorem isResolved_start : (start plan root marks session).isResolved root = false :=
  isResolved_of_held held_start

/-- A schedule whose root is refused has no result. -/
theorem outcome_refused : (refused plan root marks).outcome root = .error .dumpCancelled := by
  have failed : (refused plan root marks).units[root]? = some (.failed .dumpCancelled) :=
    units_fail_self _ root _
  simp only [outcome, failed]

/-- In a cancelled session, a schedule of any graph is resolved in the end, whatever moves when. -/
theorem returns_refused (reached : Reaches (LeadsInside plan) (start plan root marks true) state) :
    Returns plan root state := by
  rcases reaches_refused (reaches_of_inside reached) with rfl | rfl
  · refine .later ⟨_, .advance root, nofun, advance_start⟩ ?_
    intro next leads
    obtain ⟨move, inside, moved⟩ := leads
    rcases after_start moved with rfl | ⟨outside, _⟩
    · exact .now isResolved_refused
    · exact absurd outside inside
  · exact .now isResolved_refused

/-- At first, the root is listed as unresolved. -/
theorem root_mem_unresolved : root ∈ (start plan root marks session).unresolved :=
  mem_unresolved_iff.mpr ⟨.spawned, held_start, rfl⟩

/-- Once the root is refused, no node is listed as unresolved. -/
theorem unresolved_refused : (refused plan root marks).unresolved = [] := by
  refine List.eq_nil_iff_forall_not_mem.mpr ?_
  intro key listed
  obtain ⟨stage, held, unresolved⟩ := mem_unresolved_iff.mp listed
  rw [units_refused held] at unresolved
  cases unresolved

/-- In a cancelled session, the first round refuses the root. -/
theorem round_start : (start plan root marks true).round plan = refused plan root marks := by
  let first := start plan root marks true
  have reached : Reaches (LeadsInside plan) first (first.round plan) := turns_reaches .refl
  have turned :
      (first.round plan = first ∧ ∀ key ∈ first.unresolved, first.advance plan key = none) ∨
      (first.round plan).effort plan (plan.store.closure root) <
        first.effort plan (plan.store.closure root) := turns_effort .refl
  rcases reaches_refused (reaches_of_inside reached) with stays | moves
  · rcases turned with ⟨_, idle⟩ | less
    · have stuck := idle root root_mem_unresolved
      rw [advance_start] at stuck
      cases stuck
    · rw [stays] at less
      exact absurd less (Nat.lt_irrefl _)
  · exact moves

end State

open State

/-- In a cancelled session, the run of a schedule of any graph fails. -/
theorem run_refused {plan : Plan size} (fits : plan.permits ≤ permitLimit) (root : NodeKey)
    (marks : Marks size) : (run plan root marks true).1 = .error .dumpCancelled := by
  obtain ⟨rounds, bound⟩ : ∃ rounds, plan.moveBound = rounds + 1 := by
    refine Nat.exists_eq_add_one.mpr ?_
    simp only [Plan.moveBound]
    omega
  have pending : (start plan root marks true).unresolved.isEmpty = false :=
    List.isEmpty_eq_false_iff.mpr (List.ne_nil_of_mem root_mem_unresolved)
  have ended :
      drive plan plan.moveBound (start plan root marks true) = refused plan root marks := by
    rw [bound, drive, pending, if_neg Bool.false_ne_true, round_start]
    cases rounds with
    | zero => rfl
    | succ rounds => rw [drive, unresolved_refused, List.isEmpty_nil, if_pos rfl]
  unfold run
  rw [if_neg (Nat.not_lt.mpr fits), ended]
  exact outcome_refused

end Retained.Schedule
