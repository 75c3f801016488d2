import Retained.Proofs.Walk.History

/-!
# Walks that are cancelled on their way

A walk looks at its cancellation only now and then, so it goes on for a while after it is cancelled.
Until it sees its cancellation it takes the steps that it would have taken without
(`Walker.step_or_interrupted`), so what it marks is the beginning of what the whole walk marks
(`Walk.history_prefix`). It marks as many more objects as there are up to the next multiple of the
interval at most (`Walker.room`), and it never completes (`Walk.run_eq_none_iff`).
-/

namespace Retained

variable {size : Nat}

namespace Walker

variable {walk : Walk size} {cancelled : Bool} {scene after : Scene size}
  {walker next : Walker size}

/-- A step does what it would do if the walk were not cancelled, or it sees the cancellation. -/
theorem step_or_interrupted (walk : Walk size) (cancelled : Bool) (walker : Walker size)
    (scene : Scene size) :
    walker.step walk cancelled scene = walker.step walk false scene ∨
      cancelled = true ∧ walker.step walk cancelled scene = (.interrupted, scene) := by
  cases cancelled with
  | false => exact Or.inl rfl
  | true =>
    obtain ⟨stack, task, summary⟩ := walker
    cases task with
    | report place =>
      by_cases due : (summary.visited % cancellationInterval == 0) = true
      · exact Or.inr ⟨rfl, by simp [step, due]⟩
      · exact Or.inl (by simp [step, due])
    | offer places =>
      cases places with
      | cons place others => exact Or.inl rfl
      | nil =>
        cases stack with
        | nil => exact Or.inr ⟨rfl, rfl⟩
        | cons place stack => exact Or.inl rfl

/-- A step that does not end a walk does not depend on whether the walk is cancelled. -/
theorem step_of_running (stepped : walker.step walk cancelled scene = (.running next, after)) :
    walker.step walk false scene = (.running next, after) := by
  rcases walker.step_or_interrupted walk cancelled scene with same | ⟨_, interrupted⟩
  · rw [← same, stepped]
  · rw [stepped] at interrupted
    cases interrupted

/-- The objects that a cancelled walk marks at most before it looks at its cancellation. -/
def room (walker : Walker size) : Nat :=
  match walker.task with
  | .report _ =>
    if walker.summary.visited % cancellationInterval = 0 then 0
    else cancellationInterval - walker.summary.visited % cancellationInterval
  | .offer _ => cancellationInterval - walker.summary.visited % cancellationInterval

/-- A walk never has room for more objects than the interval between two looks. -/
theorem room_le (walker : Walker size) : walker.room ≤ cancellationInterval := by
  unfold room
  split
  · split
    · exact Nat.zero_le _
    · exact Nat.sub_le _ _
  · exact Nat.sub_le _ _

/-- What a cancelled walk marks takes from its room. -/
theorem room_step (stepped : walker.step walk true scene = (.running next, after)) :
    (walker.claims walk scene).length + next.room ≤ walker.room := by
  obtain ⟨stack, task, summary⟩ := walker
  cases task with
  | report place =>
    by_cases due : summary.visited % cancellationInterval = 0
    · simp [step, due] at stepped
    · have goesOn : next = report { stack, task := .report place, summary } walk place := by
        simp only [step, due, Bool.true_and, beq_iff_eq, if_false] at stepped
        split at stepped <;> cases stepped <;> rfl
      simp [goesOn, claims, room, report, due]
  | offer places =>
    cases places with
    | cons place others =>
      cases stepped
      simp [claims, room, offer]
    | nil =>
      cases stack with
      | nil => simp [step] at stepped
      | cons place stack =>
        by_cases settled : (walk.skips place || scene.marks.contains place) = true
        · simp only [step, if_pos settled] at stepped
          cases stepped
          simp only [claims, if_pos settled, room, List.length_nil, Nat.zero_add, Nat.le_refl]
        · simp only [step, if_neg settled] at stepped
          cases stepped
          simp only [claims, if_neg settled, room, List.length_singleton]
          have positive : 0 < cancellationInterval := by decide
          have inside := Nat.mod_lt summary.visited positive
          split <;> simp only [cancellationInterval] at * <;> omega

end Walker

namespace Walk

variable {walk : Walk size} {point taken : Nat}

/-- What a walk marks that is cancelled on its way is the beginning of what it marks otherwise. -/
theorem history_prefix (walk : Walk size) (cancellation : Cancellation) (taken : Nat)
    (walker : Walker size) (scene : Scene size) :
    walk.history cancellation taken walker scene <+: walk.history .never taken walker scene := by
  induction taken, walker, scene using Walk.run.induct walk cancellation with
  | case1 taken walker scene next after stepped further =>
    have unseen : walker.step walk (Cancellation.never.isSet taken) scene =
        (.running next, after) :=
      Walker.step_of_running stepped
    rw [history_of_running stepped, history_of_running unseen, List.cons_prefix_cons]
    exact ⟨rfl, further⟩
  | case2 taken walker scene summary after stepped =>
    rw [history_of_finished stepped]
    exact List.nil_prefix
  | case3 taken walker scene after stepped =>
    rw [history_of_interrupted stepped]
    exact List.nil_prefix

/-- A walk does not complete exactly if it is cancelled by its last step. -/
theorem run_eq_none_iff (walk : Walk size) (point taken : Nat) (walker : Walker size)
    (scene : Scene size) :
    (walk.run (.after point) taken walker scene).1 = none ↔
      point ≤ taken + (walk.history .never taken walker scene).length := by
  -- The induction is on the run without cancellation; the other one has the same steps or ends
  -- sooner.
  induction taken, walker, scene using Walk.run.induct walk .never with
  | case1 taken walker scene next after stepped further =>
    rw [history_of_running stepped, List.length_cons]
    rcases walker.step_or_interrupted walk ((Cancellation.after point).isSet taken) scene with
      same | ⟨cancelled, interrupted⟩
    · rw [run_of_running (same.trans stepped), further]
      omega
    · have reached : point ≤ taken := of_decide_eq_true cancelled
      rw [run_of_interrupted interrupted]
      exact iff_of_true rfl (by omega)
  | case2 taken walker scene summary after stepped =>
    rw [history_of_finished stepped, List.length_nil, Nat.add_zero]
    rcases walker.step_or_interrupted walk ((Cancellation.after point).isSet taken) scene with
      same | ⟨cancelled, interrupted⟩
    · have completes := same.trans stepped
      have rule := Walker.stepped_of_step completes
      have early : ¬ point ≤ taken := of_decide_eq_false rule.not_cancelled_of_finished
      rw [run_of_finished completes]
      exact iff_of_false (Option.some_ne_none _) early
    · rw [run_of_interrupted interrupted]
      exact iff_of_true rfl (of_decide_eq_true cancelled)
  | case3 taken walker scene after stepped =>
    have rule := Walker.stepped_of_step stepped
    cases rule.interrupted.1

/-- Before it is cancelled, a walk marks what it marks otherwise. -/
theorem take_history (walk : Walk size) (point taken : Nat) (walker : Walker size)
    (scene : Scene size) :
    (walk.history (.after point) taken walker scene).take (point - taken) =
      (walk.history .never taken walker scene).take (point - taken) := by
  induction taken, walker, scene using Walk.run.induct walk .never with
  | case1 taken walker scene next after stepped further =>
    by_cases reached : point ≤ taken
    · simp [Nat.sub_eq_zero_of_le reached]
    · have live : (Cancellation.after point).isSet taken = false := decide_eq_false reached
      have same : walker.step walk ((Cancellation.after point).isSet taken) scene =
          (.running next, after) := by
        rw [live]
        exact stepped
      have later : point - taken = point - (taken + 1) + 1 := by omega
      rw [history_of_running stepped, history_of_running same, later, List.take_succ_cons,
        List.take_succ_cons, further]
  | case2 taken walker scene summary after stepped =>
    have shorter := walk.history_prefix (.after point) taken walker scene
    rw [history_of_finished stepped, List.prefix_nil] at shorter
    rw [history_of_finished stepped, shorter]
  | case3 taken walker scene after stepped =>
    have shorter := walk.history_prefix (.after point) taken walker scene
    rw [history_of_interrupted stepped, List.prefix_nil] at shorter
    rw [history_of_interrupted stepped, shorter]

/-- A cancelled walk marks no more objects than it has room for. -/
theorem history_le_room (reached : point ≤ taken) (walker : Walker size) (scene : Scene size) :
    (walk.history (.after point) taken walker scene).flatten.length ≤ walker.room := by
  induction taken, walker, scene using Walk.run.induct walk (.after point) with
  | case1 taken walker scene next after stepped further =>
    have cancelled : (Cancellation.after point).isSet taken = true := decide_eq_true reached
    have rule := Walker.stepped_of_step stepped
    have later := further (Nat.le_succ_of_le reached)
    rw [history_of_running stepped, List.flatten_cons, List.length_append, rule.added]
    rw [cancelled] at stepped
    exact (Nat.add_le_add_left later _).trans (Walker.room_step stepped)
  | case2 taken walker scene summary after stepped =>
    rw [history_of_finished stepped]
    exact Nat.zero_le _
  | case3 taken walker scene after stepped =>
    rw [history_of_interrupted stepped]
    exact Nat.zero_le _

/-- From the point on at which it is cancelled, a walk marks no more objects than the interval
between two looks at its cancellation. -/
theorem drop_history_le (walk : Walk size) (point taken : Nat) (walker : Walker size)
    (scene : Scene size) :
    ((walk.history (.after point) taken walker scene).drop (point - taken)).flatten.length ≤
      cancellationInterval := by
  induction taken, walker, scene using Walk.run.induct walk (.after point) with
  | case1 taken walker scene next after stepped further =>
    by_cases reached : point ≤ taken
    · rw [Nat.sub_eq_zero_of_le reached, List.drop_zero]
      exact (history_le_room reached walker scene).trans walker.room_le
    · have later : point - taken = point - (taken + 1) + 1 := by omega
      rw [history_of_running stepped, later, List.drop_succ_cons]
      exact further
  | case2 taken walker scene summary after stepped =>
    rw [history_of_finished stepped, List.drop_nil]
    exact Nat.zero_le _
  | case3 taken walker scene after stepped =>
    rw [history_of_interrupted stepped, List.drop_nil]
    exact Nat.zero_le _

end Walk

end Retained
