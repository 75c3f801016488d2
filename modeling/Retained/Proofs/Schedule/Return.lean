import Mathlib.Data.Fintype.BigOperators
import Retained.Proofs.Schedule.Drive
import Retained.Proofs.Schedule.Total

/-!
# Every schedule returns

A schedule of an acyclic closure cannot run forever and cannot get stuck. Every move takes something
from a finite supply of effort: the steps that each unit still has to make, and those that each
unmarked object can cost the walk that marks it (`State.Moved.effort_lt`). And as long as the root
is not resolved some unit can move: one that waits, waits for a unit below it, and one that queues
can have a permit unless another unit has it (`State.exists_move`). So whatever moves when, the root
is resolved in the end (`State.returns`).
-/

namespace Retained

variable {size : Nat}

/-- The steps that the unmarked objects can still cost the walks that mark them. -/
def Walk.unexplored (walk : Walk size) (marks : Marks size) : Nat :=
  ∑ place, if marks.contains place then 0 else 2 * (walk.successors place).length + 1

/-- Marking an object leaves the others unexplored. -/
theorem Walk.unexplored_mark (walk : Walk size) {marks : Marks size} {place : Fin size}
    (unmarked : marks.contains place = false) :
    walk.unexplored (marks.mark place) + (2 * (walk.successors place).length + 1) =
      walk.unexplored marks := by
  have others : ∀ other ∈ Finset.univ.erase place,
      (if (marks.mark place).contains other then 0 else 2 * (walk.successors other).length + 1) =
        if marks.contains other then 0 else 2 * (walk.successors other).length + 1 := by
    intro other apart
    rw [Marks.contains_mark, decide_eq_false (Finset.ne_of_mem_erase apart).symm, Bool.false_or]
  unfold Walk.unexplored
  rw [← Finset.add_sum_erase _ _ (Finset.mem_univ place),
    ← Finset.add_sum_erase Finset.univ (fun other => if marks.contains other then 0 else _)
      (Finset.mem_univ place),
    Finset.sum_congr rfl others, Marks.contains_mark, decide_eq_true rfl, Bool.true_or, unmarked]
  simp only [if_true, Bool.false_eq_true, if_false]
  omega

/-- A walk that goes on comes closer to its end, or leaves less unexplored. -/
theorem Walker.Stepped.effort_lt {walk : Walk size} {cancelled : Bool} {scene after : Scene size}
    {walker next : Walker size} {claimed : List (Fin size)}
    (stepped : Walker.Stepped walk cancelled scene walker claimed (.running next) after) :
    next.weight walk + walk.unexplored after.marks <
      walker.weight walk + walk.unexplored scene.marks := by
  cases stepped with
  | report =>
    simp only [weight, Walker.report, taskWeight, List.length_reverse]
    omega
  | @offer stack others place summary =>
    have stacked : (if scene.marks.contains place then stack else place :: stack).length ≤
        stack.length + 1 := by
      split
      · omega
      · exact Nat.le_refl _
    simp only [weight, Walker.offer, taskWeight, List.length_cons]
    omega
  | pass settled =>
    simp only [weight, taskWeight, List.length_cons]
    omega
  | @enter stack place summary enters =>
    have explored := walk.unexplored_mark enters.2
    simp only [weight, taskWeight, List.length_cons, List.length_nil]
    omega

namespace Schedule

/-- The steps that a unit still has to make, apart from those that marking objects adds. -/
def Stage.effort (plan : Plan size) (key : NodeKey) : Stage size → Nat
  | spawned => (plan.store.depList key).length + 7
  | claiming _ left _ => left.length + 6
  | waiting _ _ => 5
  | queued _ => 4
  | admitted _ => 3
  | walking walker => walker.weight plan.walk + 1
  | walked => 0
  | failed _ => 0

/-- Whether the next move of a unit waits for nothing. -/
def Stage.isBusy : Stage size → Bool
  | spawned => true
  | claiming _ _ _ => true
  | admitted _ => true
  | walking _ => true
  | _ => false

namespace State

variable {state next : State size} {plan : Plan size} {root key : NodeKey} {session : Bool}

/-- A bound on the moves that the units can still make. -/
def effort (plan : Plan size) (scope : Finset NodeKey) (state : State size) : Nat :=
  state.total scope (Stage.effort plan) + plan.walk.unexplored state.scene.marks

/-- Every move of a unit leaves fewer moves to make. -/
theorem Moved.effort_lt (moved : Moved plan state key next) {scope : Finset NodeKey}
    (member : key ∈ scope) : next.effort plan scope < state.effort plan scope := by
  have balance := moved.total_add member (Stage.effort plan)
  unfold effort
  have rule := moved
  cases rule
  case fetch value deps held goesOn fetched =>
    have listed := Store.deps_eq_depList fetched.2
    rw [stage_of_held held, stage_put] at balance
    simp only [Stage.effort, ← listed] at balance
    simp only [put] at balance ⊢
    omega
  case claim value dep left deps held fresh =>
    rw [stage_of_held held, stage_of_claim held fresh] at balance
    simp only [Stage.effort, List.length_cons] at balance
    simp only [put, note] at balance ⊢
    omega
  case walk walker further scene held stepped =>
    have progress := stepped.effort_lt
    have after : ({ state.put key (.walking further) with scene } : State size).stage key =
        .walking further := stage_put ..
    rw [stage_of_held held, after] at balance
    simp only [Stage.effort] at balance
    simp only [put] at balance ⊢
    omega
  all_goals
    simp only [State.stage, put, note, fail, release, ‹state.units[key]? = some _›, Stage.effort,
      Std.ExtTreeMap.getElem?_insert_self, Option.getD_some, Walker.weight, Walker.taskWeight,
      Walker.start, List.length_cons, List.length_nil] at balance ⊢
    omega

/-! ## Some unit can move -/

/-- A waiting unit can move unless one of its dependencies is neither done nor failed. -/
theorem advance_waiting {value : Fin size} {deps : List NodeKey}
    (held : state.units[key]? = some (.waiting value deps)) :
    (∃ next, state.advance plan key = some next) ∨
      ∃ dep ∈ deps, ∀ stage, state.units[dep]? = some stage → stage.isResolved = false := by
  have moves : state.advance plan key = state.await key value deps := by
    unfold advance
    rw [held]
  rw [moves]
  unfold State.await
  cases failure : state.failureAmong deps with
  | some cause => exact Or.inl ⟨_, rfl⟩
  | none =>
    by_cases done : state.allWalked deps = true
    · exact Or.inl ⟨_, by rw [if_pos done]⟩
    · right
      simp only [allWalked, List.all_eq_true, not_forall] at done
      obtain ⟨dep, member, unwalked⟩ := done
      refine ⟨dep, member, ?_⟩
      intro stage reached
      have sound := List.findSome?_eq_none_iff.mp failure dep member
      cases stage with
      | walked => simp [reached, Stage.isWalked] at unwalked
      | failed cause => simp [reached, Stage.failure?] at sound
      | _ => rfl

/-- A unit that depends on nothing else for its next move can make it. -/
theorem advance_busy {stage : Stage size} (held : state.units[key]? = some stage)
    (busy : stage.isBusy = true) : ∃ next, state.advance plan key = some next := by
  unfold advance
  rw [held]
  cases stage with
  | spawned => exact ⟨_, rfl⟩
  | claiming value left deps => cases left <;> exact ⟨_, rfl⟩
  | admitted value => exact ⟨_, rfl⟩
  | walking walker => exact ⟨_, rfl⟩
  | waiting value deps => cases busy
  | queued value => cases busy
  | walked => cases busy
  | failed cause => cases busy

/-- When no permit is free, some unit has one. -/
theorem Permitted.exists_holder {scope : Finset NodeKey} (permitted : state.Permitted plan scope)
    (taken : state.free = 0) :
    ∃ (holder : NodeKey) (stage : Stage size),
      state.units[holder]? = some stage ∧ stage.permits = 1 := by
  have some : state.total scope (fun _ => Stage.permits) ≠ 0 := by
    have positive : 0 < plan.permits := Nat.lt_of_lt_of_le Nat.one_pos (Nat.le_max_right _ _)
    unfold Permitted at permitted
    omega
  obtain ⟨holder, _, holds⟩ := Finset.exists_ne_zero_of_sum_ne_zero some
  unfold State.stage at holds
  cases held : state.units[holder]? with
  | none =>
    rw [held] at holds
    exact absurd rfl holds
  | some stage =>
    rw [held, Option.getD_some] at holds
    refine ⟨holder, stage, held, ?_⟩
    cases stage <;> simp_all [Stage.permits]

/-- In an acyclic closure, as long as some unit is not resolved, some unit has a next move. -/
theorem exists_advance (acyclic : plan.store.Acyclic root) (sound : state.Sound plan root)
    (permitted : state.Permitted plan (plan.store.closure root)) {stage : Stage size}
    (held : state.units[key]? = some stage) (unresolved : stage.isResolved = false) :
    ∃ (mover : NodeKey) (next : State size), state.advance plan mover = some next := by
  -- A unit that waits passes the question on to the unit it waits for, further down the closure.
  have every : ∀ key ∈ plan.store.closure root, ∀ stage : Stage size,
      state.units[key]? = some stage → stage.isResolved = false →
        ∃ (mover : NodeKey) (next : State size), state.advance plan mover = some next := by
    refine acyclic.induct ?_
    intro key _ below stage held unresolved
    cases stage with
    | waiting value deps =>
      rcases advance_waiting held with moves | ⟨dep, member, pending⟩
      · exact ⟨key, moves⟩
      · obtain ⟨fetched, reached⟩ := sound.fits key _ held
        obtain ⟨other, found⟩ := mem_units_iff.mp (reached dep member)
        exact below dep (fetched.dependsOn.mpr member) other found (pending other found)
    | queued value =>
      by_cases taken : state.free = 0
      · obtain ⟨holder, other, found, holds⟩ := permitted.exists_holder taken
        have busy : other.isBusy = true := by
          cases other <;> simp_all [Stage.permits, Stage.isBusy]
        exact ⟨holder, advance_busy found busy⟩
      · refine ⟨key, ?_⟩
        unfold advance
        rw [held]
        exact ⟨_, if_neg taken⟩
    | walked => cases unresolved
    | failed cause => cases unresolved
    | _ => exact ⟨key, advance_busy held rfl⟩
  exact every key (sound.confined key (mem_units_iff.mpr ⟨stage, held⟩)) stage held unresolved

/-- In an acyclic closure, as long as some unit is not resolved, some unit can move. -/
theorem exists_move (acyclic : plan.store.Acyclic root) (sound : state.Sound plan root)
    (permitted : state.Permitted plan (plan.store.closure root)) {stage : Stage size}
    (held : state.units[key]? = some stage) (unresolved : stage.isResolved = false) :
    ∃ next, LeadsInside plan state next := by
  obtain ⟨mover, next, moved⟩ := exists_advance acyclic sound permitted held unresolved
  exact ⟨next, .advance mover, Move.noConfusion, moved⟩

/-! ## The root is resolved in the end -/

/-- Whatever moves next, and next again, the root is resolved in the end: it is resolved now, or
some unit can move and the same is true after every move. -/
inductive Returns (plan : Plan size) (root : NodeKey) : State size → Prop where
  | now {state : State size} (resolved : state.isResolved root = true) : Returns plan root state
  | later {state : State size} (possible : ∃ next, LeadsInside plan state next)
      (after : ∀ next, LeadsInside plan state next → Returns plan root next) :
      Returns plan root state

/-- In every state that a schedule reaches, every permit is free or taken. -/
theorem permitted_of_reaches {marks : Marks size}
    (reached : Reaches (Leads plan) (start plan root marks session) state) :
    state.Permitted plan (plan.store.closure root) := by
  induction reached with
  | refl => exact permitted_start plan root marks session _
  | step reached leads permitted =>
    rcases leads_cases leads with rfl | ⟨key, moved⟩
    · exact permitted
    · have member := (sound_of_reaches reached).mover_mem moved
      exact permitted.moved member moved

/-- From every state that the schedule of an acyclic closure reaches, the root is resolved in the
end, whatever moves when. -/
theorem returns (acyclic : plan.store.Acyclic root) {marks : Marks size}
    (reached : Reaches (LeadsInside plan) (start plan root marks session) state) :
    Returns plan root state := by
  induction left : state.effort plan (plan.store.closure root) using Nat.strong_induction_on
    generalizing state with
  | h effort further =>
    have sound := sound_of_reaches (reaches_of_inside reached)
    have permitted := permitted_of_reaches (reaches_of_inside reached)
    by_cases resolved : state.isResolved root = true
    · exact .now resolved
    · obtain ⟨stage, held⟩ := mem_units_iff.mp sound.rooted
      have unresolved : stage.isResolved = false := by
        rw [isResolved_of_held held] at resolved
        exact Bool.eq_false_iff.mpr resolved
      refine .later (exists_move acyclic sound permitted held unresolved) ?_
      intro next leads
      obtain ⟨key, moved⟩ := leadsInside_moved leads
      have less := moved.effort_lt (sound.mover_mem moved)
      rw [left] at less
      exact further _ less (reached.step leads) rfl

end State

end Schedule

end Retained
