import Mathlib.Algebra.BigOperators.Group.Finset.Basic
import Mathlib.Algebra.GroupWithZero.Nat
import Mathlib.Algebra.Order.BigOperators.Group.Finset
import Retained.Proofs.Schedule.Unit

/-!
# Sums over the units of a schedule

Many facts about a schedule are sums of one number for each node of a closure, read off the stage of
the node's unit. A node without a unit counts as one whose unit has not begun, so claiming a node
changes no such sum, and a move changes one summand only: that of the unit that moves
(`Moved.total_add`). The first use is the conservation of permits.
-/

namespace Retained.Schedule

variable {size : Nat}

namespace State

variable {state next : State size} {plan : Plan size} {root key : NodeKey} {session : Bool}

/-- The stage of a node. A node without a unit has not begun. -/
def stage (state : State size) (key : NodeKey) : Stage size :=
  state.units[key]?.getD .spawned

/-- The stage of a node that has a unit is that of its unit. -/
theorem stage_of_held {stage : Stage size} (held : state.units[key]? = some stage) :
    state.stage key = stage := by
  simp [State.stage, held]

/-- A unit that is put at a stage is at that stage. -/
theorem stage_put (state : State size) (key : NodeKey) (stage : Stage size) :
    (state.put key stage).stage key = stage := by
  apply stage_of_held
  rw [units_put, if_pos rfl]

/-- No unit has begun at first. -/
theorem stage_start (plan : Plan size) (root key : NodeKey) (marks : Marks size) (session : Bool) :
    (start plan root marks session).stage key = .spawned := by
  unfold State.stage
  cases held : (start plan root marks session).units[key]? with
  | none => rfl
  | some stage => rw [(units_start held).2, Option.getD_some]

/-- A unit that claims a dependency goes on claiming. -/
theorem stage_of_claim {before stage : Stage size} {dep : NodeKey}
    (held : state.units[key]? = some before) (fresh : state.units[dep]? = none) :
    (((state.put key stage).put dep .spawned).note (.claimed dep)).stage key = stage := by
  have apart : key ≠ dep := by
    intro same
    rw [← same, held] at fresh
    contradiction
  rw [State.stage, units_note, units_put, if_neg apart, units_put, if_pos rfl, Option.getD_some]

/-- The nodes whose units do not move stay at their stages. -/
theorem Moved.stage_others (moved : Moved plan state key next) {other : NodeKey}
    (apart : other ≠ key) : next.stage other = state.stage other := by
  rcases moved.others apart with same | ⟨absent, spawned⟩
  · rw [stage, same, stage]
  · rw [stage, spawned, stage, absent, Option.getD_some, Option.getD_none]

/-- The sum over some nodes of a number for each stage. -/
def total (state : State size) (scope : Finset NodeKey) (weight : NodeKey → Stage size → Nat) :
    Nat :=
  ∑ key ∈ scope, weight key (state.stage key)

/-- A move changes the summand of the unit that moves, and no other. -/
theorem Moved.total_add (moved : Moved plan state key next) {scope : Finset NodeKey}
    (member : key ∈ scope) (weight : NodeKey → Stage size → Nat) :
    next.total scope weight + weight key (state.stage key) =
      state.total scope weight + weight key (next.stage key) := by
  have others : ∀ other ∈ scope.erase key,
      weight other (next.stage other) = weight other (state.stage other) := by
    intro other outside
    rw [moved.stage_others (Finset.ne_of_mem_erase outside)]
  calc
    next.total scope weight + weight key (state.stage key) =
        weight key (next.stage key) + ∑ other ∈ scope.erase key, weight other (next.stage other) +
          weight key (state.stage key) := by
      rw [Finset.add_sum_erase scope (fun other => weight other (next.stage other)) member]
      rfl
    _ = weight key (state.stage key) +
          ∑ other ∈ scope.erase key, weight other (state.stage other) +
          weight key (next.stage key) := by
      rw [Finset.sum_congr rfl others]
      omega
    _ = state.total scope weight + weight key (next.stage key) := by
      rw [Finset.add_sum_erase scope (fun other => weight other (state.stage other)) member]
      rfl

/-! ## Permits -/

end State

/-- The number of permits that a unit has. -/
def Stage.permits : Stage size → Nat
  | admitted _ => 1
  | walking _ => 1
  | _ => 0

namespace State

variable {state next : State size} {plan : Plan size} {root key : NodeKey} {session : Bool}

/-- No permit is lost or made up: a permit is free or some unit has it. -/
def Permitted (plan : Plan size) (scope : Finset NodeKey) (state : State size) : Prop :=
  state.free + state.total scope (fun _ => Stage.permits) = plan.permits

/-- A move passes permits on. -/
theorem Permitted.moved {scope : Finset NodeKey} (permitted : state.Permitted plan scope)
    (member : key ∈ scope) (moved : Moved plan state key next) : next.Permitted plan scope := by
  have balance := moved.total_add member fun _ => Stage.permits
  unfold Permitted at permitted ⊢
  have rule := moved
  cases rule
  case claim value dep left deps held fresh =>
    rw [stage_of_held held, stage_of_claim held fresh] at balance
    exact (congrArg (state.free + ·) balance).trans permitted
  case permit value held available =>
    simp only [State.stage, put, held, Stage.permits, Std.ExtTreeMap.getElem?_insert_self,
      Option.getD_some] at balance ⊢
    omega
  all_goals
    simp only [State.stage, put, note, fail, release, ‹state.units[key]? = some _›, Stage.permits,
      Std.ExtTreeMap.getElem?_insert_self, Option.getD_some] at balance ⊢
    omega

/-- No permit is taken at first. -/
theorem permitted_start (plan : Plan size) (root : NodeKey) (marks : Marks size) (session : Bool)
    (scope : Finset NodeKey) : (start plan root marks session).Permitted plan scope := by
  have none : (start plan root marks session).total scope (fun _ => Stage.permits) = 0 := by
    apply Finset.sum_eq_zero
    intro key _
    rw [stage_start]
    rfl
  unfold Permitted
  rw [none]
  rfl

end State

end Retained.Schedule
