import Mathlib.Algebra.BigOperators.Fin
import Mathlib.Algebra.BigOperators.Ring.Finset
import Retained.Proofs.Schedule.Failure
import Retained.Proofs.Store.Build

/-!
# Runs finish

A run goes round the units for a bounded number of rounds. In each round some unit moves, as long as
one is not resolved, and every move takes something from the supply of effort. The bound is no less
than the effort at the start, so a run of an acyclic closure never stops halfway: every unit is
resolved in the end (`State.drive_resolved`), and the run has the result of a complete schedule
(`run_resolved`).
-/

namespace Retained

variable {size : Nat}

namespace Store

variable {Value : Type} (store : Store Value)

/-- A closure has no more nodes than its root and what the dependencies of the store name. -/
theorem card_closure_le (root : NodeKey) :
    (store.closure root).card ≤ store.listed.length + 1 := by
  have inside : store.closure root ⊆ (root :: store.listed).toFinset := by
    intro key member
    rw [List.mem_toFinset, List.mem_cons]
    rcases Relation.ReflTransGen.cases_tail (mem_closure.mp member) with same | ⟨_, _, depends⟩
    · exact Or.inl same
    · exact Or.inr (mem_listed depends)
  exact (Finset.card_le_card inside).trans (List.toFinset_card_le _)

/-- The dependencies that the store counts are those that its nodes list. -/
theorem edgeCount_eq : store.edgeCount = store.listed.length := by
  rw [edgeCount, listed, List.length_flatMap]
  rfl

/-- Some nodes list no more dependencies than the store has. -/
theorem sum_depList_le (scope : Finset NodeKey) :
    ∑ key ∈ scope, (store.depList key).length ≤ store.edgeCount := by
  have covers : ∀ key, store.contains key = true → key ∈ scope ∪ store.keys.toFinset := by
    intro key held
    rw [Finset.mem_union, List.mem_toFinset, keys, Std.ExtTreeMap.mem_keys]
    exact Or.inr (Std.ExtTreeMap.contains_iff_mem.mp held)
  rw [edgeCount_eq_sum covers]
  exact Finset.sum_le_sum_of_subset Finset.subset_union_left

end Store

namespace Schedule

namespace State

variable {state next : State size} {plan : Plan size} {root key : NodeKey} {session : Bool}
variable {marks : Marks size}

/-- The nodes that are listed as unresolved are those whose units are not resolved. -/
theorem mem_unresolved_iff :
    key ∈ state.unresolved ↔
      ∃ stage, state.units[key]? = some stage ∧ stage.isResolved = false := by
  simp only [unresolved, List.mem_filterMap, Prod.exists,
    Std.ExtTreeMap.mem_toList_iff_getElem?_eq_some]
  constructor
  · intro listed
    obtain ⟨other, stage, held, kept⟩ := listed
    split at kept
    · cases kept
    · next pending =>
      cases kept
      exact ⟨stage, held, Bool.eq_false_iff.mpr pending⟩
  · intro pending
    obtain ⟨stage, held, unresolved⟩ := pending
    refine ⟨key, stage, held, ?_⟩
    rw [if_neg (Bool.eq_false_iff.mp unresolved)]

/-- Turns take something from the supply of effort, unless none of the units can move. -/
theorem turns_effort {keys : List NodeKey}
    (reached : Reaches (LeadsInside plan) (start plan root marks session) state) :
    (keys.foldl (turn plan) state = state ∧ ∀ key ∈ keys, state.advance plan key = none) ∨
      (keys.foldl (turn plan) state).effort plan (plan.store.closure root) <
        state.effort plan (plan.store.closure root) := by
  induction keys generalizing state with
  | nil => exact Or.inl ⟨rfl, by simp⟩
  | cons key others further =>
    rw [List.foldl_cons]
    cases moved : state.advance plan key with
    | none =>
      have stays : turn plan state key = state := by
        rw [turn_eq, moved]
        rfl
      rw [stays]
      refine (further reached).imp_left ?_
      intro idle
      refine ⟨idle.1, ?_⟩
      intro other member
      rcases List.mem_cons.mp member with rfl | later
      · exact moved
      · exact idle.2 other later
    | some next =>
      have moves : turn plan state key = next := by
        rw [turn_eq, moved]
        rfl
      have sound := sound_of_reaches (reaches_of_inside reached)
      have less := (advance_moved moved).effort_lt (sound.mover_mem (advance_moved moved))
      right
      rw [moves]
      rcases further (reached.step ⟨.advance key, Move.noConfusion, moved⟩) with ⟨same, _⟩ | lower
      · rw [same]
        exact less
      · exact lower.trans less

/-- As long as some unit is not resolved, a round takes something from the supply of effort. -/
theorem round_effort_lt (acyclic : plan.store.Acyclic root)
    (reached : Reaches (LeadsInside plan) (start plan root marks session) state)
    (pending : state.unresolved ≠ []) :
    (state.round plan).effort plan (plan.store.closure root) <
      state.effort plan (plan.store.closure root) := by
  obtain ⟨key, listed⟩ := List.exists_mem_of_ne_nil _ pending
  obtain ⟨stage, held, unresolved⟩ := mem_unresolved_iff.mp listed
  have sound := sound_of_reaches (reaches_of_inside reached)
  have permitted := permitted_of_reaches (reaches_of_inside reached)
  obtain ⟨mover, next, moved⟩ := exists_advance acyclic sound permitted held unresolved
  have turned : mover ∈ state.unresolved := mem_unresolved_iff.mpr (advance_moved moved).held
  rcases turns_effort reached with ⟨_, idle⟩ | lower
  · rw [idle mover turned] at moved
    cases moved
  · exact lower

/-- With as many rounds as there is effort, every unit is resolved in the end. -/
theorem drive_resolved (acyclic : plan.store.Acyclic root) {rounds : Nat}
    (reached : Reaches (LeadsInside plan) (start plan root marks session) state)
    (enough : state.effort plan (plan.store.closure root) ≤ rounds) :
    (drive plan rounds state).unresolved = [] := by
  induction rounds generalizing state with
  | zero =>
    rw [drive]
    by_contra pending
    have less := round_effort_lt acyclic reached pending
    omega
  | succ rounds further =>
    rw [drive]
    by_cases settled : state.unresolved = []
    · rw [settled]
      exact settled
    · have pending : state.unresolved.isEmpty = false := by simpa using settled
      rw [pending]
      have less := round_effort_lt acyclic reached settled
      exact further (turns_reaches reached) (by omega)

/-! ## The bound suffices -/

/-- Marking cannot cost more steps than twice the fields and once the objects. -/
theorem unexplored_le (plan : Plan size) (marks : Marks size) :
    plan.walk.unexplored marks ≤
      size + 2 * (plan.heap.objects.toList.map fun object => object.fields.length).sum := by
  have each : ∀ place ∈ Finset.univ,
      (if marks.contains place then 0 else 2 * (plan.walk.successors place).length + 1) ≤
        1 + 2 * (plan.heap.object place).fields.length := by
    intro place _
    have followed : (plan.walk.successors place).length ≤
        (plan.heap.object place).fields.length := by
      rw [Walk.successors, WalkOptions.successors, List.length_map]
      exact List.length_filter_le _ _
    split <;> omega
  have listed : ∑ place : Fin size, (plan.heap.object place).fields.length =
      (plan.heap.objects.toList.map fun object => object.fields.length).sum := by
    rw [← List.sum_ofFn]
    congr 1
    refine List.ext_getElem (by simp) ?_
    intro place inside outside
    simp [Heap.object]
  calc
    plan.walk.unexplored marks ≤ ∑ place, (1 + 2 * (plan.heap.object place).fields.length) :=
      Finset.sum_le_sum each
    _ = size + 2 * (plan.heap.objects.toList.map fun object => object.fields.length).sum := by
      rw [Finset.sum_add_distrib, ← Finset.mul_sum, listed]
      simp

/-- The effort at the start is within the bound on the moves. -/
theorem effort_start_le (plan : Plan size) (root : NodeKey) (marks : Marks size) (session : Bool) :
    (start plan root marks session).effort plan (plan.store.closure root) ≤ plan.moveBound := by
  have spawned : (start plan root marks session).total (plan.store.closure root)
      (Stage.effort plan) =
        ∑ key ∈ plan.store.closure root, ((plan.store.depList key).length + 7) := by
    refine Finset.sum_congr rfl ?_
    intro key _
    rw [stage_start]
    rfl
  have units := plan.store.card_closure_le root
  have edges := plan.store.sum_depList_le (plan.store.closure root)
  have objects := unexplored_le plan marks
  have marked : (start plan root marks session).scene.marks = marks := rfl
  rw [← Store.edgeCount_eq] at units
  rw [effort, spawned, marked, Finset.sum_add_distrib, Finset.sum_const, smul_eq_mul]
  unfold Plan.moveBound
  simp only [← List.sum_eq_foldr]
  omega

end State

open State

/-- A run with more permits than a pool can have is refused. -/
theorem run_crowded {plan : Plan size} (large : permitLimit < plan.permits) (root : NodeKey)
    (marks : Marks size) (session : Bool) :
    run plan root marks session = (.error (.poolTooLarge plan.permits), .start session) := by
  unfold run
  rw [if_pos large]

/-- A run of an acyclic closure, if a pool can be made for its walks, ends in a state in which the
root is resolved. -/
theorem run_resolved {plan : Plan size} {root : NodeKey} (acyclic : plan.store.Acyclic root)
    (fits : plan.permits ≤ permitLimit) (marks : Marks size) (session : Bool) :
    ∃ state, Reaches (LeadsInside plan) (.start plan root marks session) state ∧
      state.isResolved root = true ∧
      run plan root marks session = (state.outcome root, state.token) := by
  let last := drive plan plan.moveBound (.start plan root marks session)
  have reached : Reaches (LeadsInside plan) (.start plan root marks session) last :=
    drive_reaches .refl
  have settled : last.unresolved = [] :=
    drive_resolved acyclic .refl (effort_start_le plan root marks session)
  have sound := sound_of_reaches (reaches_of_inside reached)
  refine ⟨last, reached, ?_, ?_⟩
  · obtain ⟨stage, held⟩ := mem_units_iff.mp sound.rooted
    by_contra unresolved
    rw [isResolved_of_held held, Bool.not_eq_true] at unresolved
    have listed : root ∈ last.unresolved := mem_unresolved_iff.mpr ⟨stage, held, unresolved⟩
    rw [settled] at listed
    cases listed
  · unfold run
    rw [if_neg (Nat.not_lt.mpr fits)]

end Schedule

end Retained
