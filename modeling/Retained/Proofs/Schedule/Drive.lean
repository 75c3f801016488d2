import Retained.Proofs.Schedule.Move
import Retained.Schedule.Run

/-!
# Runs as interleavings

A run lets units take turns, and a turn is a move or nothing, so the state in which a run ends is
one that moves lead to from its start. What holds of every such state holds of the result of a run.
-/

namespace Retained.Schedule

variable {size : Nat}

namespace State

variable {plan : Plan size} {origin state last : State size}

/-- Moves that are not cancellations from outside are moves. -/
theorem reaches_of_inside (reached : Reaches (LeadsInside plan) origin state) :
    Reaches (Leads plan) origin state := by
  induction reached with
  | refl => exact .refl
  | step _ leads earlier =>
    obtain ⟨move, _, moved⟩ := leads
    exact earlier.step ⟨move, moved⟩

/-- A unit is resolved if its stage is. -/
theorem isResolved_of_held {key : NodeKey} {stage : Stage size}
    (held : state.units[key]? = some stage) : state.isResolved key = stage.isResolved := by
  rw [isResolved, held, Option.map_some, Option.getD_some]

/-- The turn of a unit is its next move, if it has one. -/
theorem turn_eq (plan : Plan size) (state : State size) (key : NodeKey) :
    turn plan state key = (state.advance plan key).getD state := by
  unfold turn
  cases held : state.units[key]? with
  | none => rfl
  | some stage =>
    cases stage with
    | walking walker =>
      have moves : state.advance plan key = some (state.stepWalk plan key walker) := by
        unfold advance
        rw [held]
      rw [moves]
      rfl
    | _ => rfl

/-- A turn leads to a state that moves lead to. -/
theorem turn_reaches (reached : Reaches (LeadsInside plan) origin state) (key : NodeKey) :
    Reaches (LeadsInside plan) origin (turn plan state key) := by
  rw [turn_eq]
  cases moved : state.advance plan key with
  | none => exact reached
  | some next => exact reached.step ⟨.advance key, nofun, moved⟩

/-- Turns lead to a state that moves lead to. -/
theorem turns_reaches {keys : List NodeKey} (reached : Reaches (LeadsInside plan) origin state) :
    Reaches (LeadsInside plan) origin (keys.foldl (turn plan) state) := by
  induction keys generalizing state with
  | nil => exact reached
  | cons key others further => exact further (turn_reaches reached key)

/-- Rounds lead to a state that moves lead to. -/
theorem drive_reaches {rounds : Nat} (reached : Reaches (LeadsInside plan) origin state) :
    Reaches (LeadsInside plan) origin (drive plan rounds state) := by
  induction rounds generalizing state with
  | zero => exact reached
  | succ rounds further =>
    rw [drive]
    split
    · exact reached
    · exact further (turns_reaches reached)

end State

open State

/-- A run fails before it starts, leaving its session alone, or it returns what the schedule has
found in a state that moves lead to, with the token of that state. -/
theorem run_cases (plan : Plan size) (root : NodeKey) (marks : Marks size) (session : Bool) :
    (∃ cause, run plan root marks session = (.error cause, .start session)) ∨
      ∃ state, Reaches (LeadsInside plan) (.start plan root marks session) state ∧
        run plan root marks session = (state.outcome root, state.token) := by
  unfold run
  by_cases large : permitLimit < plan.permits
  · rw [if_pos large]
    exact Or.inl ⟨_, rfl⟩
  · rw [if_neg large]
    exact Or.inr ⟨_, drive_reaches .refl, rfl⟩

/-- The closure that a run returns is found in a state that moves lead to. -/
theorem run_ok {plan : Plan size} {root : NodeKey} {marks : Marks size} {session : Bool}
    {closure : Closure size} (returned : (run plan root marks session).1 = .ok closure) :
    ∃ state, Reaches (LeadsInside plan) (.start plan root marks session) state ∧
      state.outcome root = .ok closure := by
  rcases run_cases plan root marks session with ⟨cause, failed⟩ | ⟨state, reached, ended⟩
  · rw [failed] at returned
    cases returned
  · rw [ended] at returned
    exact ⟨state, reached, returned⟩

/-! ## A small schedule -/

/-- A corner of the diamond. -/
def corner (name : String) : NodeKey :=
  .other "CORNER" name

/-- The object that all corners but the top reach. -/
def Plan.shared : Fin 3 := 0

/-- Two nodes that depend on the same bottom node, below a top node that depends on both. The values
of the left and right corner share an object with the value of the bottom. -/
def Plan.diamond : Plan 3 where
  store :=
    let nodes := (((Store.empty.addNode (corner "bottom") Plan.shared).addNode
      (corner "left") 1).addNode (corner "right") 1).addNode (corner "top") 2
    (((nodes.addDep (corner "top") (corner "left")).addDep (corner "top") (corner "right")).addDep
      (corner "left") (corner "bottom")).addDep (corner "right") (corner "bottom")
  heap :=
    { objects := #v[
        { className := "Base", category := .plain, shape := .instance 16, fields := [] },
        { className := "Side", category := .plain, shape := .instance 24
          fields := [{ name := "base", target := Plan.shared, transient := false }] },
        { className := "Top", category := .plain, shape := .instance 32, fields := [] }]
      earlier := by decide }
  options := { rules := [], followTransient := true, needle := none }
  walks := 1

/-- The diamond with its bottom out of reach. -/
def Plan.brokenDiamond : Plan 3 :=
  { Plan.diamond with store := Plan.diamond.store.interruptOn (corner "bottom") }

/-- The diamond has no cycle, whether or not its bottom can be fetched. -/
theorem Plan.brokenDiamond_acyclic (root : NodeKey) : Plan.brokenDiamond.store.Acyclic root := by
  let rank : NodeKey → Nat := fun key =>
    if key = corner "top" then 2 else if key = corner "bottom" then 0 else 1
  apply Store.acyclic_of_ranked rank
  decide +kernel

/-- The schedule of the diamond has a result in a state that moves lead to. -/
theorem diamond_returns :
    ∃ state closure,
      Reaches (LeadsInside .diamond) (.start .diamond (corner "top") .none false) state ∧
      state.outcome (corner "top") = .ok closure := by
  have ends : (run .diamond (corner "top") .none false).1.isOk = true := by decide +kernel
  cases result : (run .diamond (corner "top") .none false).1 with
  | error cause =>
    rw [result] at ends
    contradiction
  | ok closure =>
    obtain ⟨state, reached, returned⟩ := run_ok result
    exact ⟨state, closure, reached, returned⟩

end Retained.Schedule
