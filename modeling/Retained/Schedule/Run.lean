import Retained.Schedule.Basic

/-!
# Running a schedule

A run goes round the units: in each round every unit that is not resolved moves once if it can. So
walks that have their permits go on side by side, one step each in a round, and a unit that waits
goes on in the round after the last of its dependencies is done. Every run of this kind is one of
the interleavings of the schedule.

A run is bounded: each unit has a bounded number of moves of its own, a walk moves once for each
object and field it meets, and no object is marked twice.
-/

namespace Retained.Schedule

/-- The largest number of permits that a pool can be made for. -/
def permitLimit : Nat := (UInt64.size - 1) / 8

/-- What a finished schedule has found. -/
structure Closure (size : Nat) where
  /-- The scene that the walks left. -/
  scene : Scene size
  /-- The number of nodes walked. -/
  nodes : Nat
  /-- The number of objects marked. -/
  objects : Nat
  /-- The number of nodes claimed. -/
  claimed : Nat
  /-- What happened. -/
  log : List Event

namespace Plan

variable {size : Nat}

/-- A bound on the moves of a run. -/
def moveBound (plan : Plan size) : Nat :=
  let fields := (plan.heap.objects.toList.map fun object => object.fields.length).foldr (· + ·) 0
  let nodes := plan.store.nodeCount + plan.store.edgeCount + 1
  10 * nodes + plan.store.edgeCount + 3 * size + 2 * fields

end Plan

namespace State

variable {size : Nat}

/-- Whether the unit of a node will not move again. -/
def isResolved (state : State size) (key : NodeKey) : Bool :=
  (state.units[key]?.map Stage.isResolved).getD true

/-- The nodes whose units are not resolved, in their order. -/
def unresolved (state : State size) : List NodeKey :=
  state.units.toList.filterMap fun (key, stage) => if stage.isResolved then none else some key

/-- The state after the turn of a unit, which moves if it can. -/
def turn (plan : Plan size) (state : State size) (key : NodeKey) : State size :=
  match state.units[key]? with
  -- A walk can always go on; taking its step here keeps the state from being shared meanwhile.
  | some (.walking walker) => state.stepWalk plan key walker
  | _ => (state.advance plan key).getD state

/-- The state after a round, in which every unit that is not resolved has its turn. -/
def round (plan : Plan size) (state : State size) : State size :=
  state.unresolved.foldl (turn plan) state

/-- The state after so many rounds, or after fewer if every unit is resolved by then. -/
def drive (plan : Plan size) : Nat → State size → State size
  | 0, state => state
  | rounds + 1, state =>
    if state.unresolved.isEmpty then state else drive plan rounds (state.round plan)

/-- What the schedule has found when its root is resolved. -/
def outcome (state : State size) (root : NodeKey) : Except Interruption (Closure size) :=
  match state.units[root]? with
  | some .walked =>
    .ok {
      scene := state.scene
      nodes := state.nodes
      objects := state.objects
      claimed := state.units.size
      log := state.log.toList }
  | some (.failed cause) => .error cause
  | _ => .error .stalled

end State

/-- How the schedule of a node's closure ends, with some objects claimed beforehand and in a session
that may be cancelled beforehand, and the token that it leaves. -/
def run {size : Nat} (plan : Plan size) (root : NodeKey) (marks : Marks size) (session : Bool) :
    Except Interruption (Closure size) × Token :=
  if permitLimit < plan.permits then
    (.error (.poolTooLarge plan.permits), .start session)
  else
    let state := State.drive plan plan.moveBound (State.start plan root marks session)
    (state.outcome root, state.token)

end Retained.Schedule
