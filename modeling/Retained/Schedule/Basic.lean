import Retained.Dump.Error
import Retained.Schedule.Event
import Retained.Walk.Walker

/-!
# The concurrent schedule of a closure

A schedule walks the values of a node and of everything it depends on, each once, into one scene.
Every node of the closure is a unit of work. The first dependent that reaches a node claims it,
which makes its unit; later dependents join. A unit fetches its node, claims its dependencies, waits
until they are walked, takes one of a limited number of permits, and walks its value. The first
failure cancels the schedule, and units that see the cancellation fail.

Units run concurrently: a move is one access of one unit to what they share, and any unit that can
move may be the next to do so. A move that waits for something is not possible until it is there.
`State.Leads` is one move of anything, and what holds of every state that moves can reach holds of
every run.
-/

namespace Retained.Schedule

/-- What stays the same throughout a schedule. -/
structure Plan (size : Nat) where
  /-- The graph. -/
  store : Store (Fin size)
  /-- The heap of the graph's values. -/
  heap : Heap size
  /-- How the objects and fields of the values are treated. -/
  options : WalkOptions (Fin size)
  /-- The number of walks asked for at once. -/
  walks : Nat

namespace Plan

variable {size : Nat}

/-- How every value is walked: what a walk marks, it reports. -/
def walk (plan : Plan size) : Walk size :=
  { heap := plan.heap, options := plan.options, reports := true }

/-- The number of permits to walk; there is always one. -/
def permits (plan : Plan size) : Nat :=
  max plan.walks 1

end Plan

/-- How far a unit is. -/
inductive Stage (size : Nat) where
  /-- It has not begun. -/
  | spawned
  /-- It claims its dependencies; those left to claim stand first. -/
  | claiming (value : Fin size) (left deps : List NodeKey)
  /-- It waits for its dependencies. -/
  | waiting (value : Fin size) (deps : List NodeKey)
  /-- It waits for a permit. -/
  | queued (value : Fin size)
  /-- It has a permit. -/
  | admitted (value : Fin size)
  /-- It has a permit and walks its value. -/
  | walking (walker : Walker size)
  /-- It is done. -/
  | walked
  /-- It has failed. -/
  | failed (cause : Interruption)

namespace Stage

variable {size : Nat}

/-- Whether the unit will not move again. -/
def isResolved : Stage size → Bool
  | walked => true
  | failed _ => true
  | _ => false

/-- Whether the unit is done. -/
def isWalked : Stage size → Bool
  | walked => true
  | _ => false

/-- Why the unit failed, if it did. -/
def failure? : Stage size → Option Interruption
  | failed cause => some cause
  | _ => none

end Stage

/-- The cancellation of a schedule. A schedule has a token of its own below the token of its
session: cancelling the session cancels the schedule, and cancelling the schedule leaves the session
alone. -/
structure Token where
  /-- Whether the session is cancelled. -/
  session : Bool
  /-- Whether the schedule has cancelled itself. -/
  own : Bool
deriving DecidableEq, Repr

namespace Token

/-- The token of a new schedule in a session. -/
def start (session : Bool) : Token :=
  { session, own := false }

/-- Whether the schedule is cancelled, by itself or with its session. -/
def isSet (token : Token) : Bool :=
  token.own || token.session

/-- The schedule cancels itself. -/
def cancel (token : Token) : Token :=
  { token with own := true }

/-- The session is cancelled. -/
def cancelSession (token : Token) : Token :=
  { token with session := true }

end Token

/-- A schedule under way. -/
structure State (size : Nat) where
  /-- The units by their nodes. -/
  units : Std.ExtTreeMap NodeKey (Stage size) compare
  /-- What the walks share. -/
  scene : Scene size
  /-- The permits that are not taken. -/
  free : Nat
  /-- The cancellation of the schedule. -/
  token : Token
  /-- What has happened, the latest last. -/
  log : Array Event
  /-- The number of nodes walked. -/
  nodes : Nat
  /-- The number of objects marked by finished walks. -/
  objects : Nat

namespace State

variable {size : Nat}

/-- A schedule whose root has just been claimed, in a session that may be cancelled already. -/
def start (plan : Plan size) (root : NodeKey) (marks : Marks size) (session : Bool) :
    State size :=
  { units := (∅ : Std.ExtTreeMap NodeKey (Stage size) compare).insert root .spawned
    scene := .start marks
    free := plan.permits
    token := .start session
    log := #[.claimed root]
    nodes := 0
    objects := 0 }

/-- Whether the schedule is cancelled. -/
def cancelled (state : State size) : Bool :=
  state.token.isSet

/-- A unit gets to a stage. -/
def put (state : State size) (key : NodeKey) (stage : Stage size) : State size :=
  { state with units := state.units.insert key stage }

/-- Something happens. -/
def note (state : State size) (event : Event) : State size :=
  { state with log := state.log.push event }

/-- A unit fails, which cancels the schedule. -/
def fail (state : State size) (key : NodeKey) (cause : Interruption) : State size :=
  { state.put key (.failed cause) with token := state.token.cancel }

/-- A permit is given back. -/
def release (state : State size) : State size :=
  { state with free := state.free + 1 }

/-- A dependent reaches a node: it claims the node, or joins its unit. -/
def reach (state : State size) (dep : NodeKey) : State size :=
  if state.units.contains dep then state.note (.joined dep)
  else (state.put dep .spawned).note (.claimed dep)

/-- Why one of the given units failed, if one did. -/
def failureAmong (state : State size) (deps : List NodeKey) : Option Interruption :=
  deps.findSome? fun dep => state.units[dep]?.bind Stage.failure?

/-- Whether all of the given units are done. -/
def allWalked (state : State size) (deps : List NodeKey) : Bool :=
  deps.all fun dep => (state.units[dep]?.map Stage.isWalked).getD false

/-- A unit begins: it fetches the value and the dependencies of its node. -/
def begin (state : State size) (plan : Plan size) (key : NodeKey) : State size :=
  if state.cancelled then
    state.fail key .dumpCancelled
  else
    match plan.store.value key with
    | .error error => state.fail key (.fetch error)
    | .ok none => state.fail key (.vanished key)
    | .ok (some value) =>
      match plan.store.deps key with
      | .error error => state.fail key (.fetch error)
      | .ok deps => state.put key (.claiming value deps deps)

/-- A unit looks at its dependencies: one failure is its failure, and when all are done it queues
for a permit. -/
def await (state : State size) (key : NodeKey) (value : Fin size) (deps : List NodeKey) :
    Option (State size) :=
  match state.failureAmong deps with
  | some cause => some (state.fail key cause)
  | none => if state.allWalked deps then some (state.put key (.queued value)) else none

/-- A unit with a permit starts its walk, unless the schedule is cancelled. -/
def startWalk (state : State size) (key : NodeKey) (value : Fin size) : State size :=
  if state.cancelled then (state.release).fail key .dumpCancelled
  else (state.put key (.walking (.start value))).note (.walkStarted key)

/-- A unit takes one step of its walk. -/
def stepWalk (state : State size) (plan : Plan size) (key : NodeKey) (walker : Walker size) :
    State size :=
  let { units, scene, free, token, log, nodes, objects } := state
  let (progress, scene) := walker.step plan.walk token.isSet scene
  let state : State size := { units, scene, free, token, log, nodes, objects }
  match progress with
  | .running next => state.put key (.walking next)
  | .interrupted => (state.release).fail key .walkCancelled
  | .finished summary =>
    let state := (state.put key .walked).note (.walkFinished key summary.visited)
    { state.release with
      nodes := state.nodes + 1
      objects := state.objects + summary.visited }

/-- The next move of a unit, if it has one. -/
def advance (state : State size) (plan : Plan size) (key : NodeKey) : Option (State size) :=
  match state.units[key]? with
  | some .spawned => some (state.begin plan key)
  | some (.claiming value (dep :: left) deps) =>
    some ((state.put key (.claiming value left deps)).reach dep)
  | some (.claiming value [] deps) => some (state.put key (.waiting value deps))
  | some (.waiting value deps) => state.await key value deps
  | some (.queued value) =>
    if state.free = 0 then none
    else some { state.put key (.admitted value) with free := state.free - 1 }
  | some (.admitted value) => some (state.startWalk key value)
  | some (.walking walker) => some (state.stepWalk plan key walker)
  | some .walked => none
  | some (.failed _) => none
  | none => none

/-- A waiting unit sees that the schedule is cancelled. -/
def abandon (state : State size) (key : NodeKey) : Option (State size) :=
  match state.units[key]? with
  | some (.waiting _ _) => if state.cancelled then some (state.fail key .dumpCancelled) else none
  | _ => none

end State

/-- What may happen next. -/
inductive Move where
  /-- A unit makes its next move. -/
  | advance (key : NodeKey)
  /-- A waiting unit gives up because the schedule is cancelled. -/
  | abandon (key : NodeKey)
  /-- The session is cancelled from outside. -/
  | cancel
deriving DecidableEq, Repr

namespace State

variable {size : Nat}

/-- The state after a move, if the move is possible. -/
def after (plan : Plan size) (move : Move) (state : State size) : Option (State size) :=
  match move with
  | .advance key => state.advance plan key
  | .abandon key => state.abandon key
  | .cancel => some { state with token := state.token.cancelSession }

/-- One move of anything leads from a state to another. -/
def Leads (plan : Plan size) (state next : State size) : Prop :=
  ∃ move, state.after plan move = some next

/-- One move that is not a cancellation from outside leads from a state to another. -/
def LeadsInside (plan : Plan size) (state next : State size) : Prop :=
  ∃ move, move ≠ .cancel ∧ state.after plan move = some next

/-- Any number of moves lead from a state to another. -/
inductive Reaches (leads : State size → State size → Prop) (origin : State size) :
    State size → Prop where
  /-- No move. -/
  | refl : Reaches leads origin origin
  /-- One more move. -/
  | step {state next : State size} (reached : Reaches leads origin state)
    (moved : leads state next) : Reaches leads origin next

/-- What holds at the origin and is kept by every move holds of every state reached. -/
theorem Reaches.induct {leads : State size → State size → Prop} {origin state : State size}
    {holds : State size → Prop} (reached : Reaches leads origin state) (first : holds origin)
    (kept : ∀ state next, leads state next → holds state → holds next) : holds state := by
  induction reached with
  | refl => exact first
  | step _ moved ih => exact kept _ _ moved ih

end State

end Retained.Schedule
