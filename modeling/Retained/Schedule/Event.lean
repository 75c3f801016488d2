import Retained.Store.Basic

/-!
# The log of a schedule

A schedule logs when a node is claimed for the first time, when a later dependent joins the unit
that is there already, and when the walk of a node's value starts and finishes. The questions here
are asked of such a log.
-/

namespace Retained

/-- Something that happened in a schedule. -/
inductive Event where
  /-- The first dependent reached a node. -/
  | claimed (key : NodeKey)
  /-- A later dependent reached a node. -/
  | joined (key : NodeKey)
  /-- The walk of a node's value started. -/
  | walkStarted (key : NodeKey)
  /-- The walk of a node's value finished with so many objects marked. -/
  | walkFinished (key : NodeKey) (objects : Nat)
deriving DecidableEq, Repr

/-- What a log says about one node. -/
structure NodeRow where
  /-- The node. -/
  key : NodeKey
  /-- How often it was claimed. -/
  claims : Nat
  /-- How often it was joined. -/
  joins : Nat
  /-- How often its value was walked. -/
  walks : Nat
  /-- How many objects its walks marked. -/
  objects : Nat
deriving DecidableEq, Repr

namespace Event

/-- The number of objects that an event reports for a node. -/
def objectsOf (key : NodeKey) : Event → Nat
  | walkFinished walked objects => if walked = key then objects else 0
  | _ => 0

/-- The node that an event claims. -/
def claim? : Event → Option NodeKey
  | claimed key => some key
  | _ => none

/-- The node whose walk an event finishes. -/
def finish? : Event → Option NodeKey
  | walkFinished key _ => some key
  | _ => none

/-- What a log says about a node. -/
def row (log : List Event) (key : NodeKey) : NodeRow :=
  { key
    claims := log.count (.claimed key)
    joins := log.count (.joined key)
    walks := log.count (.walkStarted key)
    objects := (log.map (objectsOf key)).foldr (· + ·) 0 }

/-- What a log says about each claimed node, in the order of the keys. -/
def rows (log : List Event) : List NodeRow :=
  let claimed := Std.ExtTreeSet.ofList (log.filterMap claim?) compare
  claimed.toList.map (row log)

/-- Whether the walks of some nodes are finished when the walk of a node first starts. -/
def walkedBefore (log : List Event) (key : NodeKey) (deps : List NodeKey) : Bool :=
  let earlier := (log.takeWhile (· != .walkStarted key)).filterMap finish?
  deps.all earlier.contains

/-- Whether every claimed node's walk started after the walks of the nodes it depends on. -/
def dependenciesFirst {Value : Type} (store : Store Value) (log : List Event) : Bool :=
  (log.filterMap claim?).all fun key =>
    match store.nodes[key]? with
    | some node => walkedBefore log key node.deps
    | none => true

end Event

end Retained
