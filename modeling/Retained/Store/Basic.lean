import Std.Data.ExtTreeSet
import Retained.NodeKey

/-!
# The build graph

A store holds the evaluated nodes of a build graph: a value for each, and the nodes it depends on in
the order in which the dependencies were added. Dependencies may name nodes that the store does not
hold. The store also knows the target configuration of the build, and can be told to interrupt
fetches of chosen nodes.
-/

namespace Retained

/-- An evaluated node. -/
structure Node (Value : Type) where
  /-- The node's value. -/
  value : Value
  /-- The nodes it depends on, without repetition, in the order in which they were added. -/
  deps : List NodeKey

/-- An optional query of a store, as opposed to a fetch of one node. -/
inductive StoreQuery where
  /-- Whether the store holds a node. -/
  | contains
  /-- The configurations that the store holds. -/
  | realizedConfigurations
  /-- The target configuration. -/
  | targetConfiguration
deriving DecidableEq, Repr

/-- The name of a query. -/
def StoreQuery.render : StoreQuery → String
  | contains => "contains"
  | realizedConfigurations => "realized_configurations"
  | targetConfiguration => "target_configuration"

/-- Why a fetch failed. -/
inductive FetchError where
  /-- The node is not in the store. -/
  | notFound (key : NodeKey)
  /-- Fetches of the node are interrupted. -/
  | interrupted (key : NodeKey)
  /-- The query is out of order. -/
  | failed (query : StoreQuery)
deriving DecidableEq, Repr

/-- The text shown for a failed fetch. -/
def FetchError.message : FetchError → String
  | notFound key => "Node not found: " ++ key.render
  | interrupted key => "Fetch interrupted at node " ++ key.render
  | failed query => query.render ++ " failed"

/-- The nodes of a build graph. -/
structure Store (Value : Type) where
  /-- The nodes by key. -/
  nodes : Std.ExtTreeMap NodeKey (Node Value) compare
  /-- The target configuration of the build, if it has one. -/
  target : Option ConfigurationKey
  /-- The nodes whose fetches are interrupted. -/
  interrupted : Std.ExtTreeSet NodeKey compare

namespace Store

variable {Value : Type}

/-- The store without nodes. -/
def empty : Store Value :=
  { nodes := ∅, target := none, interrupted := ∅ }

/-- The store with a node's value set; the dependencies of a node already held stay. -/
def addNode (store : Store Value) (key : NodeKey) (value : Value) : Store Value :=
  { store with
    nodes := store.nodes.alter key fun held =>
      some { value, deps := (held.map Node.deps).getD [] } }

/-- Whether a dependency would be new: its node is held and does not have it yet. -/
def isNewDep (store : Store Value) (key dep : NodeKey) : Bool :=
  match store.nodes[key]? with
  | some node => !node.deps.contains dep
  | none => false

/-- The store with a dependency added behind the others of its node, if it is new. -/
def addDep (store : Store Value) (key dep : NodeKey) : Store Value :=
  if store.isNewDep key dep then
    { store with
      nodes := store.nodes.modify key fun node => { node with deps := node.deps ++ [dep] } }
  else
    store

/-- The store with its target configuration set. -/
def setTarget (store : Store Value) (configuration : ConfigurationKey) : Store Value :=
  { store with target := some configuration }

/-- The store with fetches of a node interrupted. -/
def interruptOn (store : Store Value) (key : NodeKey) : Store Value :=
  { store with interrupted := store.interrupted.insert key }

/-- Whether the store holds a node. -/
def contains (store : Store Value) (key : NodeKey) : Bool :=
  store.nodes.contains key

/-- The keys of the nodes, in order. -/
def keys (store : Store Value) : List NodeKey :=
  store.nodes.keys

/-- The number of nodes. -/
def nodeCount (store : Store Value) : Nat :=
  store.nodes.size

/-- The number of dependencies. -/
def edgeCount (store : Store Value) : Nat :=
  (store.nodes.toList.map fun (_, node) => node.deps.length).foldr (· + ·) 0

/-- The configurations whose nodes the store holds, in order. -/
def realizedConfigurations (store : Store Value) : List ConfigurationKey :=
  store.keys.filterMap NodeKey.configuration?

/-- The value of a node, if the store holds the node. -/
def value (store : Store Value) (key : NodeKey) : Except FetchError (Option Value) :=
  if store.interrupted.contains key then .error (.interrupted key)
  else .ok (store.nodes[key]?.map Node.value)

/-- The nodes that a node depends on. -/
def deps (store : Store Value) (key : NodeKey) : Except FetchError (List NodeKey) :=
  if store.interrupted.contains key then .error (.interrupted key)
  else
    match store.nodes[key]? with
    | some node => .ok node.deps
    | none => .error (.notFound key)

end Store

/-- A store one of whose queries may be out of order. -/
structure Source (Value : Type) where
  /-- The store. -/
  store : Store Value
  /-- The query that is out of order. -/
  broken : Option StoreQuery

namespace Source

variable {Value : Type}

/-- A store whose queries all work. -/
def ofStore (store : Store Value) : Source Value :=
  { store, broken := none }

/-- The answer to a query, unless it is out of order. -/
def answer {α : Type} (source : Source Value) (query : StoreQuery) (value : α) :
    Except FetchError α :=
  if source.broken = some query then .error (.failed query) else .ok value

/-- Whether the store holds a node. -/
def contains (source : Source Value) (key : NodeKey) : Except FetchError Bool :=
  source.answer .contains (source.store.contains key)

/-- The configurations whose nodes the store holds, in order. -/
def realizedConfigurations (source : Source Value) : Except FetchError (List ConfigurationKey) :=
  source.answer .realizedConfigurations source.store.realizedConfigurations

/-- The target configuration of the build, if it has one. -/
def targetConfiguration (source : Source Value) : Except FetchError (Option ConfigurationKey) :=
  source.answer .targetConfiguration source.store.target

end Source

end Retained
