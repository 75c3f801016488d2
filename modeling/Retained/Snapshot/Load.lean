import Retained.Snapshot.Acyclic
import Retained.Snapshot.Json
import Retained.Snapshot.Layout
import Retained.Store.Basic

/-!
# Loading snapshots

Loading lays the objects out in a heap and puts the nodes into a store: the configurations first,
then the other nodes, then the dependencies. Every node is defined once, every dependency is
defined, no node depends on itself, the target configuration is defined, and every identifier is
that of an object. What is checked first is refused first.
-/

namespace Retained.Snapshot

/-- A loaded snapshot. -/
structure Loaded where
  /-- The number of objects. -/
  size : Nat
  /-- The objects. -/
  heap : Heap size
  /-- The nodes. -/
  store : Store (Fin size)
  /-- The builtins root, if there is one. -/
  builtins : Option (Fin size)

namespace Layout

/-- The store with one more node, which has to be new. -/
def define (layout : Layout) (store : Store (Fin layout.draft.count)) (key : NodeKey)
    (value : UInt64) : Except Refusal (Store (Fin layout.draft.count)) := do
  if store.contains key then throw (.duplicateNode key)
  return store.addNode key (← layout.place value)

end Layout

/-- The store with one more dependency, which has to be defined. -/
def link {Value : Type} (key : NodeKey) (store : Store Value) (dep : NodeKey) :
    Except Refusal (Store Value) :=
  if store.contains dep then .ok (store.addDep key dep) else .error (.unknownDependency key dep)

/-- The store with the target configuration of a snapshot, which has to be defined. -/
def aim {Value : Type} (store : Store Value) (target : Option String) :
    Except Refusal (Store Value) :=
  match target with
  | none => .ok store
  | some checksum =>
    if store.contains (.buildConfiguration { checksum }) then .ok (store.setTarget { checksum })
    else .error (.unknownConfiguration checksum)

/-- The store and the heap of a snapshot. -/
def File.load (file : File) : Except Refusal Loaded := do
  let layout ← Layout.ofRecords file.objects
  let store ← file.configurations.foldlM
    (fun store record => layout.define store (.buildConfiguration record.key) record.value) .empty
  let store ← file.nodes.foldlM
    (fun store record => layout.define store record.key record.value) store
  let store ← file.nodes.foldlM
    (fun store record => record.deps.foldlM (link record.key) store) store
  checkAcyclic file.nodes
  let store ← aim store file.targetConfiguration
  let builtins ← file.builtins.mapM layout.place
  return { size := layout.draft.count, heap := layout.draft.heap, store, builtins }

/-- The file that a text writes. -/
def File.parse (text : String) : Except Refusal File :=
  match File.read? text with
  | some file => .ok file
  | none => .error .malformed

/-- The dump facility over a loaded snapshot. -/
def load (text : String) : Except Refusal Loaded := do
  (← File.parse text).load

end Retained.Snapshot
