import Mathlib.Data.Set.Basic
import Retained.Proofs.Store.Build

/-!
# Stores and their histories

A store is made from the empty one by changes, one after the other. What it holds depends only on
which nodes were added: not on their order, nor on the dependencies, targets and interruptions
between them.
-/

namespace Retained.Store

variable {Value : Type} {store : Store Value} {key : NodeKey}

/-- One change of a store. -/
inductive Change (Value : Type) where
  /-- A node is added, or the value of one that is held is set. -/
  | addNode (key : NodeKey) (value : Value)
  /-- A dependency is added. -/
  | addDep (key dep : NodeKey)
  /-- The target configuration is set. -/
  | setTarget (configuration : ConfigurationKey)
  /-- Fetches of a node are interrupted. -/
  | interruptOn (key : NodeKey)

/-- The store after a change. -/
def apply (store : Store Value) : Change Value → Store Value
  | .addNode key value => store.addNode key value
  | .addDep key dep => store.addDep key dep
  | .setTarget configuration => store.setTarget configuration
  | .interruptOn key => store.interruptOn key

/-- The store that changes make of the empty one. -/
def built (changes : List (Change Value)) : Store Value :=
  changes.foldl apply empty

/-- The keys of the nodes that changes add. -/
def added (changes : List (Change Value)) : Set NodeKey :=
  {key | ∃ value, .addNode key value ∈ changes}

/-- A key is added by a change that adds its node. -/
theorem mem_added {changes : List (Change Value)} :
    key ∈ added changes ↔ ∃ value, .addNode key value ∈ changes :=
  Iff.rfl

/-- After a change a store holds the node that the change adds and those that it held before. -/
theorem contains_apply (change : Change Value) : (store.apply change).contains key = true ↔
    (∃ value, change = .addNode key value) ∨ store.contains key = true := by
  cases change with
  | addNode other value =>
    have adds : (∃ held, Change.addNode other value = .addNode key held) ↔ key = other := by
      simp only [Change.addNode.injEq, exists_and_left, exists_eq', and_true]
      exact eq_comm
    rw [apply, contains_addNode, adds]
  | addDep other dep =>
    rw [apply, contains_addDep]
    simp
  | setTarget configuration =>
    have same : (store.setTarget configuration).contains key = store.contains key := rfl
    rw [apply, same]
    simp
  | interruptOn other =>
    have same : (store.interruptOn other).contains key = store.contains key := rfl
    rw [apply, same]
    simp

/-- What changes add is what the first one adds and what the others add. -/
theorem mem_added_cons {change : Change Value} {others : List (Change Value)} :
    key ∈ added (change :: others) ↔
      (∃ value, change = .addNode key value) ∨ key ∈ added others := by
  have isFirst : ∀ value, Change.addNode key value = change ↔ change = .addNode key value :=
    fun _ => eq_comm
  simp only [mem_added, List.mem_cons, exists_or, isFirst]

/-- After changes a store holds the nodes that they add and those that it held before. -/
theorem contains_foldl_apply (changes : List (Change Value)) :
    (changes.foldl apply store).contains key = true ↔
      key ∈ added changes ∨ store.contains key = true := by
  induction changes generalizing store with
  | nil => simp [mem_added]
  | cons change others further =>
    rw [List.foldl_cons, further, contains_apply, mem_added_cons, or_left_comm, or_assoc]

/-- A store holds the nodes that were added to it. -/
theorem contains_built {changes : List (Change Value)} :
    (built changes).contains key = true ↔ key ∈ added changes := by
  have none : (empty : Store Value).contains key = false := by simp [empty, contains]
  rw [built, contains_foldl_apply, none]
  simp

/-- What changes add, they add with further ones behind them. -/
theorem added_append (changes more : List (Change Value)) :
    added (changes ++ more) = added changes ∪ added more := by
  ext key
  simp [mem_added, exists_or]

end Retained.Store
