import Mathlib.Data.Finite.Defs
import Mathlib.Data.Set.Finite.List
import Mathlib.Data.Set.Finite.Lattice
import Mathlib.Logic.Relation
import Mathlib.Order.WellFounded
import Retained.Store.Basic

/-!
# Dependency closures

The dependencies of the nodes of a store form a relation on keys, and the closure of a node is
everything that the relation reaches from it, the node itself included. A dependency need not be a
node of the store, so a closure may hold keys that cannot be fetched. Every closure is finite. An
acyclic closure carries an induction along dependencies: what follows for a node from its
dependencies holds of the whole closure.
-/

namespace Retained.Store

open Relation

variable {Value : Type}

/-- The nodes that a key lists as its dependencies; a key without a node lists none. -/
def depList (store : Store Value) (key : NodeKey) : List NodeKey :=
  match store.nodes[key]? with
  | some node => node.deps
  | none => []

/-- A key lists another one as a dependency. -/
def DependsOn (store : Store Value) (key dep : NodeKey) : Prop :=
  dep ∈ store.depList key

/-- A key needs another one, by one dependency or a chain of them. -/
abbrev Needs (store : Store Value) : NodeKey → NodeKey → Prop :=
  TransGen store.DependsOn

/-- The keys that some node lists as dependencies. -/
def listed (store : Store Value) : List NodeKey :=
  store.nodes.toList.flatMap fun (_, node) => node.deps

/-- Every dependency is listed by a node of the store. -/
theorem mem_listed {store : Store Value} {key dep : NodeKey} (depends : store.DependsOn key dep) :
    dep ∈ store.listed := by
  unfold DependsOn depList at depends
  split at depends
  · next node found =>
    have held : (key, node) ∈ store.nodes.toList :=
      Std.ExtTreeMap.mem_toList_iff_getElem?_eq_some.mpr found
    exact List.mem_flatMap.mpr ⟨(key, node), held, depends⟩
  · simp at depends

/-- Only finitely many keys are reached from a root. -/
theorem reached_finite (store : Store Value) (root : NodeKey) :
    {key | ReflTransGen store.DependsOn root key}.Finite := by
  refine (List.finite_toSet (root :: store.listed)).subset ?_
  intro key reached
  rcases ReflTransGen.cases_tail reached with same | ⟨_, _, depends⟩
  · exact List.mem_cons.mpr (Or.inl same)
  · exact List.mem_cons.mpr (Or.inr (mem_listed depends))

/-- The closure of a node: the node, its dependencies, their dependencies, and so on. -/
noncomputable def closure (store : Store Value) (root : NodeKey) : Finset NodeKey :=
  (store.reached_finite root).toFinset

/-- The closure holds exactly the keys that chains of dependencies reach. -/
@[simp] theorem mem_closure {store : Store Value} {root key : NodeKey} :
    key ∈ store.closure root ↔ ReflTransGen store.DependsOn root key := by
  simp [closure]

/-- A node is in its own closure. -/
theorem self_mem_closure (store : Store Value) (root : NodeKey) : root ∈ store.closure root :=
  mem_closure.mpr .refl

/-- The closure holds the dependencies of its members. -/
theorem dep_mem_closure {store : Store Value} {root key dep : NodeKey}
    (member : key ∈ store.closure root) (depends : store.DependsOn key dep) :
    dep ∈ store.closure root :=
  mem_closure.mpr ((mem_closure.mp member).tail depends)

/-- A member of a closure other than its root is needed by the root. -/
theorem mem_closure_iff_needs {store : Store Value} {root key : NodeKey} :
    key ∈ store.closure root ↔ key = root ∨ store.Needs root key := by
  rw [mem_closure, reflTransGen_iff_eq_or_transGen]

/-! ## Fetches -/

/-- Both fetches of a node succeed, with this value and these dependencies. -/
def Fetches (store : Store Value) (key : NodeKey) (value : Value) (deps : List NodeKey) : Prop :=
  store.value key = .ok (some value) ∧ store.deps key = .ok deps

/-- The value and the dependencies of a node can be fetched. -/
def Fetchable (store : Store Value) (key : NodeKey) : Prop :=
  ∃ value deps, store.Fetches key value deps

/-- Fetched dependencies are those that the node lists. -/
theorem deps_eq_depList {store : Store Value} {key : NodeKey} {deps : List NodeKey}
    (fetched : store.deps key = .ok deps) : deps = store.depList key := by
  unfold Store.deps at fetched
  unfold depList
  split at fetched
  · cases fetched
  · cases found : store.nodes[key]? with
    | none =>
      rw [found] at fetched
      cases fetched
    | some node =>
      rw [found] at fetched
      cases fetched
      rfl

/-- What a node depends on is what its fetch lists. -/
theorem Fetches.dependsOn {store : Store Value} {key dep : NodeKey} {value : Value}
    {deps : List NodeKey} (fetched : store.Fetches key value deps) :
    store.DependsOn key dep ↔ dep ∈ deps := by
  rw [deps_eq_depList fetched.2]
  rfl

/-- A node has one value. -/
theorem Fetches.value_eq {store : Store Value} {key : NodeKey} {value other : Value}
    {deps : List NodeKey} (fetched : store.Fetches key value deps)
    (again : store.value key = .ok (some other)) : other = value := by
  have same := again.symm.trans fetched.1
  simpa using same

/-- A node has one list of dependencies. -/
theorem Fetches.deps_eq {store : Store Value} {key : NodeKey} {value : Value}
    {deps others : List NodeKey} (fetched : store.Fetches key value deps)
    (again : store.deps key = .ok others) : others = deps :=
  Except.ok.inj (again.symm.trans fetched.2)

/-! ## Acyclic closures -/

/-- No node of the closure needs itself. -/
def Acyclic (store : Store Value) (root : NodeKey) : Prop :=
  ∀ key ∈ store.closure root, ¬ store.Needs key key

/-- In an acyclic closure, what a node inherits from its dependencies holds everywhere. -/
theorem Acyclic.induct {store : Store Value} {root : NodeKey} (acyclic : store.Acyclic root)
    {holds : NodeKey → Prop}
    (inherited : ∀ key ∈ store.closure root, (∀ dep, store.DependsOn key dep → holds dep) →
      holds key) : ∀ key ∈ store.closure root, holds key := by
  -- On a finite set a strict order is well-founded; acyclicity is what makes this one strict.
  let below (dep key : store.closure root) : Prop := store.Needs key.val dep.val
  have transitive : IsTrans (store.closure root) below := ⟨fun _ _ _ first second =>
    second.trans first⟩
  have irreflexive : Std.Irrefl below := ⟨fun key => acyclic key.val key.property⟩
  have wellFounded : WellFounded below := Finite.wellFounded_of_trans_of_irrefl below
  have all : ∀ key : store.closure root, holds key.val := by
    intro key
    induction key using wellFounded.induction with
    | h key earlier =>
      apply inherited key.val key.property
      intro dep depends
      exact earlier ⟨dep, dep_mem_closure key.property depends⟩ (.single depends)
  intro key member
  exact all ⟨key, member⟩

/-- A closure is acyclic if every dependency ranks below the node that lists it. -/
theorem acyclic_of_ranked {store : Store Value} (rank : NodeKey → Nat)
    (ranked : ∀ entry ∈ store.nodes.toList, ∀ dep ∈ entry.2.deps, rank dep < rank entry.1)
    (root : NodeKey) : store.Acyclic root := by
  have below : ∀ key dep, store.Needs key dep → rank dep < rank key := by
    have direct : ∀ key dep, store.DependsOn key dep → rank dep < rank key := by
      intro key dep depends
      unfold DependsOn depList at depends
      split at depends
      · next node found =>
        exact ranked (key, node)
          (Std.ExtTreeMap.mem_toList_iff_getElem?_eq_some.mpr found) dep depends
      · simp at depends
    intro key dep needs
    induction needs with
    | single depends => exact direct _ _ depends
    | tail _ depends less => exact (direct _ _ depends).trans less
  intro key _ needs
  exact Nat.lt_irrefl _ (below key key needs)

/-! ## Whole stores -/

/-- Nothing is amiss with a store: every fetch goes through, every dependency is held, and no node
depends on itself. -/
structure Whole (store : Store Value) : Prop where
  /-- No fetch is interrupted. -/
  free : store.interrupted = ∅
  /-- What nodes depend on is held. -/
  closed : ∀ key dep, store.DependsOn key dep → store.contains dep = true
  /-- No node needs itself. -/
  acyclic : ∀ key, ¬ store.Needs key key

/-- The closures of a whole store are acyclic. -/
theorem Whole.acyclic_closure {store : Store Value} (whole : store.Whole) (root : NodeKey) :
    store.Acyclic root :=
  fun key _ => whole.acyclic key

/-- A node that a whole store holds can be fetched. -/
theorem Whole.fetchable {store : Store Value} (whole : store.Whole) {key : NodeKey}
    (held : store.contains key = true) : store.Fetchable key := by
  rw [contains, Std.ExtTreeMap.contains_eq_isSome_getElem?, Option.isSome_iff_exists] at held
  obtain ⟨node, found⟩ := held
  have free : store.interrupted.contains key = false := by
    rw [whole.free]
    exact Std.ExtTreeSet.contains_empty
  refine ⟨node.value, node.deps, ?_, ?_⟩
  · rw [value, free, found]
    rfl
  · simp [deps, free, found]

/-- In the closure of a node that a whole store holds, every node can be fetched. -/
theorem Whole.closure_fetchable {store : Store Value} (whole : store.Whole) {root : NodeKey}
    (held : store.contains root = true) : ∀ key ∈ store.closure root, store.Fetchable key := by
  intro key member
  rcases ReflTransGen.cases_tail (mem_closure.mp member) with same | ⟨_, _, depends⟩
  · rw [same]
    exact whole.fetchable held
  · exact whole.fetchable (whole.closed _ _ depends)

end Retained.Store
