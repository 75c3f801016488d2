import Mathlib.Algebra.BigOperators.Group.Finset.Basic
import Retained.Proofs.Store.Closure

/-!
# Stores under construction

Adding a node makes its key held and leaves every dependency as it is. Adding a dependency to a node
that is held makes just that dependency, and adds no node. The dependencies that a store counts are
those that its nodes list.
-/

namespace Retained.Store

variable {Value : Type} {store : Store Value} {key dep other : NodeKey} {value : Value}

/-- What a store holds at a key. -/
theorem contains_iff : store.contains key = true ↔ ∃ node, store.nodes[key]? = some node := by
  rw [contains, Std.ExtTreeMap.contains_eq_isSome_getElem?, Option.isSome_iff_exists]

/-- The nodes after one is added. -/
theorem getElem?_addNode (store : Store Value) (key other : NodeKey) (value : Value) :
    (store.addNode key value).nodes[other]? =
      if key = other then some { value, deps := store.depList key } else store.nodes[other]? := by
  rw [addNode, Std.ExtTreeMap.getElem?_alter]
  by_cases same : key = other
  · rw [if_pos (Std.compare_eq_iff_eq.mpr same), if_pos same, depList]
    cases store.nodes[key]? <;> rfl
  · rw [if_neg fun equal => same (Std.compare_eq_iff_eq.mp equal), if_neg same]

/-- A store holds the node added and those that it held before. -/
theorem contains_addNode :
    (store.addNode key value).contains other = true ↔
      other = key ∨ store.contains other = true := by
  rw [contains_iff, contains_iff, getElem?_addNode]
  by_cases same : key = other
  · rw [if_pos same]
    exact iff_of_true ⟨_, rfl⟩ (Or.inl same.symm)
  · rw [if_neg same]
    exact ⟨Or.inr, fun either => either.resolve_left (Ne.symm same)⟩

/-- Adding a node leaves the dependencies as they are. -/
theorem depList_addNode (store : Store Value) (key other : NodeKey) (value : Value) :
    (store.addNode key value).depList other = store.depList other := by
  by_cases same : key = other
  · rw [← same]
    conv_lhs => rw [depList, getElem?_addNode, if_pos rfl]
  · unfold depList
    rw [getElem?_addNode, if_neg same]

/-- The nodes after a dependency is added. -/
theorem getElem?_addDep (store : Store Value) (key dep other : NodeKey) :
    (store.addDep key dep).nodes[other]? =
      if key = other ∧ store.isNewDep key dep = true then
        store.nodes[other]?.map fun node => { node with deps := node.deps ++ [dep] }
      else store.nodes[other]? := by
  unfold addDep
  by_cases fresh : store.isNewDep key dep = true
  · rw [if_pos fresh, Std.ExtTreeMap.getElem?_modify]
    by_cases same : key = other
    · rw [if_pos (Std.compare_eq_iff_eq.mpr same), if_pos ⟨same, fresh⟩, same]
    · rw [if_neg fun equal => same (Std.compare_eq_iff_eq.mp equal), if_neg fun both => same both.1]
  · rw [if_neg fresh, if_neg fun both => fresh both.2]

/-- Adding a dependency adds no node. -/
theorem contains_addDep (store : Store Value) (key dep other : NodeKey) :
    (store.addDep key dep).contains other = store.contains other := by
  rw [Bool.eq_iff_iff, contains_iff, contains_iff, getElem?_addDep]
  split
  · simp
  · rfl

/-- A node that is held depends on what it did before and on the dependency added. -/
theorem dependsOn_addDep (held : store.contains key = true) {target : NodeKey} :
    (store.addDep key dep).DependsOn other target ↔
      store.DependsOn other target ∨ other = key ∧ target = dep := by
  obtain ⟨node, found⟩ := contains_iff.mp held
  unfold DependsOn
  by_cases same : key = other
  · subst same
    have listed : store.depList key = node.deps := by rw [depList, found]
    have added : (store.addDep key dep).depList key =
        if store.isNewDep key dep = true then node.deps ++ [dep] else node.deps := by
      rw [depList, getElem?_addDep, found]
      by_cases fresh : store.isNewDep key dep = true
      · rw [if_pos ⟨rfl, fresh⟩, if_pos fresh]
        rfl
      · rw [if_neg fun both => fresh both.2, if_neg fresh]
    rw [added, listed]
    by_cases fresh : store.isNewDep key dep = true
    · simp [fresh]
    · have known : dep ∈ node.deps := by simpa [isNewDep, found] using fresh
      rw [if_neg fresh]
      constructor
      · exact Or.inl
      · intro either
        rcases either with before | ⟨_, isDep⟩
        · exact before
        · rw [isDep]
          exact known
  · have unchanged : (store.addDep key dep).depList other = store.depList other := by
      rw [depList, getElem?_addDep, if_neg fun both => same both.1, depList]
    rw [unchanged]
    exact ⟨Or.inl, fun either => either.resolve_right fun both => same both.1.symm⟩

/-- Adding a dependency touches neither the target configuration nor the interrupted nodes. -/
theorem addDep_rest (store : Store Value) (key dep : NodeKey) :
    (store.addDep key dep).target = store.target ∧
      (store.addDep key dep).interrupted = store.interrupted := by
  unfold addDep
  split <;> exact ⟨rfl, rfl⟩

/-! ## Dependencies in their order -/

/-- A store has the nodes of another one, with the dependencies that are wanted, in order and
without repetition. -/
def Linked (start : Store Value) (wanted : NodeKey → List NodeKey) (store : Store Value) : Prop :=
  ∀ key : NodeKey, store.nodes[key]? =
    start.nodes[key]?.map fun node => { node with deps := (wanted key).eraseDups }

/-- A dependency that is added is wanted behind the others. -/
theorem Linked.addDep {start : Store Value} {wanted : NodeKey → List NodeKey}
    (linked : start.Linked wanted store) (key dep : NodeKey) :
    start.Linked (Function.update wanted key (wanted key ++ [dep])) (store.addDep key dep) := by
  intro other
  rw [getElem?_addDep]
  by_cases same : key = other
  · subst same
    rw [Function.update_self, List.eraseDups_append]
    cases held : start.nodes[key]? with
    | none =>
      have missing : store.nodes[key]? = none := by rw [linked, held, Option.map_none]
      rw [missing]
      simp
    | some node =>
      have found : store.nodes[key]? = some { node with deps := (wanted key).eraseDups } := by
        rw [linked, held, Option.map_some]
      by_cases known : dep ∈ wanted key
      · simp [isNewDep, found, known, List.removeAll]
      · simp [isNewDep, found, known, List.removeAll, List.eraseDups_cons]
  · rw [if_neg fun both => same both.1, Function.update_of_ne (Ne.symm same)]
    exact linked other

/-! ## Counting dependencies -/

/-- The dependencies that a store counts are those of its nodes, whatever other keys are looked
at. -/
theorem edgeCount_eq_sum {scope : Finset NodeKey}
    (covers : ∀ key, store.contains key = true → key ∈ scope) :
    store.edgeCount = ∑ key ∈ scope, (store.depList key).length := by
  have entries : store.keys.map (fun key => (store.depList key).length) =
      store.nodes.toList.map fun entry => entry.2.deps.length := by
    rw [keys, ← Std.ExtTreeMap.map_fst_toList_eq_keys, List.map_map]
    refine List.map_congr_left ?_
    intro entry member
    have found : store.nodes[entry.1]? = some entry.2 :=
      Std.ExtTreeMap.mem_toList_iff_getElem?_eq_some.mp member
    simp only [Function.comp, depList, found]
  have inside : store.keys.toFinset ⊆ scope := by
    intro key member
    rw [List.mem_toFinset, keys, Std.ExtTreeMap.mem_keys] at member
    exact covers key (Std.ExtTreeMap.contains_iff_mem.mpr member)
  have outside : ∀ key ∈ scope, key ∉ store.keys.toFinset → (store.depList key).length = 0 := by
    intro key _ notHeld
    rw [List.mem_toFinset, keys, Std.ExtTreeMap.mem_keys, ← Std.ExtTreeMap.contains_iff_mem,
      ← contains, contains_iff] at notHeld
    have missing : store.nodes[key]? = none :=
      Option.eq_none_iff_forall_ne_some.mpr fun node found => notHeld ⟨node, found⟩
    rw [depList, missing]
    rfl
  calc store.edgeCount = (store.keys.map fun key => (store.depList key).length).sum := by
        rw [entries]
        rfl
    _ = ∑ key ∈ store.keys.toFinset, (store.depList key).length :=
        (List.sum_toFinset _ Std.ExtTreeMap.nodup_keys).symm
    _ = ∑ key ∈ scope, (store.depList key).length := Finset.sum_subset inside outside

/-! ## Configurations -/

/-- The realized configurations are those whose nodes the store holds. -/
theorem mem_realizedConfigurations {configuration : ConfigurationKey} :
    configuration ∈ store.realizedConfigurations ↔
      store.contains (.buildConfiguration configuration) = true := by
  have holds : ∀ key : NodeKey, key.configuration? = some configuration ↔
      key = .buildConfiguration configuration := by
    intro key
    cases key <;> simp [NodeKey.configuration?]
  simp only [realizedConfigurations, List.mem_filterMap, holds, exists_eq_right, keys,
    Std.ExtTreeMap.mem_keys, contains, Std.ExtTreeMap.contains_iff_mem]

/-- The realized configurations are in the ascending order of their checksums. -/
theorem realizedConfigurations_ascending (store : Store Value) :
    store.realizedConfigurations.Pairwise fun first second => first.checksum < second.checksum := by
  refine List.Pairwise.filterMap _ ?_ Std.ExtTreeMap.ordered_keys
  intro left right less first isFirst second isSecond
  cases left <;> cases isFirst
  cases right <;> cases isSecond
  have members : compare [first.checksum] [second.checksum] = .lt := less
  have checksums : compare first.checksum second.checksum = .lt := by
    simpa [List.compare_cons_cons] using members
  exact compareOfLessAndEq_eq_lt.mp checksums

end Retained.Store
