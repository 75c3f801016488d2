import Mathlib.Algebra.BigOperators.Group.Finset.Piecewise
import Mathlib.Data.List.Induction
import Mathlib.Data.List.TakeWhile
import Retained.Proofs.Store.History

/-!
# What a store tells of its history

A change acts on one node at most, and a store holds at a key what the changes of that key have made
there, one after the other (`getElem?_apply`). So what a store holds can be told from its history:
the value given to a node last, the dependencies requested of it since it was first added, and how
many of the requests were answered as new (`recounts_built`). Neighbouring changes of different
nodes may change places, and nothing that comes later can tell (`built_swap`).
-/

namespace Retained.Store

variable {Value : Type} {store : Store Value} {changes : List (Change Value)} {key : NodeKey}

/-! ## One change -/

namespace Change

/-- The node that a change acts on: of a dependency, the node that it starts from. -/
def key? : Change Value → Option NodeKey
  | addNode key _ => some key
  | addDep key _ => some key
  | setTarget _ => none
  | interruptOn key => some key

/-- What a change makes of the node that it acts on. -/
def effect : Change Value → Option (Node Value) → Option (Node Value)
  | addNode _ value, held => some { value, deps := (held.map Node.deps).getD [] }
  | addDep _ dep, held => held.map fun node =>
      if dep ∈ node.deps then node else { node with deps := node.deps ++ [dep] }
  | setTarget _, held => held
  | interruptOn _, held => held

/-- The value that a change gives to a node. -/
def valueOf? (key : NodeKey) : Change Value → Option Value
  | addNode other value => if other = key then some value else none
  | _ => none

/-- The dependency that a change requests of a node. -/
def depOf? (key : NodeKey) : Change Value → Option NodeKey
  | addDep other dep => if other = key then some dep else none
  | _ => none

/-- Two changes act on different nodes. -/
def Apart (first second : Change Value) : Prop :=
  ∃ key other, first.key? = some key ∧ second.key? = some other ∧ key ≠ other

end Change

/-- A change has its effect at its own key and leaves every other node as it is. -/
theorem getElem?_apply (store : Store Value) (change : Change Value) (key : NodeKey) :
    (store.apply change).nodes[key]? =
      if change.key? = some key then change.effect store.nodes[key]? else store.nodes[key]? := by
  cases change with
  | addNode other value =>
    rw [apply, getElem?_addNode]
    simp only [Change.key?, Option.some_inj, Change.effect]
    by_cases same : other = key
    · subst same
      rw [if_pos rfl, if_pos rfl, depList]
      cases store.nodes[other]? <;> rfl
    · rw [if_neg same, if_neg same]
  | addDep other dep =>
    rw [apply, getElem?_addDep]
    simp only [Change.key?, Option.some_inj, Change.effect]
    by_cases same : other = key
    · subst same
      rw [if_pos rfl, isNewDep]
      cases found : store.nodes[other]? with
      | none => simp
      | some node => by_cases known : dep ∈ node.deps <;> simp [known]
    · rw [if_neg same, if_neg fun both => same both.1]
  | setTarget configuration =>
    simp only [Change.key?, reduceCtorEq, if_false]
    rfl
  | interruptOn other =>
    rw [Change.effect, ite_self]
    rfl

/-- A change interrupts the fetches of a node if it says so, and leaves the others interrupted. -/
theorem mem_interrupted_apply (store : Store Value) (change : Change Value) (key : NodeKey) :
    key ∈ (store.apply change).interrupted ↔
      change = .interruptOn key ∨ key ∈ store.interrupted := by
  cases change with
  | addNode other value => simp [apply, addNode]
  | addDep other dep => simp [apply, (addDep_rest store other dep).2]
  | setTarget configuration => simp [apply, setTarget]
  | interruptOn other => simp [apply, interruptOn]

/-- A change of a node leaves the target configuration as it is. -/
theorem target_apply {change : Change Value} (acts : change.key? = some key) :
    (store.apply change).target = store.target := by
  cases change with
  | addNode other value => rfl
  | addDep other dep => exact (addDep_rest store other dep).1
  | setTarget configuration => cases acts
  | interruptOn other => rfl

/-! ## Changes in another order -/

/-- Stores are the same if they hold the same. -/
theorem eq_of_parts {left right : Store Value}
    (nodes : ∀ key : NodeKey, left.nodes[key]? = right.nodes[key]?)
    (target : left.target = right.target)
    (interrupted : ∀ key, key ∈ left.interrupted ↔ key ∈ right.interrupted) : left = right := by
  cases left
  cases right
  cases Std.ExtTreeMap.ext_getElem? nodes
  cases target
  cases Std.ExtTreeSet.ext_mem interrupted
  rfl

/-- Changes of different nodes make the same store in either order. -/
theorem apply_comm {first second : Change Value} (apart : first.Apart second) :
    (store.apply first).apply second = (store.apply second).apply first := by
  obtain ⟨key, other, isFirst, isSecond, different⟩ := apart
  apply eq_of_parts
  · intro held
    simp only [getElem?_apply, isFirst, isSecond, Option.some_inj]
    by_cases here : key = held
    · have notThere : other ≠ held := fun there => different (here.trans there.symm)
      rw [if_neg notThere, if_pos here, if_pos here, if_neg notThere]
    · rw [if_neg here, if_neg here]
  · rw [target_apply isSecond, target_apply isFirst, target_apply isFirst, target_apply isSecond]
  · intro held
    simp only [mem_interrupted_apply]
    exact or_left_comm

/-- The store after changes and one more. -/
theorem built_concat (changes : List (Change Value)) (change : Change Value) :
    built (changes ++ [change]) = (built changes).apply change := by
  simp only [built, List.foldl_append, List.foldl_cons, List.foldl_nil]

/-- Neighbouring changes of different nodes may change places. -/
theorem built_swap {before after : List (Change Value)} {first second : Change Value}
    (apart : first.Apart second) :
    built (before ++ first :: second :: after) = built (before ++ second :: first :: after) := by
  simp only [built, List.foldl_append, List.foldl_cons, apply_comm apart]

/-! ## Values and dependencies -/

/-- The values given to a node, in the order of the changes. -/
def settings (key : NodeKey) (changes : List (Change Value)) : List Value :=
  changes.filterMap (Change.valueOf? key)

/-- The dependencies requested of a node since it was first added, in the order of the changes. -/
def requested (key : NodeKey) (changes : List (Change Value)) : List NodeKey :=
  (changes.dropWhile fun change => (change.valueOf? key).isNone).filterMap (Change.depOf? key)

/-- One more change gives its value behind the others. -/
theorem settings_concat (key : NodeKey) (changes : List (Change Value)) (change : Change Value) :
    settings key (changes ++ [change]) = settings key changes ++ (change.valueOf? key).toList := by
  rw [settings, List.filterMap_append]
  cases given : change.valueOf? key <;> simp [given, settings]

/-- As long as a node is not added nothing is requested of it, nor by the change that adds it. -/
theorem requested_of_unset (unset : settings key changes = []) (change : Change Value) :
    requested key (changes ++ [change]) = [] := by
  have skipped : changes.dropWhile (fun change => (change.valueOf? key).isNone) = [] := by
    rw [settings, List.filterMap_eq_nil_iff] at unset
    exact List.dropWhile_eq_nil_iff.mpr fun change member =>
      Option.isNone_iff_eq_none.mpr (unset change member)
  simp only [requested, List.dropWhile_append, skipped, List.isEmpty_nil, if_true]
  cases change with
  | addNode other value =>
    by_cases same : other = key <;> simp [Change.valueOf?, Change.depOf?, same]
  | _ => rfl

/-- Once a node is added, one more change makes its request behind the others. -/
theorem requested_of_set (set : settings key changes ≠ []) (change : Change Value) :
    requested key (changes ++ [change]) = requested key changes ++ (change.depOf? key).toList := by
  have kept : changes.dropWhile (fun change => (change.valueOf? key).isNone) ≠ [] := by
    intro skipped
    rw [List.dropWhile_eq_nil_iff] at skipped
    exact set (List.filterMap_eq_nil_iff.mpr fun change member =>
      Option.isNone_iff_eq_none.mp (skipped change member))
  have filled := List.isEmpty_eq_false_iff.mpr kept
  simp only [requested, List.dropWhile_append, filled, Bool.false_eq_true, if_false,
    List.filterMap_append]
  cases dep : change.depOf? key <;> simp [dep]

/-- Without repetitions, one more is there if it is new. -/
theorem eraseDups_concat (list : List NodeKey) (last : NodeKey) :
    (list ++ [last]).eraseDups =
      if last ∈ list then list.eraseDups else list.eraseDups ++ [last] := by
  rw [List.eraseDups_append]
  by_cases known : last ∈ list <;> simp [known, List.removeAll, List.eraseDups_cons]

/-- Without repetitions, nothing is there twice. -/
theorem nodup_eraseDups (list : List NodeKey) : list.eraseDups.Nodup := by
  induction list using List.reverseRecOn with
  | nil => exact List.nodup_nil
  | append_singleton rest last further =>
    rw [eraseDups_concat]
    split
    · exact further
    · next fresh =>
      rw [← List.mem_eraseDups] at fresh
      rw [← List.concat_eq_append]
      exact further.concat fresh

/-- A store holds the value given to a node last, and the dependencies requested of it since it was
first added. -/
theorem node_built (key : NodeKey) (changes : List (Change Value)) :
    (built changes).nodes[key]? = (settings key changes).getLast?.map fun value =>
      { value, deps := (requested key changes).eraseDups } := by
  induction changes using List.reverseRecOn with
  | nil => rfl
  | append_singleton rest change further =>
    rw [built_concat, getElem?_apply, further, settings_concat]
    by_cases unset : settings key rest = []
    · rw [requested_of_unset unset, unset]
      cases change with
      | addNode other value =>
        by_cases same : other = key <;> simp [Change.key?, Change.effect, Change.valueOf?, same]
      | _ => simp [Change.key?, Change.effect, Change.valueOf?]
    · obtain ⟨last, isLast⟩ : ∃ last, (settings key rest).getLast? = some last :=
        ⟨_, List.getLast?_eq_some_getLast unset⟩
      rw [requested_of_set unset, isLast]
      cases change with
      | addNode other value =>
        by_cases same : other = key <;>
          simp [Change.key?, Change.effect, Change.valueOf?, Change.depOf?, isLast, same]
      | addDep other dep =>
        by_cases same : other = key
        · by_cases known : dep ∈ requested key rest <;>
            simp [Change.key?, Change.effect, Change.valueOf?, Change.depOf?, isLast, same,
              eraseDups_concat, known]
        · simp [Change.key?, Change.valueOf?, Change.depOf?, isLast, same]
      | _ => simp [Change.effect, Change.valueOf?, Change.depOf?, isLast]

/-- Nothing is requested of a node that is not added. -/
theorem requested_eq_nil (unset : settings key changes = []) : requested key changes = [] := by
  cases changes using List.reverseRecOn with
  | nil => rfl
  | append_singleton rest change =>
    rw [settings_concat, List.append_eq_nil_iff] at unset
    exact requested_of_unset unset.1 change

/-- The dependencies of a node are those requested since it was first added. -/
theorem depList_built (key : NodeKey) (changes : List (Change Value)) :
    (built changes).depList key = (requested key changes).eraseDups := by
  rw [depList, node_built]
  cases last : (settings key changes).getLast? with
  | none =>
    rw [requested_eq_nil (List.getLast?_eq_none_iff.mp last)]
    rfl
  | some value => rfl

/-- Fetches of a node are interrupted if a change has said so. -/
theorem mem_interrupted_built (changes : List (Change Value)) (key : NodeKey) :
    key ∈ (built changes).interrupted ↔ .interruptOn key ∈ changes := by
  induction changes using List.reverseRecOn with
  | nil => simp [built, empty]
  | append_singleton rest change further =>
    rw [built_concat, mem_interrupted_apply, further, List.mem_append, List.mem_singleton, or_comm]
    exact or_congr_right eq_comm

/-! ## Requests answered as new -/

/-- What a store answers to a change: whether it adds a dependency. -/
def accepts (store : Store Value) : Change Value → Bool
  | .addDep key dep => store.isNewDep key dep
  | _ => false

/-- The number of changes that a store answers as new dependencies, one after the other. -/
def accepted (store : Store Value) : List (Change Value) → Nat
  | [] => 0
  | change :: later => (store.accepts change).toNat + (store.apply change).accepted later

/-- A dependency is only new to a node that is held. -/
theorem contains_of_isNewDep {dep : NodeKey} (fresh : store.isNewDep key dep = true) :
    store.contains key = true := by
  rw [contains_iff]
  cases found : store.nodes[key]? with
  | none => simp [isNewDep, found] at fresh
  | some node => exact ⟨node, rfl⟩

/-- A new dependency makes the list of its node longer by one, and no other change makes a list
longer. -/
theorem length_depList_apply (store : Store Value) (change : Change Value) (key : NodeKey) :
    ((store.apply change).depList key).length =
      (store.depList key).length +
        if change.key? = some key then (store.accepts change).toNat else 0 := by
  cases change with
  | addNode other value => simp [apply, depList_addNode, accepts]
  | addDep other dep =>
    rw [apply, depList, getElem?_addDep, depList]
    simp only [Change.key?, Option.some_inj, accepts]
    by_cases same : other = key
    · subst same
      cases fresh : store.isNewDep other dep with
      | false => simp
      | true =>
        obtain ⟨node, found⟩ := contains_iff.mp (contains_of_isNewDep fresh)
        simp [found]
    · simp [same]
  | setTarget configuration => rfl
  | interruptOn other =>
    simp only [accepts, Bool.toNat_false, ite_self]
    rfl

/-- A change adds one dependency if it is answered as new, and none otherwise. -/
theorem edgeCount_apply (store : Store Value) (change : Change Value) :
    (store.apply change).edgeCount = store.edgeCount + (store.accepts change).toNat := by
  let scope := (store.apply change).keys.toFinset
  have after : ∀ key, (store.apply change).contains key = true → key ∈ scope := by
    intro key held
    rw [List.mem_toFinset, keys, Std.ExtTreeMap.mem_keys]
    exact Std.ExtTreeMap.contains_iff_mem.mp held
  have before : ∀ key, store.contains key = true → key ∈ scope := fun key held =>
    after key ((contains_apply change).mpr (Or.inr held))
  rw [edgeCount_eq_sum after, edgeCount_eq_sum before]
  simp only [length_depList_apply, Finset.sum_add_distrib, Nat.add_left_cancel_iff]
  cases answer : store.accepts change with
  | false => simp
  | true =>
    obtain ⟨key, dep, rfl⟩ : ∃ key dep, change = .addDep key dep := by
      cases change with
      | addDep key dep => exact ⟨key, dep, rfl⟩
      | _ => cases answer
    simp [Change.key?, before key (contains_of_isNewDep answer)]

/-- The dependencies of a store after changes are those before and those answered as new. -/
theorem edgeCount_foldl_apply (changes : List (Change Value)) :
    (changes.foldl apply store).edgeCount = store.edgeCount + store.accepted changes := by
  induction changes generalizing store with
  | nil => rfl
  | cons change later further =>
    rw [List.foldl_cons, further, edgeCount_apply, accepted, Nat.add_assoc]

/-! ## Histories -/

/-- What a store tells of its history. -/
structure Recounts (changes : List (Change Value)) (store : Store Value) : Prop where
  /-- The keys are those of the nodes added. -/
  keys : ∀ key, key ∈ store.keys ↔ ∃ value, .addNode key value ∈ changes
  /-- They are strictly ascending. -/
  ascending : store.keys.Pairwise fun left right => compare left right = .lt
  /-- The value of a node is the one given to it last, unless its fetches are interrupted. -/
  value : ∀ key, .interruptOn key ∉ changes → store.value key = .ok (settings key changes).getLast?
  /-- The dependencies of a node are those requested since it was first added, in the order of their
  first requests. -/
  requests : ∀ key, store.depList key = (requested key changes).eraseDups
  /-- No dependency is there twice. -/
  distinct : ∀ key, (store.depList key).Nodup
  /-- A fetch gives the dependencies of a node that was added, unless its fetches are
  interrupted. -/
  deps : ∀ key, .interruptOn key ∉ changes →
    store.deps key = if key ∈ store.keys then .ok (store.depList key) else .error (.notFound key)
  /-- The fetches of a node are interrupted if a change has said so. -/
  interrupted : ∀ key, .interruptOn key ∈ changes →
    store.value key = .error (.interrupted key) ∧ store.deps key = .error (.interrupted key)
  /-- There are as many dependencies as requests answered as new. -/
  edges : store.edgeCount = empty.accepted changes
  /-- The realized configurations are those of the configuration nodes added. -/
  configurations : ∀ configuration, configuration ∈ store.realizedConfigurations ↔
    ∃ value, .addNode (.buildConfiguration configuration) value ∈ changes
  /-- Their checksums are strictly ascending. -/
  checksums : store.realizedConfigurations.Pairwise fun left right => left.checksum < right.checksum

/-- A store tells of the changes that it was built by. -/
theorem recounts_built (changes : List (Change Value)) : Recounts changes (built changes) where
  keys key := by
    rw [← mem_added, ← contains_built, keys, Std.ExtTreeMap.mem_keys]
    exact Std.ExtTreeMap.contains_iff_mem.symm
  ascending := Std.ExtTreeMap.ordered_keys
  value key free := by
    rw [← mem_interrupted_built, ← Std.ExtTreeSet.contains_iff_mem] at free
    rw [value, if_neg free, node_built, Option.map_map]
    exact congrArg Except.ok (congrFun Option.map_id _)
  requests key := depList_built key changes
  distinct key := by
    rw [depList_built]
    exact nodup_eraseDups _
  deps key free := by
    rw [← mem_interrupted_built, ← Std.ExtTreeSet.contains_iff_mem] at free
    rw [deps, if_neg free, depList]
    have held : key ∈ (built changes).keys ↔ ∃ node, (built changes).nodes[key]? = some node := by
      rw [keys, Std.ExtTreeMap.mem_keys, ← Std.ExtTreeMap.contains_iff_mem]
      exact contains_iff
    cases found : (built changes).nodes[key]? with
    | none =>
      have notHeld : key ∉ (built changes).keys := by
        simp [held, found]
      rw [if_neg notHeld]
    | some node => rw [if_pos (held.mpr ⟨node, found⟩)]
  interrupted key isInterrupted := by
    rw [← mem_interrupted_built, ← Std.ExtTreeSet.contains_iff_mem] at isInterrupted
    rw [value, deps, if_pos isInterrupted, if_pos isInterrupted]
    exact ⟨rfl, rfl⟩
  edges := by
    have none : (empty : Store Value).edgeCount = 0 := rfl
    rw [built, edgeCount_foldl_apply, none, Nat.zero_add]
  configurations configuration := by
    rw [mem_realizedConfigurations, contains_built, mem_added]
  checksums := realizedConfigurations_ascending _

/-- **A store tells its history.** After any changes of an empty store its keys are those of the
nodes added, strictly ascending; a node has the value given to it last and, without repetition, the
dependencies requested of it since it was first added, in the order of their first requests; there
are as many dependencies as requests answered as new; the realized configurations are those of the
configuration nodes added, strictly ascending by checksum. Setting the value of a node leaves its
dependencies as they are. If two neighbouring changes act on different nodes, the store is the same
with the two in the other order, and so is whatever is asked of it later. -/
theorem history_told :
    (∀ changes : List (Change Value), Recounts changes (built changes)) ∧
    (∀ (changes : List (Change Value)) (key : NodeKey) (value : Value),
      (built (changes ++ [.addNode key value])).depList key = (built changes).depList key) ∧
    ∀ (before after : List (Change Value)) (first second : Change Value), first.Apart second →
      built (before ++ first :: second :: after) = built (before ++ second :: first :: after) := by
  refine ⟨recounts_built, ?_, fun _ _ _ _ => built_swap⟩
  intro changes key value
  rw [built_concat]
  exact depList_addNode _ _ _ _

/-- A dependency on a node may be requested before the node is added or afterwards. -/
theorem history_told_swap :
    (Change.addDep (.other "NODE" "upper") (.other "NODE" "lower")).Apart
        (.addNode (.other "NODE" "lower") 2) ∧
      built [.addNode (.other "NODE" "upper") 1,
          .addDep (.other "NODE" "upper") (.other "NODE" "lower"),
          .addNode (.other "NODE" "lower") 2] =
        built [.addNode (.other "NODE" "upper") 1, .addNode (.other "NODE" "lower") 2,
          .addDep (.other "NODE" "upper") (.other "NODE" "lower")] := by
  have apart : (Change.addDep (.other "NODE" "upper") (.other "NODE" "lower")).Apart
      (.addNode (.other "NODE" "lower") 2) :=
    ⟨_, _, rfl, rfl, by decide⟩
  exact ⟨apart, history_told.2.2 [.addNode (.other "NODE" "upper") 1] [] _ _ apart⟩

end Retained.Store
