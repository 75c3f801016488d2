import Retained.Proofs.Snapshot.Acyclic
import Retained.Proofs.Snapshot.Layout
import Retained.Proofs.Store.Build

/-!
# What loading accepts and refuses

Loading checks one thing after another. Each check refuses only defects of the snapshot, and
together they leave no room for a defect: a snapshot is loaded exactly if it is well-formed, and a
refusal names something that is wrong with it (`File.load_iff_wellFormed`). A store that is loaded
holds the nodes of the snapshot with their dependencies, and nothing else (`Loaded.Mirrors`).
-/

namespace Retained.Snapshot

open Relation

variable {file : File} {layout : Layout} {Value : Type}

/-- A store holds the nodes of some keys, with some dependencies and a target configuration, and
interrupts no fetch. -/
structure Holds (keys : List NodeKey) (depends : NodeKey → NodeKey → Prop)
    (target : Option ConfigurationKey) (store : Store Value) : Prop where
  /-- The nodes are those of the keys. -/
  held : ∀ key, store.contains key = true ↔ key ∈ keys
  /-- The dependencies are the given ones. -/
  linked : ∀ key dep, store.DependsOn key dep ↔ depends key dep
  /-- The target configuration is the given one. -/
  aimed : store.target = target
  /-- Every fetch goes through. -/
  free : store.interrupted = ∅

/-- The empty store holds nothing. -/
theorem holds_empty : Holds [] (fun _ _ => False) none (Store.empty : Store Value) where
  held key := by simp [Store.empty, Store.contains]
  linked key dep := by simp [Store.empty, Store.DependsOn, Store.depList]
  aimed := rfl
  free := rfl

/-- What a store holds may be said in other words. -/
theorem Holds.congr {keys : List NodeKey} {depends others : NodeKey → NodeKey → Prop}
    {target : Option ConfigurationKey} {store : Store Value}
    (holds : Holds keys depends target store) (same : ∀ key dep, depends key dep ↔ others key dep) :
    Holds keys others target store where
  held := holds.held
  linked key dep := (holds.linked key dep).trans (same key dep)
  aimed := holds.aimed
  free := holds.free

/-! ## Nodes -/

/-- A node is defined unless its key is defined already or its value has no place. -/
theorem define_meets {defect : Refusal → Prop} {keys : List NodeKey}
    {depends : NodeKey → NodeKey → Prop} {target : Option ConfigurationKey}
    {store : Store (Fin layout.draft.count)} {key : NodeKey} {value : UInt64}
    (holds : Holds keys depends target store)
    (twice : key ∈ keys → defect (.duplicateNode key))
    (unknown : layout.isPlaced value = false → defect (.unknownObject value)) :
    Meets defect (fun next => Holds (keys ++ [key]) depends target next ∧ key ∉ keys ∧
      layout.isPlaced value = true) (layout.define store key value) := by
  unfold Layout.define
  by_cases known : store.contains key = true
  · rw [if_pos known]
    exact twice ((holds.held key).mp known)
  · rw [if_neg known]
    have fresh : key ∉ keys := fun member => known ((holds.held key).mpr member)
    have found : Meets defect (fun place => layout.visits[value]? = some (.done place.val))
        (layout.place value) := by
      refine (layout.place_meets value).imp ?_ fun _ given => given
      intro refusal refused
      obtain ⟨rfl, unplaced⟩ := refused
      exact unknown unplaced
    refine found.bind ?_
    intro place given
    refine ⟨?_, fresh, Layout.isPlaced_iff.mpr ⟨place, given⟩⟩
    constructor
    case held =>
      intro other
      rw [Store.contains_addNode, holds.held, List.mem_append, List.mem_singleton, or_comm]
    case linked =>
      intro other dep
      rw [Store.DependsOn, Store.depList_addNode]
      exact holds.linked other dep
    case aimed => exact holds.aimed
    case free => exact holds.free

/-- A list of records is defined after the keys of the file that come before theirs. -/
theorem defineAll_meets {Record : Type} (keyOf : Record → NodeKey) (valueOf : Record → UInt64)
    {records : List Record} {before after : List NodeKey} {store : Store (Fin layout.draft.count)}
    (keys : file.keys = before ++ records.map keyOf ++ after)
    (mentioned : ∀ record ∈ records, file.Mentions (valueOf record))
    (placed : ∀ id, layout.isPlaced id = true ↔ id ∈ file.ids)
    (holds : Holds before (fun _ _ => False) none store) (distinct : before.Nodup) :
    Meets file.Defect
      (fun next => Holds (before ++ records.map keyOf) (fun _ _ => False) none next ∧
        (before ++ records.map keyOf).Nodup ∧ ∀ record ∈ records, valueOf record ∈ file.ids)
      (records.foldlM (fun store record => layout.define store (keyOf record) (valueOf record))
        store) := by
  refine foldlM_meets (fun seen store =>
    Holds (before ++ seen.map keyOf) (fun _ _ => False) none store ∧
      (before ++ seen.map keyOf).Nodup ∧ ∀ record ∈ seen, valueOf record ∈ file.ids)
    ⟨by simpa using holds, by simpa using distinct, by simp⟩ ?_
  intro seen record rest store split invariant
  obtain ⟨holds, distinct, known⟩ := invariant
  have among : record ∈ records := by
    rw [split]
    exact List.mem_append_right _ List.mem_cons_self
  have twice : keyOf record ∈ before ++ seen.map keyOf →
      file.Defect (.duplicateNode (keyOf record)) := by
    intro earlier
    have counted : 2 ≤ file.keys.count (keyOf record) := by
      have once := List.count_pos_iff.mpr earlier
      rw [keys, split, List.map_append, List.map_cons, ← List.append_assoc, List.count_append,
        List.count_append, List.count_cons_self]
      omega
    exact counted
  have unknown : layout.isPlaced (valueOf record) = false →
      file.Defect (.unknownObject (valueOf record)) := by
    intro unplaced
    refine ⟨mentioned record among, ?_⟩
    rw [← placed, unplaced]
    exact Bool.false_ne_true
  refine (define_meets holds twice unknown).imp (fun _ defect => defect) ?_
  intro next defined
  obtain ⟨holdsNext, fresh, isPlaced⟩ := defined
  rw [List.map_append, List.map_singleton, ← List.append_assoc]
  refine ⟨holdsNext, ?_, ?_⟩
  · rw [← List.concat_eq_append, List.nodup_concat]
    exact ⟨fresh, distinct⟩
  · intro other member
    rcases List.mem_append.mp member with old | new
    · exact known other old
    · rw [List.mem_singleton.mp new]
      exact (placed _).mp isPlaced

/-! ## Dependencies -/

/-- A dependency is linked unless it is not defined. -/
theorem link_meets {defect : Refusal → Prop} {keys : List NodeKey}
    {depends : NodeKey → NodeKey → Prop} {target : Option ConfigurationKey} {store : Store Value}
    {key dep : NodeKey} (holds : Holds keys depends target store) (known : key ∈ keys)
    (unknown : dep ∉ keys → defect (.unknownDependency key dep)) :
    Meets defect (fun next =>
      Holds keys (fun other needed => depends other needed ∨ other = key ∧ needed = dep) target
          next ∧
        dep ∈ keys) (link key store dep) := by
  unfold link
  by_cases defined : store.contains dep = true
  · rw [if_pos defined]
    refine ⟨?_, (holds.held dep).mp defined⟩
    constructor
    case held =>
      intro other
      rw [Store.contains_addDep]
      exact holds.held other
    case linked =>
      intro other needed
      rw [Store.dependsOn_addDep ((holds.held key).mpr known), holds.linked]
    case aimed => exact (store.addDep_rest key dep).1.trans holds.aimed
    case free => exact (store.addDep_rest key dep).2.trans holds.free
  · rw [if_neg defined]
    exact unknown fun member => defined ((holds.held dep).mpr member)

/-- The dependencies of one node are linked unless one of them is not defined. -/
theorem linkNode_meets {depends : NodeKey → NodeKey → Prop} {target : Option ConfigurationKey}
    {store : Store Value} {record : NodeRecord} (among : record ∈ file.nodes)
    (holds : Holds file.keys depends target store) :
    Meets file.Defect
      (fun next => Holds file.keys
        (fun key dep => depends key dep ∨ key = record.key ∧ dep ∈ record.deps) target next ∧
          ∀ dep ∈ record.deps, dep ∈ file.keys)
      (record.deps.foldlM (link record.key) store) := by
  have known : record.key ∈ file.keys :=
    List.mem_append_right _ (List.mem_map_of_mem among)
  refine foldlM_meets (fun seen store => Holds file.keys
    (fun key dep => depends key dep ∨ key = record.key ∧ dep ∈ seen) target store ∧
      ∀ dep ∈ seen, dep ∈ file.keys) ⟨holds.congr (by simp), by simp⟩ ?_
  intro seen dep rest store split invariant
  obtain ⟨holds, defined⟩ := invariant
  have unknown : dep ∉ file.keys → file.Defect (.unknownDependency record.key dep) := by
    intro absent
    refine ⟨⟨record, among, rfl, ?_⟩, absent⟩
    rw [split]
    exact List.mem_append_right _ List.mem_cons_self
  refine (link_meets holds known unknown).imp (fun _ defect => defect) ?_
  intro next linked
  refine ⟨linked.1.congr ?_, ?_⟩
  · intro key needed
    rw [List.mem_append, List.mem_singleton, and_or_left, or_assoc]
  · intro other member
    rcases List.mem_append.mp member with old | new
    · exact defined other old
    · rw [List.mem_singleton.mp new]
      exact linked.2

/-- The dependencies of all nodes are linked unless one of them is not defined. -/
theorem linkAll_meets {target : Option ConfigurationKey} {store : Store Value}
    (holds : Holds file.keys (fun _ _ => False) target store) :
    Meets file.Defect
      (fun next => Holds file.keys file.Depends target next ∧
        ∀ key dep, file.Depends key dep → dep ∈ file.keys)
      (file.nodes.foldlM (fun store record => record.deps.foldlM (link record.key) store)
        store) := by
  refine foldlM_meets (fun (seen : List NodeRecord) store =>
    Holds file.keys (fun key dep => ∃ record ∈ seen, record.key = key ∧ dep ∈ record.deps) target
        store ∧
      ∀ key dep, (∃ record ∈ seen, record.key = key ∧ dep ∈ record.deps) → dep ∈ file.keys)
    ⟨holds.congr (by simp), by simp⟩ ?_
  intro seen record rest store split invariant
  obtain ⟨holds, defined⟩ := invariant
  have among : record ∈ file.nodes := by
    rw [split]
    exact List.mem_append_right _ List.mem_cons_self
  have grown : ∀ key dep, (∃ other ∈ seen ++ [record], other.key = key ∧ dep ∈ other.deps) ↔
      (∃ other ∈ seen, other.key = key ∧ dep ∈ other.deps) ∨
        key = record.key ∧ dep ∈ record.deps := by
    intro key dep
    simp only [List.mem_append, List.mem_singleton, or_and_right, exists_or, exists_eq_left]
    rw [@eq_comm _ key]
  refine (linkNode_meets among holds).imp (fun _ defect => defect) ?_
  intro next linked
  refine ⟨linked.1.congr fun key dep => (grown key dep).symm, ?_⟩
  intro key dep depends
  rcases (grown key dep).mp depends with old | ⟨_, member⟩
  · exact defined key dep old
  · exact linked.2 dep member

/-! ## Loading -/

/-- The target configuration is set unless it is not defined. -/
theorem aim_meets {store : Store Value} (holds : Holds file.keys file.Depends none store) :
    Meets file.Defect
      (fun next =>
        Holds file.keys file.Depends (file.targetConfiguration.map ConfigurationKey.mk) next ∧
          ∀ checksum, file.targetConfiguration = some checksum →
            .buildConfiguration { checksum } ∈ file.keys)
      (aim store file.targetConfiguration) := by
  unfold aim
  cases target : file.targetConfiguration with
  | none => exact ⟨holds, nofun⟩
  | some checksum =>
    by_cases known : store.contains (.buildConfiguration { checksum }) = true
    · simp only [if_pos known]
      refine ⟨⟨holds.held, holds.linked, rfl, holds.free⟩, ?_⟩
      intro other same
      cases same
      exact (holds.held _).mp known
    · simp only [if_neg known]
      exact ⟨target, fun member => known ((holds.held _).mpr member)⟩

/-- The builtins root is found unless no object has its identifier. -/
theorem builtins_meets (placed : ∀ id, layout.isPlaced id = true ↔ id ∈ file.ids) :
    Meets file.Defect (fun _ => ∀ id, file.builtins = some id → id ∈ file.ids)
      (file.builtins.mapM layout.place) := by
  cases root : file.builtins with
  | none => exact nofun
  | some id =>
    have found : Meets file.Defect (fun _ => id ∈ file.ids) (layout.place id) := by
      refine (layout.place_meets id).imp ?_ ?_
      · intro refusal refused
        obtain ⟨rfl, unplaced⟩ := refused
        refine ⟨Or.inr (Or.inr (Or.inr root)), ?_⟩
        rw [← placed, unplaced]
        exact Bool.false_ne_true
      · intro place given
        exact (placed id).mp (Layout.isPlaced_iff.mpr ⟨place, given⟩)
    refine found.bind ?_
    intro place known other same
    cases same
    exact known

/-- A loaded store holds the nodes of a snapshot with their dependencies, and nothing else. -/
def Loaded.Mirrors (loaded : Loaded) (file : File) : Prop :=
  Holds file.keys file.Depends (file.targetConfiguration.map ConfigurationKey.mk) loaded.store

/-- Loading refuses only defects, and what it loads is well-formed and mirrored by the store. -/
theorem load_meets (file : File) :
    Meets file.Defect (fun loaded => file.WellFormed ∧ loaded.Mirrors file) file.load := by
  unfold File.load
  refine (ofRecords_meets file).bind ?_
  intro layout laidOut
  obtain ⟨distinct, placed, targets, grounded⟩ := laidOut
  have firstKeys : file.keys = [] ++
      file.configurations.map (fun record => .buildConfiguration record.key) ++
        file.nodes.map NodeRecord.key := rfl
  have firstValues : ∀ record ∈ file.configurations, file.Mentions record.value :=
    fun record member => Or.inr (Or.inl ⟨record, member, rfl⟩)
  refine (defineAll_meets _ _ firstKeys firstValues placed holds_empty List.nodup_nil).bind ?_
  intro store defined
  obtain ⟨holds, distinctFirst, knownFirst⟩ := defined
  have allKeys : file.keys =
      ([] ++ file.configurations.map fun record => .buildConfiguration record.key) ++
        file.nodes.map NodeRecord.key ++ [] := (List.append_nil _).symm
  have values : ∀ record ∈ file.nodes, file.Mentions record.value :=
    fun record member => Or.inr (Or.inr (Or.inl ⟨record, member, rfl⟩))
  refine (defineAll_meets _ _ allKeys values placed holds distinctFirst).bind ?_
  intro store defined
  obtain ⟨holds, single, known⟩ := defined
  refine (linkAll_meets holds).bind ?_
  intro store linked
  obtain ⟨holds, definedDeps⟩ := linked
  refine (checkAcyclic_meets (List.Nodup.of_append_right single)).bind ?_
  intro _ acyclic
  refine (aim_meets holds).bind ?_
  intro store aimed
  obtain ⟨mirrors, realized⟩ := aimed
  refine (builtins_meets placed).bind ?_
  intro builtins knownRoot
  refine ⟨⟨distinct, ?_, grounded, single, definedDeps, acyclic, realized⟩, mirrors⟩
  intro id mentioned
  rcases mentioned with ⟨other, refers⟩ | ⟨record, member, rfl⟩ | ⟨record, member, rfl⟩ | root
  · exact targets other id refers
  · exact knownFirst record member
  · exact known record member
  · exact knownRoot id root

/-- Nothing is amiss with a store that is loaded. -/
theorem load_whole (file : File) :
    Meets (fun _ => True) (fun loaded => loaded.store.Whole) file.load := by
  refine (load_meets file).imp (fun _ _ => trivial) ?_
  intro loaded loads
  obtain ⟨wellFormed, mirrors⟩ := loads
  constructor
  case free => exact mirrors.free
  case closed =>
    intro key dep depends
    exact (mirrors.held dep).mpr (wellFormed.defined key dep ((mirrors.linked key dep).mp depends))
  case acyclic =>
    intro key needs
    have depends : ∀ other dep, loaded.store.DependsOn other dep → file.Depends other dep :=
      fun other dep => (mirrors.linked other dep).mp
    exact wellFormed.acyclic key (TransGen.mono depends key key needs)

/-- A well-formed snapshot is loaded. -/
theorem File.WellFormed.loads (wellFormed : file.WellFormed) :
    ∃ loaded, file.load = .ok loaded := by
  cases result : file.load with
  | ok loaded => exact ⟨loaded, rfl⟩
  | error refusal =>
    have defect : file.Defect refusal := (load_meets file).error result
    exact absurd wellFormed defect.not_wellFormed

/-- **Loading accepts exactly the well-formed snapshots.** A snapshot is loaded exactly if its
identifiers are distinct, all that is referred to is there, its objects form no cycle, its keys are
distinct and its dependencies defined and without a cycle, and its target configuration is defined.
A refusal names a defect: an identifier given twice, one that is referred to and not given, one on a
cycle of references, a key defined twice, a dependency that is not defined, a node on a cycle of
dependencies, or a target configuration that is not defined. -/
theorem File.load_iff_wellFormed (file : File) :
    ((∃ loaded, file.load = .ok loaded) ↔ file.WellFormed) ∧
      ∀ refusal, file.load = .error refusal → file.Defect refusal := by
  refine ⟨⟨?_, File.WellFormed.loads⟩, ?_⟩
  · intro accepted
    obtain ⟨loaded, result⟩ := accepted
    exact ((load_meets file).ok result).1
  · intro refusal result
    exact (load_meets file).error result

/-! ## A small snapshot -/

/-- The node of a package of the main repository. -/
def mainPackage (path : String) : NodeKey :=
  .package { repository := "", path }

/-- Two objects, the second referring to the first, and two nodes that have them as values. The
upper node depends on the given nodes. -/
def File.pair (deps : List NodeKey) : File where
  objects := [
    { id := 0
      object := { className := "Leaf", category := .plain, shape := .instance 8, fields := [] } },
    { id := 1
      object := {
        className := "Holder", category := .plain, shape := .instance 16
        fields := [{ name := "leaf", target := 0, transient := false }] } }]
  nodes := [{ key := mainPackage "lower", value := 0, deps := [] },
    { key := mainPackage "upper", value := 1, deps }]
  configurations := []
  targetConfiguration := none
  builtins := some 0

/-- The pair is well-formed if its upper node depends on the lower one. -/
theorem File.pair_wellFormed : (File.pair [mainPackage "lower"]).WellFormed := by
  have refers : ∀ id target, (File.pair [mainPackage "lower"]).Refers id target →
      id = 1 ∧ target = 0 := by
    intro id target refers
    obtain ⟨record, member, same, among⟩ := refers
    simp only [File.pair, List.mem_cons, List.not_mem_nil, or_false] at member
    rcases member with rfl | rfl
    · simp [HeapObject.targets] at among
    · exact ⟨same.symm, by simpa [HeapObject.targets] using among⟩
  have depends : ∀ key dep, (File.pair [mainPackage "lower"]).Depends key dep →
      key = mainPackage "upper" ∧ dep = mainPackage "lower" := by
    intro key dep depends
    obtain ⟨record, member, same, among⟩ := depends
    simp only [File.pair, List.mem_cons, List.not_mem_nil, or_false] at member
    rcases member with rfl | rfl
    · cases among
    · exact ⟨same.symm, List.mem_singleton.mp among⟩
  constructor
  case distinct => decide
  case known =>
    intro id mentioned
    rcases mentioned with ⟨other, referred⟩ | ⟨record, member, same⟩ | ⟨record, member, same⟩ | root
    · rw [(refers other id referred).2]
      decide
    · cases member
    · rw [← same]
      simp only [File.pair, List.mem_cons, List.not_mem_nil, or_false] at member
      rcases member with rfl | rfl <;> decide
    · cases root
      decide
  case grounded =>
    intro id cycle
    obtain ⟨middle, first, _⟩ := TransGen.head'_iff.mp cycle
    obtain ⟨last, _, final⟩ := TransGen.tail'_iff.mp cycle
    have upper := (refers id middle first).1
    rw [(refers last id final).2] at upper
    cases upper
  case single => decide
  case defined =>
    intro key dep listed
    rw [(depends key dep listed).2]
    decide
  case acyclic =>
    intro key cycle
    obtain ⟨middle, first, _⟩ := TransGen.head'_iff.mp cycle
    obtain ⟨last, _, final⟩ := TransGen.tail'_iff.mp cycle
    have upper := (depends key middle first).1
    rw [(depends last key final).2] at upper
    exact absurd upper (by decide)
  case realized =>
    intro checksum isTarget
    cases isTarget

/-- The pair is loaded if its upper node depends on the lower one, and not if it depends on
itself. -/
theorem File.load_iff_wellFormed_pair :
    (∃ loaded, (File.pair [mainPackage "lower"]).load = .ok loaded) ∧
      ∀ loaded, (File.pair [mainPackage "upper"]).load ≠ .ok loaded := by
  refine ⟨(File.load_iff_wellFormed _).1.mpr File.pair_wellFormed, ?_⟩
  intro loaded accepted
  have wellFormed := (File.load_iff_wellFormed _).1.mp ⟨loaded, accepted⟩
  refine wellFormed.acyclic (mainPackage "upper") (.single ?_)
  exact ⟨_, List.mem_cons_of_mem _ List.mem_cons_self, rfl, List.mem_cons_self⟩

end Retained.Snapshot
