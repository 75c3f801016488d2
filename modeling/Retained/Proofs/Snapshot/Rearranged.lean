import Mathlib.Data.Multiset.Basic
import Mathlib.Data.Set.Function
import Retained.Cli
import Retained.Proofs.Dump.Rearranged
import Retained.Proofs.Snapshot.Faithful

/-!
# Rearranged snapshots

The records of a snapshot may be listed in another order, dependencies included, and its objects may
be numbered otherwise. Loading then searches, places and links in another order. Whether a snapshot
is well-formed does not depend on any of this, and what is loaded is the same graph with its objects
at other places, so dumps cannot tell the two apart (`File.load_rearranged`).
-/

namespace Retained.Snapshot

open Relation

variable {name : UInt64 → UInt64} {file other : File} {id target : UInt64} {key dep : NodeKey}

/-! ## What is said again -/

/-- The same object under another identifier, with the identifiers in its fields replaced. -/
def ObjectRecord.rename (name : UInt64 → UInt64) (record : ObjectRecord) : ObjectRecord :=
  { id := name record.id, object := record.object.map name }

/-- What the record of a node says with its value under another identifier, whatever the order of
the dependencies. -/
def NodeRecord.contents (name : UInt64 → UInt64) (record : NodeRecord) :
    NodeKey × UInt64 × Multiset NodeKey :=
  (record.key, name record.value, record.deps)

/-- The same configuration with its value under another identifier. -/
def ConfigurationRecord.rename (name : UInt64 → UInt64) (record : ConfigurationRecord) :
    ConfigurationRecord :=
  { record with value := name record.value }

namespace File

/-- A file says the same as another with objects under other identifiers, its objects, nodes,
configurations and dependencies in any order. -/
structure Rearranged (name : UInt64 → UInt64) (file other : File) : Prop where
  /-- The objects are the same under their new identifiers. -/
  objects : (file.objects.map (ObjectRecord.rename name)).Perm other.objects
  /-- The nodes are the same, each with the same dependencies. -/
  nodes : (file.nodes.map (NodeRecord.contents name)).Perm
    (other.nodes.map (NodeRecord.contents fun id => id))
  /-- The configurations are the same. -/
  configurations : (file.configurations.map (ConfigurationRecord.rename name)).Perm
    other.configurations
  /-- The target configuration is the same. -/
  targetConfiguration : other.targetConfiguration = file.targetConfiguration
  /-- The builtins root is the same. -/
  builtins : other.builtins = file.builtins.map name

/-- The identifiers of a file: those of its objects, and those that it refers to. -/
def Uses (file : File) (id : UInt64) : Prop :=
  id ∈ file.ids ∨ file.Mentions id

/-- What refers to something and what is referred to are identifiers of the file. -/
theorem Refers.uses (refers : file.Refers id target) : file.Uses id ∧ file.Uses target := by
  have mentioned : file.Mentions target := Or.inl ⟨id, refers⟩
  obtain ⟨record, member, rfl, _⟩ := refers
  exact ⟨Or.inl (List.mem_map_of_mem member), Or.inr mentioned⟩

end File

/-- A record says of a node what another one says, with its value under another identifier. -/
structure NodeRecord.Restated (name : UInt64 → UInt64) (record twin : NodeRecord) : Prop where
  /-- The key is the same. -/
  key : twin.key = record.key
  /-- The value is the same. -/
  value : twin.value = name record.value
  /-- The dependencies are the same. -/
  deps : ∀ dep, dep ∈ twin.deps ↔ dep ∈ record.deps

/-- Records with the same contents say the same. -/
theorem NodeRecord.restated_of_contents {record twin : NodeRecord}
    (same : twin.contents (fun id => id) = record.contents name) : record.Restated name twin := by
  simp only [contents, Prod.mk.injEq, Multiset.coe_eq_coe] at same
  exact ⟨same.1, same.2.1, fun _ => same.2.2.mem_iff⟩

namespace File.Rearranged

/-- The identifiers of the objects are the new ones. -/
theorem ids (rearranged : file.Rearranged name other) : (file.ids.map name).Perm other.ids := by
  have named : ObjectRecord.id ∘ ObjectRecord.rename name = name ∘ ObjectRecord.id := rfl
  have perm := rearranged.objects.map ObjectRecord.id
  rw [List.map_map, named, ← List.map_map] at perm
  exact perm

/-- An identifier is that of an object if it is the new one of an object. -/
theorem mem_ids (rearranged : file.Rearranged name other) :
    id ∈ other.ids ↔ ∃ old ∈ file.ids, name old = id := by
  rw [← rearranged.ids.mem_iff, List.mem_map]

/-- An object is there if it was there under its old identifier. -/
theorem mem_objects (rearranged : file.Rearranged name other) {record : ObjectRecord} :
    record ∈ other.objects ↔ ∃ old ∈ file.objects, old.rename name = record := by
  rw [← rearranged.objects.mem_iff, List.mem_map]

/-- A configuration is there if it was there with the old identifier of its value. -/
theorem mem_configurations (rearranged : file.Rearranged name other)
    {record : ConfigurationRecord} :
    record ∈ other.configurations ↔ ∃ old ∈ file.configurations, old.rename name = record := by
  rw [← rearranged.configurations.mem_iff, List.mem_map]

/-- Every node is said again. -/
theorem restated (rearranged : file.Rearranged name other) {record : NodeRecord}
    (member : record ∈ file.nodes) : ∃ twin ∈ other.nodes, record.Restated name twin := by
  have there := rearranged.nodes.mem_iff.mp (List.mem_map_of_mem member)
  obtain ⟨twin, listed, same⟩ := List.mem_map.mp there
  exact ⟨twin, listed, NodeRecord.restated_of_contents same⟩

/-- Every node was said before. -/
theorem original (rearranged : file.Rearranged name other) {twin : NodeRecord}
    (member : twin ∈ other.nodes) : ∃ record ∈ file.nodes, record.Restated name twin := by
  have here := rearranged.nodes.mem_iff.mpr (List.mem_map_of_mem member)
  obtain ⟨record, listed, same⟩ := List.mem_map.mp here
  exact ⟨record, listed, NodeRecord.restated_of_contents same.symm⟩

/-- The keys are the same. -/
theorem keys (rearranged : file.Rearranged name other) : file.keys.Perm other.keys := by
  have configurations := rearranged.configurations.map fun record =>
    NodeKey.buildConfiguration record.key
  have nodes := rearranged.nodes.map Prod.fst
  rw [List.map_map] at configurations
  rw [List.map_map, List.map_map] at nodes
  exact configurations.append nodes

/-! ## Well-formed files -/

/-- The dependencies are the same. -/
theorem depends_iff (rearranged : file.Rearranged name other) :
    other.Depends key dep ↔ file.Depends key dep := by
  constructor
  · intro depends
    obtain ⟨twin, member, rfl, listed⟩ := depends
    obtain ⟨record, original, same⟩ := rearranged.original member
    exact ⟨record, original, same.key.symm, (same.deps dep).mp listed⟩
  · intro depends
    obtain ⟨record, member, rfl, listed⟩ := depends
    obtain ⟨twin, restated, same⟩ := rearranged.restated member
    exact ⟨twin, restated, same.key, (same.deps dep).mpr listed⟩

/-- An object refers to another under the new identifiers if it did under the old ones. -/
theorem refers_iff (rearranged : file.Rearranged name other) :
    other.Refers id target ↔
      ∃ old oldTarget, name old = id ∧ name oldTarget = target ∧ file.Refers old oldTarget := by
  constructor
  · intro refers
    obtain ⟨record, member, rfl, among⟩ := refers
    obtain ⟨old, original, rfl⟩ := rearranged.mem_objects.mp member
    have renamed : target ∈ old.object.targets.map name := by
      rw [← HeapObject.targets_map]
      exact among
    obtain ⟨oldTarget, listed, rfl⟩ := List.mem_map.mp renamed
    exact ⟨old.id, oldTarget, rfl, rfl, old, original, rfl, listed⟩
  · intro refers
    obtain ⟨_, oldTarget, rfl, rfl, record, member, rfl, among⟩ := refers
    refine ⟨record.rename name, rearranged.mem_objects.mpr ⟨record, member, rfl⟩, rfl, ?_⟩
    change name oldTarget ∈ (record.object.map name).targets
    rw [HeapObject.targets_map]
    exact List.mem_map_of_mem among

/-- A new identifier is referred to if it is that of an old one that was. -/
theorem mentions_iff (rearranged : file.Rearranged name other) :
    other.Mentions id ↔ ∃ old, name old = id ∧ file.Mentions old := by
  constructor
  · intro mentioned
    rcases mentioned with ⟨origin, refers⟩ | ⟨record, member, rfl⟩ | ⟨twin, member, rfl⟩ | root
    · obtain ⟨old, oldTarget, _, isTarget, before⟩ := rearranged.refers_iff.mp refers
      exact ⟨oldTarget, isTarget, Or.inl ⟨old, before⟩⟩
    · obtain ⟨old, original, rfl⟩ := rearranged.mem_configurations.mp member
      exact ⟨old.value, rfl, Or.inr (Or.inl ⟨old, original, rfl⟩)⟩
    · obtain ⟨record, original, same⟩ := rearranged.original member
      exact ⟨record.value, same.value.symm, Or.inr (Or.inr (Or.inl ⟨record, original, rfl⟩))⟩
    · rw [rearranged.builtins] at root
      obtain ⟨old, isRoot, renamed⟩ := Option.map_eq_some_iff.mp root
      exact ⟨old, renamed, Or.inr (Or.inr (Or.inr isRoot))⟩
  · intro mentioned
    obtain ⟨old, rfl, before⟩ := mentioned
    rcases before with ⟨origin, refers⟩ | ⟨record, member, rfl⟩ | ⟨record, member, rfl⟩ | root
    · exact Or.inl ⟨name origin, rearranged.refers_iff.mpr ⟨origin, old, rfl, rfl, refers⟩⟩
    · exact Or.inr (Or.inl ⟨record.rename name,
        rearranged.mem_configurations.mpr ⟨record, member, rfl⟩, rfl⟩)
    · obtain ⟨twin, restated, same⟩ := rearranged.restated member
      exact Or.inr (Or.inr (Or.inl ⟨twin, restated, same.value⟩))
    · refine Or.inr (Or.inr (Or.inr ?_))
      rw [rearranged.builtins, root, Option.map_some]

/-- A chain of references between new identifiers is one between old ones, if no two identifiers are
given the same new one. -/
theorem chain (rearranged : file.Rearranged name other) (apart : Set.InjOn name {id | file.Uses id})
    (chain : TransGen other.Refers id target) :
    ∃ old oldTarget, name old = id ∧ name oldTarget = target ∧
      TransGen file.Refers old oldTarget := by
  induction chain with
  | single refers =>
    obtain ⟨old, oldTarget, isOld, isTarget, before⟩ := rearranged.refers_iff.mp refers
    exact ⟨old, oldTarget, isOld, isTarget, .single before⟩
  | tail _ refers earlier =>
    obtain ⟨old, oldMiddle, isOld, isMiddle, before⟩ := earlier
    obtain ⟨middle, oldTarget, again, isTarget, last⟩ := rearranged.refers_iff.mp refers
    obtain ⟨_, _, lastBefore⟩ := TransGen.tail'_iff.mp before
    have same : oldMiddle = middle :=
      apart lastBefore.uses.2 last.uses.1 (isMiddle.trans again.symm)
    rw [same] at before
    exact ⟨old, oldTarget, isOld, isTarget, before.tail last⟩

/-- Nodes depend on the same nodes. -/
theorem depends_eq (rearranged : file.Rearranged name other) : file.Depends = other.Depends := by
  funext key dep
  exact propext rearranged.depends_iff.symm

/-- A rearrangement of a well-formed file is well-formed. -/
theorem wellFormed (rearranged : file.Rearranged name other)
    (apart : Set.InjOn name {id | file.Uses id}) (wellFormed : file.WellFormed) :
    other.WellFormed := by
  constructor
  case distinct =>
    rw [← rearranged.ids.nodup_iff]
    refine wellFormed.distinct.map_on ?_
    intro first isFirst second isSecond same
    exact apart (Or.inl isFirst) (Or.inl isSecond) same
  case known =>
    intro id mentioned
    obtain ⟨old, rfl, before⟩ := rearranged.mentions_iff.mp mentioned
    exact rearranged.mem_ids.mpr ⟨old, wellFormed.known old before, rfl⟩
  case grounded =>
    intro id cycle
    obtain ⟨old, oldTarget, isOld, isTarget, before⟩ := rearranged.chain apart cycle
    obtain ⟨_, first, _⟩ := TransGen.head'_iff.mp before
    obtain ⟨_, _, last⟩ := TransGen.tail'_iff.mp before
    have same : old = oldTarget := apart first.uses.1 last.uses.2 (isOld.trans isTarget.symm)
    rw [← same] at before
    exact wellFormed.grounded old before
  case single => exact rearranged.keys.nodup_iff.mp wellFormed.single
  case defined =>
    intro key dep listed
    rw [← rearranged.depends_eq] at listed
    exact rearranged.keys.mem_iff.mp (wellFormed.defined key dep listed)
  case acyclic =>
    rw [← rearranged.depends_eq]
    exact wellFormed.acyclic
  case realized =>
    intro checksum isTarget
    rw [rearranged.targetConfiguration] at isTarget
    exact rearranged.keys.mem_iff.mp (wellFormed.realized checksum isTarget)

/-- A file with a well-formed rearrangement is well-formed. -/
theorem wellFormed_of (rearranged : file.Rearranged name other)
    (apart : Set.InjOn name {id | file.Uses id}) (wellFormed : other.WellFormed) :
    file.WellFormed := by
  constructor
  case distinct => exact (rearranged.ids.nodup_iff.mpr wellFormed.distinct).of_map
  case known =>
    intro id mentioned
    have there := wellFormed.known (name id) (rearranged.mentions_iff.mpr ⟨id, rfl, mentioned⟩)
    obtain ⟨old, member, same⟩ := rearranged.mem_ids.mp there
    rw [← apart (Or.inl member) (Or.inr mentioned) same]
    exact member
  case grounded =>
    intro id cycle
    have renamed : file.Refers ≤ Function.onFun other.Refers name := fun old oldTarget refers =>
      rearranged.refers_iff.mpr ⟨old, oldTarget, rfl, rfl, refers⟩
    exact wellFormed.grounded (name id) (TransGen.lift name renamed id id cycle)
  case single => exact rearranged.keys.nodup_iff.mpr wellFormed.single
  case defined =>
    intro key dep listed
    rw [rearranged.depends_eq] at listed
    exact rearranged.keys.mem_iff.mpr (wellFormed.defined key dep listed)
  case acyclic =>
    rw [rearranged.depends_eq]
    exact wellFormed.acyclic
  case realized =>
    intro checksum isTarget
    rw [← rearranged.targetConfiguration] at isTarget
    exact rearranged.keys.mem_iff.mpr (wellFormed.realized checksum isTarget)

/-! ## Loaded files -/

/-- Every definition is restated. -/
theorem definition (rearranged : file.Rearranged name other) {record : NodeRecord}
    (member : record ∈ file.definitions) :
    ∃ twin ∈ other.definitions, record.Restated name twin := by
  rcases List.mem_append.mp member with configured | listed
  · obtain ⟨configuration, among, rfl⟩ := List.mem_map.mp configured
    have there := rearranged.mem_configurations.mpr ⟨configuration, among, rfl⟩
    exact ⟨(configuration.rename name).definition,
      List.mem_append_left _ (List.mem_map_of_mem there), ⟨rfl, rfl, fun _ => Iff.rfl⟩⟩
  · obtain ⟨twin, restated, same⟩ := rearranged.restated listed
    exact ⟨twin, List.mem_append_right _ restated, same⟩

end File.Rearranged

/-- Standard measurers look at what objects hold, not at what they refer to. -/
theorem measure_standard {Ref Place : Type} (place : Ref → Place) (object : HeapObject Ref) :
    Measurer.measure Measurer.standard (object.map place) =
      Measurer.measure Measurer.standard object := by
  unfold Measurer.measure Measurer.standard
  cases collection : object.shape.isCollection <;>
    simp [Measurer.collection, HeapObject.map, collection]

namespace Loaded

variable {left right : Loaded} {placeOf : {id // id ∈ file.ids} ≃ Fin left.size}
variable {placeThere : {id // id ∈ other.ids} ≃ Fin right.size}
  {place : Fin left.size ≃ Fin right.size}

/-- Places correspond by way of the old and the new identifiers. -/
theorem exists_place (rearranged : file.Rearranged name other)
    (apart : Set.InjOn name {id | file.Uses id}) (placeOf : {id // id ∈ file.ids} ≃ Fin left.size)
    (placeThere : {id // id ∈ other.ids} ≃ Fin right.size) :
    ∃ place : Fin left.size ≃ Fin right.size,
      ∀ origin, (placeThere.symm (place origin)).val = name (placeOf.symm origin).val := by
  let renamed (old : {id // id ∈ file.ids}) : {id // id ∈ other.ids} :=
    ⟨name old.val, rearranged.mem_ids.mpr ⟨old.val, old.property, rfl⟩⟩
  have bijective : Function.Bijective renamed := by
    constructor
    · intro first second same
      have sameName : name first.val = name second.val := congrArg Subtype.val same
      exact Subtype.ext (apart (Or.inl first.property) (Or.inl second.property) sameName)
    · intro id
      obtain ⟨old, member, same⟩ := rearranged.mem_ids.mp id.property
      exact ⟨⟨old, member⟩, Subtype.ext same⟩
  refine ⟨(placeOf.symm.trans (Equiv.ofBijective renamed bijective)).trans placeThere, ?_⟩
  intro origin
  rw [Equiv.trans_apply, Equiv.symm_apply_apply]
  rfl

/-- The objects correspond. -/
theorem Corresponds.object_rearranged (corresponds : left.Corresponds file placeOf)
    (correspondsThere : right.Corresponds other placeThere)
    (rearranged : file.Rearranged name other)
    (named : ∀ origin, (placeThere.symm (place origin)).val = name (placeOf.symm origin).val)
    (origin : Fin left.size) :
    right.heap.object (place origin) = (left.heap.object origin).map place := by
  obtain ⟨record, member, isRecord⟩ := List.mem_map.mp (placeOf.symm origin).property
  have memberThere := rearranged.mem_objects.mpr ⟨record, member, rfl⟩
  have isOrigin : placeOf ⟨record.id, List.mem_map_of_mem member⟩ = origin := by
    rw [← Equiv.eq_symm_apply]
    exact Subtype.ext isRecord
  have isPlace : placeThere ⟨(record.rename name).id, List.mem_map_of_mem memberThere⟩ =
      place origin := by
    rw [← Equiv.eq_symm_apply]
    refine Subtype.ext ?_
    rw [named, ← isRecord]
    rfl
  have here := corresponds.objects record member
  have there := correspondsThere.objects (record.rename name) memberThere
  rw [isOrigin] at here
  rw [isPlace] at there
  have distinct : Function.Injective fun given => (placeThere.symm given).val :=
    Subtype.val_injective.comp placeThere.symm.injective
  -- Both objects are the same once the places in them are read as new identifiers.
  apply HeapObject.map_injective distinct
  calc (right.heap.object (place origin)).map (fun given => (placeThere.symm given).val)
      = record.object.map name := there
    _ = ((left.heap.object origin).map fun given => (placeOf.symm given).val).map name := by
      rw [here]
    _ = (left.heap.object origin).map fun given => (placeThere.symm (place given)).val := by
        rw [HeapObject.map_map]
        simp only [named]
    _ = ((left.heap.object origin).map place).map fun given => (placeThere.symm given).val := by
        rw [HeapObject.map_map]

/-- The nodes of a key correspond. -/
theorem Corresponds.node_rearranged (corresponds : left.Corresponds file placeOf)
    (correspondsThere : right.Corresponds other placeThere)
    (rearranged : file.Rearranged name other)
    (named : ∀ origin, (placeThere.symm (place origin)).val = name (placeOf.symm origin).val)
    (single : other.keys.Nodup) {node : Node _} {twin : Node _}
    (found : left.store.nodes[key]? = some node) (matched : right.store.nodes[key]? = some twin) :
    node.Rearranged place twin := by
  obtain ⟨record, member, isKey, isValue, isDeps⟩ := (corresponds.nodes key node).mp found
  obtain ⟨given, givenMember, givenKey, givenValue, givenDeps⟩ :=
    (correspondsThere.nodes key twin).mp matched
  obtain ⟨restated, among, same⟩ := rearranged.definition member
  -- Keys are defined once, so the record of the twin restates that of the node.
  rw [← other.keys_definitions] at single
  have sameRecord : restated = given :=
    List.inj_on_of_nodup_map single among givenMember (same.key.trans (isKey.trans givenKey.symm))
  subst sameRecord
  constructor
  case value =>
    apply placeThere.symm.injective
    apply Subtype.ext
    rw [givenValue, same.value, named, isValue]
  case deps =>
    intro dep
    rw [givenDeps, isDeps, List.mem_eraseDups, List.mem_eraseDups]
    exact same.deps dep

/-- The builtins roots correspond. -/
theorem Corresponds.builtins_rearranged (corresponds : left.Corresponds file placeOf)
    (correspondsThere : right.Corresponds other placeThere)
    (rearranged : file.Rearranged name other)
    (named : ∀ origin, (placeThere.symm (place origin)).val = name (placeOf.symm origin).val) :
    right.builtins = left.builtins.map place := by
  have distinct : Function.Injective fun given => (placeThere.symm given).val :=
    Subtype.val_injective.comp placeThere.symm.injective
  apply Option.map_injective distinct
  rw [correspondsThere.builtins, rearranged.builtins, ← corresponds.builtins, Option.map_map,
    Option.map_map]
  simp only [Function.comp_def, named]

/-- What is loaded from a rearranged file is the same graph with its objects at other places. -/
theorem exists_rearranged (rearranged : file.Rearranged name other)
    (apart : Set.InjOn name {id | file.Uses id}) (accepted : file.load = .ok left)
    (acceptedThere : other.load = .ok right) (config : Config) (processors : Nat) :
    ∃ place : Fin left.size ≃ Fin right.size,
      (Cli.dumper left config processors).Rearranged place
        (Cli.dumper right config processors) := by
  obtain ⟨wellFormed, mirrors⟩ := (load_meets file).ok accepted
  obtain ⟨wellFormedThere, mirrorsThere⟩ := (load_meets other).ok acceptedThere
  obtain ⟨placeOf, corresponds⟩ := (load_corresponds wellFormed.single).ok accepted
  obtain ⟨placeThere, correspondsThere⟩ :=
    (load_corresponds wellFormedThere.single).ok acceptedThere
  obtain ⟨place, named⟩ := exists_place rearranged apart placeOf placeThere
  refine ⟨place, ?objects, ?graph, ?builtins, rfl, rfl, rfl, rfl, measure_standard place⟩
  case objects => exact corresponds.object_rearranged correspondsThere rearranged named
  case builtins => exact corresponds.builtins_rearranged correspondsThere rearranged named
  case graph =>
    constructor
    case held =>
      intro key
      rw [Bool.eq_iff_iff]
      exact (mirrors.held key).trans (rearranged.keys.mem_iff.trans (mirrorsThere.held key).symm)
    case nodes =>
      intro key node twin found matched
      exact corresponds.node_rearranged correspondsThere rearranged named wellFormedThere.single
        found matched
    case target =>
      have sameTarget := congrArg (Option.map ConfigurationKey.mk) rearranged.targetConfiguration
      exact mirrors.aimed.trans (sameTarget.symm.trans mirrorsThere.aimed.symm)
    case interrupted => exact mirrors.free.trans mirrorsThere.free.symm

/-- A dumper over what was loaded is sound. -/
theorem sound (accepted : file.load = .ok left) (config : Config) (processors : Nat) :
    (Cli.dumper left config processors).Sound where
  live := rfl
  works := rfl
  whole := (load_whole file).ok accepted

end Loaded

/-- **Numbering and order do not matter.** Let a snapshot list its objects, nodes, configurations
and dependencies in another order than a given one, with its objects under other identifiers, no two
of them the same. Then one is loaded exactly if the other is. If both are, the dumps of any text,
under any configuration, fail alike or give reports with the same key, policy, display, statistics
and printed text. If a pool can be made for the walks, this is so whatever order the units of the
schedules move in, and a dump comes out with a report or with a subject that cannot be resolved. -/
theorem File.load_rearranged (rearranged : file.Rearranged name other)
    (apart : Set.InjOn name {id | file.Uses id}) :
    ((∃ loaded, file.load = .ok loaded) ↔ ∃ loaded, other.load = .ok loaded) ∧
    ∀ left right, file.load = .ok left → other.load = .ok right → ∀ config processors text,
      let dumper := Cli.dumper left config processors
      let dumperThere := Cli.dumper right config processors
      (dumper.dumpText text).map Report.withoutLog =
        (dumperThere.dumpText text).map Report.withoutLog ∧
      (max (config.parallelWalks processors) 1 ≤ Schedule.permitLimit →
        dumper.MayDump text (dumper.dumpText text) ∧
        dumperThere.MayDump text (dumperThere.dumpText text) ∧
        ∀ before after, dumper.MayDump text before → dumperThere.MayDump text after →
          before.map Report.withoutLog = after.map Report.withoutLog ∧
            ((∃ report, before = .ok report) ∨ ∃ cause, before = .error (.resolution cause))) := by
  constructor
  · constructor
    · intro accepted
      obtain ⟨loaded, result⟩ := accepted
      exact (rearranged.wellFormed apart ((load_meets file).ok result).1).loads
    · intro accepted
      obtain ⟨loaded, result⟩ := accepted
      exact (rearranged.wellFormed_of apart ((load_meets other).ok result).1).loads
  · intro left right accepted acceptedThere config processors text dumper dumperThere
    obtain ⟨place, graphs⟩ :=
      Loaded.exists_rearranged rearranged apart accepted acceptedThere config processors
    have sound := Loaded.sound accepted config processors
    have soundThere := Loaded.sound acceptedThere config processors
    refine ⟨graphs.dumpText_eq sound text, ?_⟩
    intro fits
    have undisturbed := Dumper.undisturbed_of_whole sound.live rfl sound.whole fits
    have undisturbedThere := Dumper.undisturbed_of_whole soundThere.live rfl soundThere.whole fits
    refine ⟨undisturbed.covers text, undisturbedThere.covers text, ?_⟩
    intro before after comes comesThere
    exact ⟨graphs.mayDump_eq sound fits comes comesThere, undisturbed.settles text before comes⟩

/-- The pair with its records in the opposite order and its objects numbered from five on. -/
def File.pairRearranged : File where
  objects := [
    { id := 6
      object := {
        className := "Holder", category := .plain, shape := .instance 16
        fields := [{ name := "leaf", target := 5, transient := false }] } },
    { id := 5
      object := { className := "Leaf", category := .plain, shape := .instance 8, fields := [] } }]
  nodes := [{ key := mainPackage "upper", value := 6, deps := [mainPackage "lower"] },
    { key := mainPackage "lower", value := 5, deps := [] }]
  configurations := []
  targetConfiguration := none
  builtins := some 5

/-- Both are loaded, and their dumps are the same. -/
theorem File.load_rearranged_pair :
    (File.pair [mainPackage "lower"]).Rearranged (· + 5) File.pairRearranged ∧
      ∃ left right, (File.pair [mainPackage "lower"]).load = .ok left ∧
        File.pairRearranged.load = .ok right ∧
        ∀ config processors text,
          ((Cli.dumper left config processors).dumpText text).map Report.withoutLog =
            ((Cli.dumper right config processors).dumpText text).map Report.withoutLog := by
  have rearranged : (File.pair [mainPackage "lower"]).Rearranged (· + 5) File.pairRearranged := by
    constructor
    case objects => decide
    case nodes => decide
    case configurations => exact List.Perm.nil
    case targetConfiguration => rfl
    case builtins => rfl
  have apart : Set.InjOn (· + 5) {id | (File.pair [mainPackage "lower"]).Uses id} :=
    fun _ _ _ _ same => (UInt64.add_left_inj 5).mp same
  have rule := File.load_rearranged rearranged apart
  obtain ⟨left, accepted⟩ := File.pair_wellFormed.loads
  obtain ⟨right, acceptedThere⟩ := rule.1.mp ⟨left, accepted⟩
  exact ⟨rearranged, left, right, accepted, acceptedThere, fun config processors text =>
    (rule.2 left right accepted acceptedThere config processors text).1⟩

end Retained.Snapshot
