import Mathlib.Data.List.NodupEquivFin
import Retained.Proofs.Snapshot.Load
import Retained.Proofs.Snapshot.Placement

/-!
# Loading keeps the graph and its sharing

The identifiers of a snapshot and the places of the heap that is loaded from it correspond one to
one (`Loaded.Faithful`). Under this correspondence the object at a place is the one of the record,
field by field, a node's value is the object that the record names, and its dependencies are those
of the record, each taken where it is listed first. So two records with equal contents stay two
objects, and an identifier that is named in many places is one object.
-/

namespace Retained

/-- Objects that are the same after distinct references were replaced by distinct ones are the
same. -/
theorem HeapObject.map_injective {Ref Place : Type} {name : Ref → Place}
    (distinct : Function.Injective name) : Function.Injective (HeapObject.map name) := by
  have fields : Function.Injective (Field.map name) := by
    intro left right same
    cases left
    cases right
    simp only [Field.map, Field.mk.injEq] at same
    rw [same.1, distinct same.2.1, same.2.2]
  intro left right same
  cases left
  cases right
  simp only [HeapObject.map, HeapObject.mk.injEq] at same
  rw [same.1, same.2.1, same.2.2.1, List.map_injective_iff.mpr fields same.2.2.2]

namespace Snapshot

variable {file : File} {layout : Layout} {size : Nat} {Value : Type}

/-! ## Objects -/

/-- The identifiers of a file correspond to the places of a layout, one to one, with their
objects. -/
structure Layout.Matches (layout : Layout) (file : File)
    (place : {id // id ∈ file.ids} ≃ Fin layout.draft.count) : Prop where
  /-- The place of an identifier is the corresponding one. -/
  found : ∀ id given, layout.place id = .ok given → (place.symm given).val = id
  /-- The object at the place of an identifier is that of its record. -/
  objects : ∀ (record : ObjectRecord) (member : record ∈ file.objects),
    (layout.draft.heap.object (place ⟨record.id, List.mem_map_of_mem member⟩)).map
      (fun target => (place.symm target).val) = record.object

/-- If all identifiers of a file are placed in some order, that order is the correspondence. -/
theorem Placing.matches {table : ObjectTable} {order : List UInt64}
    (placing : Placing table order layout) (lists : ObjectTable.Lists table file.objects)
    (all : ∀ id, layout.isPlaced id = true ↔ id ∈ file.ids) (distinct : file.ids.Nodup) :
    ∃ place : {id // id ∈ file.ids} ≃ Fin layout.draft.count, layout.Matches file place := by
  have listed : ∀ id, id ∈ order ↔ id ∈ file.ids := by
    intro id
    rw [← all, Layout.isPlaced_iff, List.mem_iff_getElem?]
    exact exists_congr fun given => (placing.places id given).symm
  -- From places to identifiers the correspondence is the order itself, read position by position.
  let named : Fin layout.draft.count ≃ {id // id ∈ file.ids} :=
    (finCongr placing.counted.symm).trans
      ((placing.order_nodup.getEquiv order).trans (Equiv.subtypeEquivRight listed))
  have position : ∀ given : Fin layout.draft.count, order[given.val]? = some (named given).val := by
    intro given
    have inside : given.val < order.length := by
      rw [placing.counted]
      exact given.isLt
    exact List.getElem?_eq_getElem inside
  refine ⟨named.symm, ?_, ?_⟩
  · intro id given looked
    have atPlace := (placing.places id given.val).mp ((layout.place_meets id).ok looked)
    rw [position given] at atPlace
    exact Option.some.inj atPlace
  · intro record member
    let given := named.symm ⟨record.id, List.mem_map_of_mem member⟩
    have isNamed : (named given).val = record.id :=
      congrArg Subtype.val (named.apply_symm_apply _)
    obtain ⟨id, object, atPlace, among, same⟩ := placing.objects given.val given.isLt
    obtain ⟨other, otherMember, sameId, sameObject⟩ := (lists id object).mp among
    -- Identifiers are distinct, so the record that gave the object of this place is the given one.
    have isRecord : other = record := by
      rw [position given, isNamed] at atPlace
      exact List.inj_on_of_nodup_map distinct otherMember member
        (sameId.trans (Option.some.inj atPlace).symm)
    apply HeapObject.map_injective (Option.some_injective _)
    rw [HeapObject.map_map]
    calc (layout.draft.heap.object given).map (fun target => some (named target).val)
        = (layout.draft.heap.object given).map (fun target => order[target.val]?) := by
          simp only [position]
      _ = (layout.draft.objects[given]).map (order[·]?) := by
          rw [← Heap.Draft.object_map, HeapObject.map_map]
      _ = object.map some := same
      _ = record.object.map some := by rw [← sameObject, isRecord]

/-- Laying out the objects of a file with distinct identifiers gives each of them a place of its
own. -/
theorem ofRecords_matches (file : File) :
    Meets (fun _ => True)
      (fun layout => ∃ place : {id // id ∈ file.ids} ≃ Fin layout.draft.count,
        layout.Matches file place)
      (Layout.ofRecords file.objects) := by
  cases laidOut : Layout.ofRecords file.objects with
  | error refusal => exact trivial
  | ok layout =>
    obtain ⟨distinct, all, _⟩ := (ofRecords_meets file).ok laidOut
    obtain ⟨table, order, lists, placing⟩ := (ofRecords_placing file).ok laidOut
    exact placing.matches lists all distinct

/-! ## Nodes -/

/-- The node of a configuration, which depends on nothing. -/
def ConfigurationRecord.definition (record : ConfigurationRecord) : NodeRecord :=
  { key := .buildConfiguration record.key, value := record.value, deps := [] }

/-- The nodes that a file defines: those of the configurations, and then the others. -/
def File.definitions (file : File) : List NodeRecord :=
  file.configurations.map ConfigurationRecord.definition ++ file.nodes

/-- The keys of a file are those of the nodes that it defines. -/
theorem File.keys_definitions (file : File) : file.definitions.map NodeRecord.key = file.keys := by
  rw [definitions, List.map_append, List.map_map]
  rfl

/-- A store holds the nodes that some records define, each with the value of its record and without
dependencies. -/
def Defines (named : Fin size → UInt64) (records : List NodeRecord) (store : Store (Fin size)) :
    Prop :=
  ∀ (key : NodeKey) (node : Node _), store.nodes[key]? = some node ↔
    ∃ record ∈ records, record.key = key ∧ named node.value = record.value ∧ node.deps = []

/-- Places are named apart, and the place of an identifier by the identifier. -/
structure Layout.Names (layout : Layout) (named : Fin layout.draft.count → UInt64) : Prop where
  /-- No two places have the same name. -/
  distinct : Function.Injective named
  /-- The place of an identifier has it as its name. -/
  found : ∀ id given, layout.place id = .ok given → named given = id

/-- What an identifier is looked up to is named by it. -/
theorem Layout.Names.place_meets {named : Fin layout.draft.count → UInt64}
    (names : layout.Names named) (id : UInt64) :
    Meets (fun _ => True) (fun given => named given = id) (layout.place id) := by
  cases looked : layout.place id with
  | error refusal => exact trivial
  | ok given => exact names.found id given looked

/-- Corresponding identifiers name the places. -/
theorem Layout.Matches.names {place : {id // id ∈ file.ids} ≃ Fin layout.draft.count}
    (matching : layout.Matches file place) : layout.Names fun given => (place.symm given).val where
  distinct := Subtype.val_injective.comp place.symm.injective
  found := matching.found

/-- Defining one more node adds just that node. -/
theorem define_defines {named : Fin layout.draft.count → UInt64} (names : layout.Names named)
    {records : List NodeRecord} {store : Store (Fin layout.draft.count)}
    (defines : Defines named records store) (record : NodeRecord) :
    Meets (fun _ => True) (Defines named (records ++ [record]))
      (layout.define store record.key record.value) := by
  unfold Layout.define
  by_cases known : store.contains record.key = true
  · rw [if_pos known]
    exact trivial
  · have unheld : store.nodes[record.key]? = none := by
      rw [Store.contains_iff] at known
      exact Option.eq_none_iff_forall_ne_some.mpr fun node held => known ⟨node, held⟩
    have noDeps : store.depList record.key = [] := by rw [Store.depList, unheld]
    rw [if_neg known]
    refine (names.place_meets record.value).bind ?_
    intro given isNamed key node
    rw [Store.getElem?_addNode, noDeps]
    by_cases same : record.key = key
    · rw [if_pos same]
      constructor
      · intro held
        cases held
        exact ⟨record, List.mem_append_right _ List.mem_cons_self, same, isNamed, rfl⟩
      · intro defined
        obtain ⟨other, member, sameKey, sameValue, empty⟩ := defined
        rcases List.mem_append.mp member with old | new
        -- An earlier record with this key would have left a node, and the key was free.
        · have held := (defines key { node with deps := [] }).mpr
            ⟨other, old, sameKey, sameValue, rfl⟩
          rw [← same, unheld] at held
          cases held
        · rw [List.mem_singleton.mp new, ← isNamed] at sameValue
          cases node
          simp only at empty sameValue
          rw [empty, names.distinct sameValue]
    · rw [if_neg same, defines]
      simp [same]

/-- The nodes of the configurations are defined one after the other. -/
theorem configureAll_defines {named : Fin layout.draft.count → UInt64} (names : layout.Names named)
    {store : Store (Fin layout.draft.count)} (defines : Defines named [] store) :
    Meets (fun _ => True) (Defines named (file.configurations.map ConfigurationRecord.definition))
      (file.configurations.foldlM
        (fun store record => layout.define store (.buildConfiguration record.key) record.value)
        store) := by
  refine foldlM_meets
    (fun seen => Defines named (seen.map ConfigurationRecord.definition)) defines ?_
  intro seen record rest store _ defines
  rw [List.map_append]
  exact define_defines names defines record.definition

/-- The other nodes are defined after those of the configurations. -/
theorem defineAll_defines {named : Fin layout.draft.count → UInt64} (names : layout.Names named)
    {store : Store (Fin layout.draft.count)}
    (defines : Defines named (file.configurations.map ConfigurationRecord.definition) store) :
    Meets (fun _ => True) (Defines named file.definitions)
      (file.nodes.foldlM (fun store record => layout.define store record.key record.value)
        store) := by
  refine foldlM_meets
    (fun seen => Defines named (file.configurations.map ConfigurationRecord.definition ++ seen))
    ?_ ?_
  · rwa [List.append_nil]
  · intro seen record rest store _ defines
    rw [← List.append_assoc]
    exact define_defines names defines record

/-- No node that was just defined has dependencies. -/
theorem Defines.unlinked {named : Fin size → UInt64} {records : List NodeRecord}
    {store : Store (Fin size)} (defines : Defines named records store) (key : NodeKey)
    (node : Node (Fin size)) (held : store.nodes[key]? = some node) : node.deps = [] := by
  obtain ⟨record, _, _, _, empty⟩ := (defines key node).mp held
  exact empty

/-! ## Dependencies -/

/-- The dependencies that some records list for a key, in order and with repetitions. -/
def requests (records : List NodeRecord) (key : NodeKey) : List NodeKey :=
  (records.filter fun record => record.key == key).flatMap NodeRecord.deps

/-- The dependencies listed for a key after one more record. -/
theorem requests_concat (records : List NodeRecord) (record : NodeRecord) :
    requests (records ++ [record]) = Function.update (requests records) record.key
      (requests records record.key ++ record.deps) := by
  funext key
  rw [requests, List.filter_append, List.flatMap_append]
  by_cases same : key = record.key
  · rw [same, Function.update_self]
    simp [requests]
  · rw [Function.update_of_ne same]
    simp [requests, Ne.symm same]

/-- If no two records have the same key, those of a key list what its record does. -/
theorem requests_of_mem {records : List NodeRecord} (distinct : (records.map NodeRecord.key).Nodup)
    {record : NodeRecord} (member : record ∈ records) :
    requests records record.key = record.deps := by
  have single : records.filter (fun other => other.key == record.key) = [record] := by
    rw [← List.perm_singleton, List.perm_ext_iff_of_nodup (distinct.of_map.filter _)
      (List.nodup_singleton record)]
    intro other
    rw [List.mem_filter, List.mem_singleton, beq_iff_eq]
    constructor
    · intro found
      exact List.inj_on_of_nodup_map distinct found.1 member found.2
    · intro same
      rw [same]
      exact ⟨member, rfl⟩
  rw [requests, single, List.flatMap_singleton]

/-- The configurations list no dependencies. -/
theorem requests_definitions (file : File) : requests file.definitions = requests file.nodes := by
  funext key
  have none : requests (file.configurations.map ConfigurationRecord.definition) key = [] := by
    rw [requests, List.flatMap_eq_nil_iff]
    intro record member
    obtain ⟨configuration, _, rfl⟩ := List.mem_map.mp (List.mem_of_mem_filter member)
    rfl
  rw [requests, File.definitions, List.filter_append, List.flatMap_append]
  exact (congrArg (· ++ _) none).trans (List.nil_append _)

/-- The dependencies of one node are linked in the order in which they are listed. -/
theorem linkNode_linked {start store : Store Value} {wanted : NodeKey → List NodeKey}
    (linked : start.Linked wanted store) (key : NodeKey) (deps : List NodeKey) :
    Meets (fun _ => True) (start.Linked (Function.update wanted key (wanted key ++ deps)))
      (deps.foldlM (link key) store) := by
  refine foldlM_meets (fun seen store =>
    start.Linked (Function.update wanted key (wanted key ++ seen)) store) ?_ ?_
  · rwa [List.append_nil, Function.update_eq_self]
  · intro seen dep rest store _ linked
    unfold link
    split
    · have further := linked.addDep key dep
      rw [Function.update_self, Function.update_idem, List.append_assoc] at further
      exact further
    · exact trivial

/-- The dependencies of all nodes are linked in the order in which they are listed. -/
theorem linkAll_linked {store : Store Value} (records : List NodeRecord)
    (unlinked : ∀ (key : NodeKey) (node : Node _), store.nodes[key]? = some node → node.deps = []) :
    Meets (fun _ => True) (store.Linked (requests records))
      (records.foldlM (fun store record => record.deps.foldlM (link record.key) store) store) := by
  refine foldlM_meets (fun seen => store.Linked (requests seen)) ?_ ?_
  · intro key
    cases held : store.nodes[key]? with
    | none => rfl
    | some node =>
      rw [Option.map_some, show (requests [] key).eraseDups = [] from rfl, ← unlinked key node held]
  · intro seen record rest next _ linked
    rw [requests_concat]
    exact linkNode_linked linked record.key record.deps

/-- Once the dependencies that the nodes of a file list are linked, each node that the file defines
has those of its record. -/
theorem Defines.linked {named : Fin size → UInt64} {start store : Store (Fin size)}
    (defines : Defines named file.definitions start) (single : file.keys.Nodup)
    (linked : start.Linked (requests file.nodes) store) (key : NodeKey) (node : Node (Fin size)) :
    store.nodes[key]? = some node ↔ ∃ record ∈ file.definitions, record.key = key ∧
      named node.value = record.value ∧ node.deps = record.deps.eraseDups := by
  rw [← file.keys_definitions] at single
  rw [linked, ← requests_definitions, Option.map_eq_some_iff]
  constructor
  · intro held
    obtain ⟨plain, heldPlain, rfl⟩ := held
    obtain ⟨record, member, sameKey, sameValue, _⟩ := (defines key plain).mp heldPlain
    refine ⟨record, member, sameKey, sameValue, ?_⟩
    rw [← sameKey, requests_of_mem single member]
  · intro defined
    obtain ⟨record, member, sameKey, sameValue, sameDeps⟩ := defined
    refine ⟨{ node with deps := [] }, ?_, ?_⟩
    · exact (defines key _).mpr ⟨record, member, sameKey, sameValue, rfl⟩
    · rw [← sameKey, requests_of_mem single member, ← sameDeps]

/-- Setting the target configuration leaves the nodes as they are. -/
theorem aim_nodes (store : Store Value) (target : Option String) :
    Meets (fun _ => True) (fun next => next.nodes = store.nodes) (aim store target) := by
  unfold aim
  cases target with
  | none => rfl
  | some checksum =>
    by_cases known : store.contains (.buildConfiguration { checksum }) = true
    · simp only [if_pos known]
      exact rfl
    · simp only [if_neg known]
      exact trivial

/-! ## Loading -/

/-- What is loaded corresponds to a file, identifier by identifier and node by node. -/
structure Loaded.Corresponds (loaded : Loaded) (file : File)
    (place : {id // id ∈ file.ids} ≃ Fin loaded.size) : Prop where
  /-- The object of an identifier is that of its record: each field leads to the object of the
  identifier that the record names. -/
  objects : ∀ (record : ObjectRecord) (member : record ∈ file.objects),
    (loaded.heap.object (place ⟨record.id, List.mem_map_of_mem member⟩)).map
      (fun target => (place.symm target).val) = record.object
  /-- The nodes are those that the file defines, each with the object that its record names and with
  the dependencies of its record, repetitions left out. -/
  nodes : ∀ (key : NodeKey) (node : Node _), loaded.store.nodes[key]? = some node ↔
    ∃ record ∈ file.definitions, record.key = key ∧
      (place.symm node.value).val = record.value ∧ node.deps = record.deps.eraseDups
  /-- The builtins root is the object that the file names. -/
  builtins : loaded.builtins.map (fun root => (place.symm root).val) = file.builtins

/-- A loaded snapshot is the graph of a file: it corresponds to the file, and so do its
configurations. -/
structure Loaded.Faithful (loaded : Loaded) (file : File)
    (place : {id // id ∈ file.ids} ≃ Fin loaded.size) : Prop
    extends loaded.Corresponds file place where
  /-- The realized configurations are those that the file defines. -/
  realized : ∀ configuration, configuration ∈ loaded.store.realizedConfigurations ↔
    .buildConfiguration configuration ∈ file.keys
  /-- The realized configurations are in ascending order. -/
  ascending : loaded.store.realizedConfigurations.Pairwise
    fun first second => first.checksum < second.checksum

/-- The builtins root is looked up under its identifier. -/
theorem builtins_found {named : Fin layout.draft.count → UInt64} (names : layout.Names named)
    (root : Option UInt64) :
    Meets (fun _ => True) (fun builtins => builtins.map named = root)
      (root.mapM layout.place) := by
  cases root with
  | none => rfl
  | some id =>
    refine (names.place_meets id).bind ?_
    intro given isNamed
    exact congrArg some isNamed

/-- What is loaded corresponds to the file. -/
theorem load_corresponds (single : file.keys.Nodup) :
    Meets (fun _ => True) (fun loaded => ∃ place, loaded.Corresponds file place) file.load := by
  unfold File.load
  refine (ofRecords_matches file).bind ?_
  intro layout laidOut
  obtain ⟨place, matching⟩ := laidOut
  have names := matching.names
  have nothing : Defines (fun given => (place.symm given).val) [] Store.empty := by
    intro key node
    simp [Store.empty]
  refine (configureAll_defines names nothing).bind ?_
  intro store configured
  refine (defineAll_defines names configured).bind ?_
  intro start defines
  refine (linkAll_linked file.nodes defines.unlinked).bind ?_
  intro store linked
  refine (Meets.anything (checkAcyclic file.nodes)).bind ?_
  intro _ _
  refine (aim_nodes store file.targetConfiguration).bind ?_
  intro aimed sameNodes
  refine (builtins_found names file.builtins).bind ?_
  intro builtins isRoot
  refine ⟨place, matching.objects, ?_, isRoot⟩
  intro key node
  show aimed.nodes[key]? = some node ↔ _
  rw [sameNodes]
  exact defines.linked single linked key node

/-- **Loading keeps the graph and its sharing.** For every snapshot that is loaded there is a
one-to-one correspondence between the identifiers of the file and the places of the heap, such that
the object of an identifier has the class, the category, the shape and the fields of its record,
each field leading to the object of the identifier that the record names; the store has exactly the
nodes of the configurations and of the node records, each with the object that its record names and
with the dependencies of its record, later repetitions left out, none in the case of a
configuration; the realized configurations are those that the file defines, in ascending order; and
the builtins root is the object that the file names. -/
theorem File.load_faithful {loaded : Loaded} (accepted : file.load = .ok loaded) :
    ∃ place : {id // id ∈ file.ids} ≃ Fin loaded.size, loaded.Faithful file place := by
  obtain ⟨wellFormed, mirrors⟩ := (load_meets file).ok accepted
  obtain ⟨place, corresponds⟩ := (load_corresponds wellFormed.single).ok accepted
  have realized : ∀ configuration, configuration ∈ loaded.store.realizedConfigurations ↔
      .buildConfiguration configuration ∈ file.keys := by
    intro configuration
    rw [Store.mem_realizedConfigurations, mirrors.held]
  exact ⟨place, corresponds, realized, loaded.store.realizedConfigurations_ascending⟩

/-- The pair is loaded faithfully. -/
theorem File.load_faithful_pair :
    ∃ loaded, (File.pair [mainPackage "lower"]).load = .ok loaded ∧
      ∃ place : {id // id ∈ (File.pair [mainPackage "lower"]).ids} ≃ Fin loaded.size,
        loaded.Faithful (File.pair [mainPackage "lower"]) place := by
  obtain ⟨loaded, accepted⟩ := File.pair_wellFormed.loads
  exact ⟨loaded, accepted, File.load_faithful accepted⟩

end Snapshot

end Retained
