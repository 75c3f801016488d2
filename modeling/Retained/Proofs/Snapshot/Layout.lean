import Retained.Proofs.Snapshot.Defect
import Retained.Proofs.Snapshot.Table

/-!
# What the layout of a snapshot accepts and refuses

The search keeps its tasks on a stack. An object stands on it as a task to be finished below the
tasks to enter its targets, so the object next to be finished refers to whatever is above it, and to
the object finished before it (`Chained`). Meeting an object that the search is still below
therefore closes a chain of references to a cycle, and meeting an identifier without an object means
that something refers to it. The other way round, whatever an object refers to has its place when
the object is finished (`Ready`), so a complete search leaves every object founded: what it refers
to is listed and founded in turn, and nothing founded lies on a cycle.
-/

namespace Retained.Snapshot

open Relation

variable {file : File} {table : ObjectTable} {id target : UInt64} {tasks : List Task}
variable {layout : Layout}

namespace ObjectTable

/-- A field of the object that a table lists under an identifier refers to another identifier. -/
def Refers (table : ObjectTable) (id target : UInt64) : Prop :=
  ∃ object, table[id]? = some object ∧ target ∈ object.targets

/-- An identifier is listed, and all that its object refers to is founded. -/
inductive Founded (table : ObjectTable) : UInt64 → Prop where
  | intro {id : UInt64} {object : HeapObject UInt64} (listed : table[id]? = some object)
      (below : ∀ target ∈ object.targets, Founded table target) : Founded table id

/-- What is founded refers to what is founded. -/
theorem Founded.of_refers (founded : Founded table id) (refers : table.Refers id target) :
    Founded table target := by
  cases founded with
  | intro listed below =>
    obtain ⟨object, again, member⟩ := refers
    rw [listed] at again
    cases again
    exact below target member

/-- What is founded is listed. -/
theorem Founded.mem (founded : Founded table id) : id ∈ table := by
  cases founded with
  | intro listed below =>
    rw [Std.ExtTreeMap.mem_iff_isSome_getElem?, listed]
    rfl

/-- What is founded does not lie on a cycle. -/
theorem Founded.not_cyclic (founded : Founded table id) : ¬ TransGen table.Refers id id := by
  apply not_transGen_of_acc
  induction founded with
  | intro listed below accessible =>
    refine Acc.intro _ ?_
    intro target refers
    obtain ⟨object, again, member⟩ := refers
    rw [listed] at again
    cases again
    exact accessible target member

/-- What a refusal of the search accuses a table of. -/
def Defect (table : ObjectTable) : Refusal → Prop
  | .objectCycle id => TransGen table.Refers id id
  | .unknownObject id => (∃ other, table.Refers other id) ∧ id ∉ table
  | _ => False

end ObjectTable

/-! ## Tables -/

/-- A table lists the objects of some records under their identifiers. -/
def ObjectTable.Lists (table : ObjectTable) (records : List ObjectRecord) : Prop :=
  Tabulates ObjectRecord.id ObjectRecord.object records table

/-- A table of a file's objects refers as the file does. -/
theorem ObjectTable.Lists.refers_iff (lists : table.Lists file.objects) :
    table.Refers id target ↔ file.Refers id target := by
  constructor
  · intro refers
    obtain ⟨object, held, member⟩ := refers
    obtain ⟨record, among, same, rfl⟩ := (lists id object).mp held
    exact ⟨record, among, same, member⟩
  · intro refers
    obtain ⟨record, among, same, member⟩ := refers
    exact ⟨record.object, (lists id record.object).mpr ⟨record, among, same, rfl⟩, member⟩

/-- The references of a table of a file's objects are those of the file. -/
theorem ObjectTable.Lists.refers_eq (lists : table.Lists file.objects) :
    table.Refers = file.Refers := by
  funext id target
  exact propext lists.refers_iff

/-- Tabulating refuses an identifier only if it is given twice, and otherwise lists the objects. -/
theorem tabulate_meets (file : File) :
    Meets file.Defect (fun table => file.ids.Nodup ∧ ObjectTable.Lists table file.objects)
      (tabulate file.objects) := by
  refine foldlM_meets (fun seen table => (seen.map ObjectRecord.id).Nodup ∧
    ObjectTable.Lists table seen) ⟨List.nodup_nil, tabulates_nil⟩ ?_
  intro seen record rest table split held
  obtain ⟨distinct, lists⟩ := held
  by_cases known : table.contains record.id = true
  · rw [if_pos known]
    have earlier := Tabulates.mem_iff lists |>.mp (Std.ExtTreeMap.mem_iff_contains.mpr known)
    have twice : 2 ≤ file.ids.count record.id := by
      rw [File.ids, split, List.map_append, List.map_cons, List.count_append, List.count_cons_self]
      have once := List.count_pos_iff.mpr earlier
      omega
    exact twice
  · rw [if_neg known]
    have fresh : record.id ∉ seen.map ObjectRecord.id := by
      rw [← Tabulates.mem_iff lists, Std.ExtTreeMap.mem_iff_contains]
      exact known
    refine ⟨?_, Tabulates.insert lists fresh⟩
    rw [List.map_append, List.map_singleton, ← List.concat_eq_append, List.nodup_concat]
    exact ⟨fresh, distinct⟩

/-! ## Tasks -/

/-- Why an identifier is on the stack above some tasks: the object next to be finished refers to it,
or the search began with it. -/
def Called (table : ObjectTable) (id : UInt64) : List Task → Prop
  | [] => id ∈ table
  | .enter _ :: tasks => Called table id tasks
  | .finish below :: _ => table.Refers below id

/-- Every task is on the stack for a reason, and what is to be finished is listed. -/
def Chained (table : ObjectTable) : List Task → Prop
  | [] => True
  | .enter id :: tasks => Called table id tasks ∧ Chained table tasks
  | .finish id :: tasks => Called table id tasks ∧ id ∈ table ∧ Chained table tasks

/-- With some objects placed, doing the tasks finishes no object before what it refers to, and
leaves every object placed. -/
def Ready (table : ObjectTable) (placed : UInt64 → Prop) : List Task → Prop
  | [] => ∀ id, id ∈ table → placed id
  | .enter id :: tasks => Ready table (fun other => other = id ∨ placed other) tasks
  | .finish id :: tasks => (∀ target, table.Refers id target → placed target) ∧
      Ready table (fun other => other = id ∨ placed other) tasks

/-- What is called is referred to or listed. -/
theorem Called.referred_or_listed (called : Called table id tasks) :
    (∃ other, table.Refers other id) ∨ id ∈ table := by
  induction tasks with
  | nil => exact Or.inr called
  | cons task tasks further =>
    cases task with
    | enter other => exact further called
    | finish other => exact Or.inl ⟨other, called⟩

/-- An object to be finished leads to whatever is called above it. -/
theorem Chained.leads {below : UInt64} (chained : Chained table tasks)
    (called : Called table id tasks) (stacked : .finish below ∈ tasks) :
    TransGen table.Refers below id := by
  induction tasks generalizing id with
  | nil => cases stacked
  | cons task tasks further =>
    cases task with
    | enter other =>
      have deeper : .finish below ∈ tasks := by simpa using stacked
      exact further chained.2 called deeper
    | finish other =>
      rcases List.mem_cons.mp stacked with same | deeper
      · cases same
        exact .single called
      · exact (further chained.2.2 chained.1 deeper).tail called

/-- Tasks to enter objects are chained if the objects are called. -/
theorem Chained.enter_all {ids : List UInt64} (chained : Chained table tasks)
    (called : ∀ id ∈ ids, Called table id tasks) :
    Chained table (ids.map .enter ++ tasks) ∧
      ∀ other, Called table other tasks → Called table other (ids.map .enter ++ tasks) := by
  induction ids with
  | nil => exact ⟨chained, fun _ called => called⟩
  | cons first others further =>
    obtain ⟨rest, kept⟩ := further fun id member => called id (List.mem_cons_of_mem first member)
    exact ⟨⟨kept first (called first List.mem_cons_self), rest⟩, kept⟩

/-- With more objects placed, tasks are ready all the more. -/
theorem Ready.mono {placed more : UInt64 → Prop} (ready : Ready table placed tasks)
    (kept : ∀ id, placed id → more id) : Ready table more tasks := by
  induction tasks generalizing placed more with
  | nil => exact fun id listed => kept id (ready id listed)
  | cons task tasks further =>
    cases task with
    | enter id => exact further ready fun other => Or.imp_right (kept other)
    | finish id =>
      exact ⟨fun target refers => kept target (ready.1 target refers),
        further ready.2 fun other => Or.imp_right (kept other)⟩

/-- Tasks are ready after some objects are entered if they are with these placed. -/
theorem Ready.enter_all {placed : UInt64 → Prop} {ids : List UInt64}
    (ready : Ready table (fun other => other ∈ ids ∨ placed other) tasks) :
    Ready table placed (ids.map .enter ++ tasks) := by
  induction ids generalizing placed with
  | nil => exact ready.mono fun id => by simp
  | cons first others further =>
    apply further
    refine ready.mono ?_
    intro id
    rw [List.mem_cons]
    tauto

/-! ## Layouts -/

namespace Layout

/-- The search is below an object that it has entered. -/
theorem isBelow_iff : layout.isBelow id = true ↔ layout.visits[id]? = some .entered := by
  rw [isBelow, beq_iff_eq]

/-- An object is placed when the search is done with it. -/
theorem isPlaced_iff :
    layout.isPlaced id = true ↔ ∃ place, layout.visits[id]? = some (.done place) := by
  rw [isPlaced, isBelow, Std.ExtTreeMap.contains_eq_isSome_getElem?]
  cases layout.visits[id]? with
  | none => simp
  | some visit => cases visit <;> simp

/-- What a layout knows after entering an object. -/
theorem visits_enter (layout : Layout) (id other : UInt64) :
    (layout.enter id).visits[other]? =
      if id = other then some .entered else layout.visits[other]? := by
  rw [enter, Std.ExtTreeMap.getElem?_insert]
  exact if_congr Std.compare_eq_iff_eq rfl rfl

/-- What a layout knows after placing an object. -/
theorem visits_add (layout : Layout) (id other : UInt64)
    (object : HeapObject (Fin layout.draft.count)) :
    (layout.add id object).visits[other]? =
      if id = other then some (.done layout.draft.count) else layout.visits[other]? := by
  rw [add, Std.ExtTreeMap.getElem?_insert]
  exact if_congr Std.compare_eq_iff_eq rfl rfl

/-- Entering an object places none, and takes back no place of another one. -/
theorem isPlaced_enter (layout : Layout) {other : UInt64} (apart : id ≠ other) :
    (layout.enter id).isPlaced other = layout.isPlaced other := by
  rw [Bool.eq_iff_iff, isPlaced_iff, isPlaced_iff, visits_enter, if_neg apart]

/-- An object added is placed, with those placed before. -/
theorem isPlaced_add (layout : Layout) (other : UInt64)
    (object : HeapObject (Fin layout.draft.count)) :
    (layout.add id object).isPlaced other = true ↔ other = id ∨ layout.isPlaced other = true := by
  rw [isPlaced_iff, isPlaced_iff, visits_add]
  by_cases same : id = other
  · rw [if_pos same]
    exact iff_of_true ⟨_, rfl⟩ (Or.inl same.symm)
  · rw [if_neg same]
    exact ⟨Or.inr, fun either => either.resolve_left (Ne.symm same)⟩

/-- The place of an identifier is found if it has one; otherwise the identifier is refused. -/
theorem place_meets (layout : Layout) (id : UInt64) :
    Meets (fun refusal => refusal = .unknownObject id ∧ layout.isPlaced id = false)
      (fun place => layout.visits[id]? = some (.done place.val)) (layout.place id) := by
  unfold place
  split
  · next place given => exact given
  · next absent =>
    refine ⟨rfl, Bool.eq_false_iff.mpr ?_⟩
    intro placed
    obtain ⟨place, given⟩ := isPlaced_iff.mp placed
    exact absent place given

end Layout

/-- Lookups of a list succeed if each of them does. -/
theorem exists_mapM {α β : Type} {lookup : α → Except Refusal β} {items : List α}
    (each : ∀ item ∈ items, ∃ value, lookup item = .ok value) :
    ∃ values, items.mapM lookup = .ok values := by
  induction items with
  | nil => exact ⟨[], rfl⟩
  | cons item others further =>
    obtain ⟨value, first⟩ := each item List.mem_cons_self
    obtain ⟨values, rest⟩ := further fun other member =>
      each other (List.mem_cons_of_mem item member)
    refine ⟨value :: values, ?_⟩
    rw [List.mapM_cons, first, rest]
    rfl

/-- The references of an object are looked up if each lookup succeeds. -/
theorem exists_mapM_object {Ref Place : Type} {lookup : Ref → Except Refusal Place}
    {object : HeapObject Ref}
    (found : ∀ target ∈ object.targets, ∃ place, lookup target = .ok place) :
    ∃ placed, object.mapM lookup = .ok placed := by
  have each : ∀ field ∈ object.fields, ∃ placed : Field Place, (do
      return { name := field.name, target := ← lookup field.target, transient := field.transient } :
        Except Refusal (Field Place)) = .ok placed := by
    intro field member
    obtain ⟨place, looked⟩ := found field.target (List.mem_map_of_mem member)
    refine ⟨{ name := field.name, target := place, transient := field.transient }, ?_⟩
    rw [looked]
    rfl
  obtain ⟨fields, looked⟩ := exists_mapM each
  refine ⟨{ className := object.className, category := object.category, shape := object.shape
            fields }, ?_⟩
  unfold HeapObject.mapM
  rw [looked]
  rfl

/-- How far the search is with some tasks left. -/
structure Searching (table : ObjectTable) (tasks : List Task) (layout : Layout) : Prop where
  /-- What the search is below is to be finished. -/
  below : ∀ id, layout.isBelow id = true → .finish id ∈ tasks
  /-- Every task is there for a reason. -/
  chained : Chained table tasks
  /-- What an object refers to is placed before it is finished. -/
  ready : Ready table (fun id => layout.isPlaced id = true) tasks
  /-- What is placed is founded. -/
  founded : ∀ id, layout.isPlaced id = true → table.Founded id

namespace Searching

/-- A task to enter what is placed already is dropped. -/
theorem skip (searching : Searching table (.enter id :: tasks) layout)
    (placed : layout.isPlaced id = true) : Searching table tasks layout where
  below other isBelow := by simpa using searching.below other isBelow
  chained := searching.chained.2
  ready := by
    refine Ready.mono searching.ready ?_
    intro other either
    rcases either with rfl | still
    · exact placed
    · exact still
  founded := searching.founded

/-- Meeting an object that the search is below closes a cycle. -/
theorem cyclic (searching : Searching table (.enter id :: tasks) layout) {above : UInt64}
    (isBelow : layout.isBelow above = true) : TransGen table.Refers above id := by
  have stacked : .finish above ∈ tasks := by simpa using searching.below above isBelow
  exact searching.chained.2.leads searching.chained.1 stacked

/-- An object is entered with the targets that have no place. -/
theorem enter (searching : Searching table (.enter id :: tasks) layout)
    {object : HeapObject UInt64} (unmet : layout.visits[id]? = none)
    (listed : table[id]? = some object) :
    Searching table ((layout.enter id).tasks id object ++ tasks) (layout.enter id) := by
  have isListed : id ∈ table := by
    rw [Std.ExtTreeMap.mem_iff_isSome_getElem?, listed]
    rfl
  let entered := layout.enter id
  let unplaced := (object.targets.filter fun target => !entered.isPlaced target).reverse
  have expand : entered.tasks id object ++ tasks = unplaced.map .enter ++ .finish id :: tasks := by
    simp [Layout.tasks, unplaced]
  have chained : Chained table (.finish id :: tasks) :=
    ⟨searching.chained.1, isListed, searching.chained.2⟩
  have called : ∀ target ∈ unplaced, Called table target (.finish id :: tasks) := by
    intro target member
    exact ⟨object, listed, List.mem_of_mem_filter (List.mem_reverse.mp member)⟩
  have placed : ∀ other, entered.isPlaced other = true ↔ layout.isPlaced other = true := by
    intro other
    by_cases same : id = other
    · rw [← same, Layout.isPlaced_iff, Layout.isPlaced_iff, Layout.visits_enter, if_pos rfl, unmet]
      simp
    · rw [layout.isPlaced_enter same]
  change Searching table (entered.tasks id object ++ tasks) entered
  rw [expand]
  constructor
  case below =>
    intro other isBelow
    rw [Layout.isBelow_iff, Layout.visits_enter] at isBelow
    by_cases same : id = other
    · simp [same]
    · rw [if_neg same] at isBelow
      have before := searching.below other (Layout.isBelow_iff.mpr isBelow)
      have deeper : Task.finish other ∈ tasks := by simpa using before
      exact List.mem_append_right _ (List.mem_cons_of_mem _ deeper)
  case chained => exact (chained.enter_all called).1
  case ready =>
    refine Ready.enter_all ⟨?_, ?_⟩
    · intro target refers
      obtain ⟨again, held, member⟩ := refers
      rw [listed] at held
      cases held
      by_cases isPlaced : entered.isPlaced target = true
      · exact Or.inr isPlaced
      · refine Or.inl (List.mem_reverse.mpr (List.mem_filter.mpr ⟨member, ?_⟩))
        simpa using isPlaced
    · refine Ready.mono searching.ready ?_
      intro other either
      rcases either with same | still
      · exact Or.inl same
      · exact Or.inr (Or.inr ((placed other).mpr still))
  case founded =>
    intro other isPlaced
    exact searching.founded other ((placed other).mp isPlaced)

/-- An object to be finished gets its place. -/
theorem finish (searching : Searching table (.finish id :: tasks) layout)
    {object : HeapObject UInt64} (listed : table[id]? = some object)
    (placed : HeapObject (Fin layout.draft.count)) :
    Searching table tasks (layout.add id placed) where
  below other isBelow := by
    rw [Layout.isBelow_iff, Layout.visits_add] at isBelow
    by_cases same : id = other
    · rw [if_pos same] at isBelow
      cases isBelow
    · rw [if_neg same] at isBelow
      have before := searching.below other (Layout.isBelow_iff.mpr isBelow)
      rcases List.mem_cons.mp before with finished | deeper
      · cases finished
        exact absurd rfl same
      · exact deeper
  chained := searching.chained.2.2
  ready := searching.ready.2.mono fun other => (layout.isPlaced_add other placed).mpr
  founded other isPlaced := by
    rcases (layout.isPlaced_add other placed).mp isPlaced with rfl | before
    · refine .intro listed ?_
      intro target member
      exact searching.founded target (searching.ready.1 target ⟨object, listed, member⟩)
    · exact searching.founded other before

end Searching

/-- The search refuses only cycles and identifiers without objects, and otherwise places every
object, which is then founded. -/
theorem layOut_meets (searching : Searching table tasks layout) :
    Meets table.Defect
      (fun last => (∀ id, id ∈ table → last.isPlaced id = true) ∧
        ∀ id, last.isPlaced id = true → table.Founded id)
      (layOut table tasks layout) := by
  fun_induction layOut table tasks layout with
  | case1 layout => exact ⟨searching.ready, searching.founded⟩
  | case2 layout id tasks place met further =>
    exact further (searching.skip (Layout.isPlaced_iff.mpr ⟨place, met⟩))
  | case3 layout id tasks met => exact searching.cyclic (Layout.isBelow_iff.mpr met)
  | case4 layout id tasks met unlisted =>
    have absent : id ∉ table := by
      rw [Std.ExtTreeMap.mem_iff_isSome_getElem?, unlisted]
      exact Bool.false_ne_true
    exact ⟨searching.chained.1.referred_or_listed.resolve_right absent, absent⟩
  | case5 layout id tasks met object listed entered target found =>
    -- The target is the object itself, or one that the search was below before.
    have refers : table.Refers id target := ⟨object, listed, List.mem_of_find?_eq_some found⟩
    have isBelow : entered.isBelow target = true := List.find?_some found
    rw [Layout.isBelow_iff, Layout.visits_enter] at isBelow
    by_cases same : id = target
    · rw [← same] at refers ⊢
      exact .single refers
    · rw [if_neg same] at isBelow
      exact (searching.cyclic (Layout.isBelow_iff.mpr isBelow)).tail refers
  | case6 layout id tasks met object listed entered clear further =>
    exact further (searching.enter met listed)
  | case7 layout id tasks unlisted =>
    have listed := searching.chained.2.1
    rw [Std.ExtTreeMap.mem_iff_isSome_getElem?, unlisted] at listed
    cases listed
  | case8 layout id tasks object listed refusal looked =>
    have found : ∀ target ∈ object.targets, ∃ place, layout.place target = .ok place := by
      intro target member
      have isPlaced : layout.isPlaced target = true :=
        searching.ready.1 target ⟨object, listed, member⟩
      cases given : layout.place target with
      | ok place => exact ⟨place, rfl⟩
      | error refusal =>
        rw [((layout.place_meets target).error given).2] at isPlaced
        cases isPlaced
    obtain ⟨placed, succeeded⟩ := exists_mapM_object found
    rw [looked] at succeeded
    cases succeeded
  | case9 layout id tasks object listed placed looked further =>
    exact further (searching.finish listed placed)

/-- The search begins with every object to be entered. -/
theorem searching_start (table : ObjectTable) :
    Searching table (table.keys.map .enter) .empty := by
  have nothing : Chained table [] := trivial
  have called : ∀ id ∈ table.keys, Called table id [] := fun id => Std.ExtTreeMap.mem_keys.mp
  have all : table.keys.map Task.enter = table.keys.map .enter ++ [] := (List.append_nil _).symm
  rw [all]
  constructor
  case below =>
    intro id isBelow
    rw [Layout.isBelow_iff] at isBelow
    simp [Layout.empty] at isBelow
  case chained => exact (nothing.enter_all called).1
  case ready =>
    refine Ready.enter_all ?_
    exact fun id listed => Or.inl (Std.ExtTreeMap.mem_keys.mpr listed)
  case founded =>
    intro id isPlaced
    obtain ⟨place, placed⟩ := Layout.isPlaced_iff.mp isPlaced
    simp [Layout.empty] at placed

/-- A defect of the table of a file's objects is a defect of the file. -/
theorem ObjectTable.Lists.defect (lists : table.Lists file.objects) {refusal : Refusal}
    (defect : table.Defect refusal) : file.Defect refusal := by
  cases refusal with
  | objectCycle id =>
    rw [ObjectTable.Defect, lists.refers_eq] at defect
    exact defect
  | unknownObject id =>
    obtain ⟨⟨other, refers⟩, absent⟩ := defect
    rw [Tabulates.mem_iff lists] at absent
    exact ⟨Or.inl ⟨other, lists.refers_iff.mp refers⟩, absent⟩
  | _ => exact defect.elim

/-- Laying out the objects of a file refuses only defects of the file. If there are none, the
identifiers are distinct, every identifier of an object and no other has a place, what objects refer
to are objects of the file, and no object lies on a cycle. -/
theorem ofRecords_meets (file : File) :
    Meets file.Defect
      (fun layout => file.ids.Nodup ∧ (∀ id, layout.isPlaced id = true ↔ id ∈ file.ids) ∧
        (∀ id target, file.Refers id target → target ∈ file.ids) ∧
        ∀ id, ¬ TransGen file.Refers id id)
      (Layout.ofRecords file.objects) := by
  refine (tabulate_meets file).bind ?_
  intro table tabled
  obtain ⟨distinct, lists⟩ := tabled
  refine (layOut_meets (searching_start table)).imp (fun refusal => lists.defect) ?_
  intro layout laidOut
  obtain ⟨placed, founded⟩ := laidOut
  have listed : ∀ id, id ∈ table ↔ id ∈ file.ids := fun id => Tabulates.mem_iff lists
  have founds : ∀ id target, file.Refers id target → table.Founded id := by
    intro id target refers
    obtain ⟨record, among, same, _⟩ := refers
    have known : id ∈ file.ids := List.mem_map.mpr ⟨record, among, same⟩
    exact founded id (placed id ((listed id).mpr known))
  refine ⟨distinct, ?_, ?_, ?_⟩
  · intro id
    rw [← listed]
    exact ⟨fun isPlaced => (founded id isPlaced).mem, placed id⟩
  · intro id target refers
    have below := (founds id target refers).of_refers (lists.refers_iff.mpr refers)
    exact (listed target).mp below.mem
  · intro id cycle
    obtain ⟨target, first, _⟩ := TransGen.head'_iff.mp cycle
    rw [← lists.refers_eq] at cycle
    exact (founds id target first).not_cyclic cycle

end Retained.Snapshot
