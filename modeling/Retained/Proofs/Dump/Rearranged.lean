import Mathlib.Logic.Equiv.Basic
import Retained.Proofs.Dump.Ordered
import Retained.Proofs.Dump.Resolve

/-!
# Dumps of rearranged graphs

A graph may have its objects at other places and list the dependencies of its nodes in another
order. A dump then walks other numbers in another order, but every set that its bill is made of is
the same up to the places: what a value reaches, what the builtins root reaches, and the closure of
a node. So the bills hold the same objects, their statistics are equal
(`Dumper.Rearranged.stats_eq`), and dumps come out the same but for the logs of their schedules
(`mayDump_eq`, `dumpText_eq`).
-/

namespace Retained

/-! ## Stores -/

section Stores

variable {Value Other : Type} {place : Value ≃ Other} {node : Node Value}
variable {left : Store Value} {right : Store Other} {key dep : NodeKey}

/-- A node has the corresponding value and the same dependencies, in any order. -/
structure Node.Rearranged (place : Value ≃ Other) (node : Node Value) (twin : Node Other) :
    Prop where
  /-- The value is the corresponding one. -/
  value : twin.value = place node.value
  /-- The dependencies are the same. -/
  deps : ∀ dep, dep ∈ twin.deps ↔ dep ∈ node.deps

/-- A node corresponds to a rearranged one as that one does to it. -/
theorem Node.Rearranged.symm {twin : Node Other} (rearranged : node.Rearranged place twin) :
    twin.Rearranged place.symm node where
  value := by rw [rearranged.value, Equiv.symm_apply_apply]
  deps dep := (rearranged.deps dep).symm

namespace Store

/-- A store holds the same keys, with corresponding nodes, and has the same settings. -/
structure Rearranged (place : Value ≃ Other) (left : Store Value) (right : Store Other) : Prop where
  /-- The keys are the same. -/
  held : ∀ key, left.contains key = right.contains key
  /-- The nodes correspond. -/
  nodes : ∀ (key : NodeKey) (node : Node Value) (twin : Node Other),
    left.nodes[key]? = some node → right.nodes[key]? = some twin → node.Rearranged place twin
  /-- The target configuration is the same. -/
  target : left.target = right.target
  /-- The interrupted nodes are the same. -/
  interrupted : left.interrupted = right.interrupted

namespace Rearranged

/-- A store is a rearrangement of each of its rearrangements. -/
theorem symm (rearranged : left.Rearranged place right) : right.Rearranged place.symm left where
  held key := (rearranged.held key).symm
  nodes key twin node matched found := (rearranged.nodes key node twin found matched).symm
  target := rearranged.target.symm
  interrupted := rearranged.interrupted.symm

/-- A node that one store holds has a twin in the other. -/
theorem twin (rearranged : left.Rearranged place right) (found : left.nodes[key]? = some node) :
    ∃ twin, right.nodes[key]? = some twin ∧ node.Rearranged place twin := by
  have held : right.contains key = true := by
    rw [← rearranged.held, contains_iff]
    exact ⟨node, found⟩
  obtain ⟨twin, matched⟩ := contains_iff.mp held
  exact ⟨twin, matched, rearranged.nodes key node twin found matched⟩

/-- A value that one store gives corresponds to the one that the other gives. -/
theorem value (rearranged : left.Rearranged place right) {held : Value}
    (fetched : left.value key = .ok (some held)) : right.value key = .ok (some (place held)) := by
  unfold Store.value at fetched ⊢
  rw [← rearranged.interrupted]
  split at fetched
  · cases fetched
  · next free =>
    simp only [Except.ok.injEq, Option.map_eq_some_iff] at fetched
    obtain ⟨node, found, rfl⟩ := fetched
    obtain ⟨twin, matched, same⟩ := rearranged.twin found
    rw [if_neg free, matched, Option.map_some, same.value]

/-- Dependencies that one store gives are those that the other gives. -/
theorem deps (rearranged : left.Rearranged place right) {listed : List NodeKey}
    (fetched : left.deps key = .ok listed) :
    ∃ others, right.deps key = .ok others ∧ ∀ dep, dep ∈ others ↔ dep ∈ listed := by
  unfold Store.deps at fetched ⊢
  rw [← rearranged.interrupted]
  split at fetched
  · cases fetched
  · next free =>
    split at fetched
    · next node found =>
      cases fetched
      obtain ⟨twin, matched, same⟩ := rearranged.twin found
      rw [if_neg free, matched]
      exact ⟨twin.deps, rfl, same.deps⟩
    · cases fetched

/-- What a node depends on in one store, it depends on in the other. -/
theorem dependsOn (rearranged : left.Rearranged place right) (depends : left.DependsOn key dep) :
    right.DependsOn key dep := by
  unfold DependsOn depList at depends ⊢
  split at depends
  · next node found =>
    obtain ⟨twin, matched, same⟩ := rearranged.twin found
    rw [matched]
    exact (same.deps dep).mpr depends
  · cases depends

/-- The dependencies are the same. -/
theorem dependsOn_eq (rearranged : left.Rearranged place right) :
    left.DependsOn = right.DependsOn := by
  funext key dep
  exact propext ⟨rearranged.dependsOn, rearranged.symm.dependsOn⟩

/-- The closures of a node are the same. -/
theorem closure_eq (rearranged : left.Rearranged place right) (root : NodeKey) :
    left.closure root = right.closure root := by
  ext key
  rw [mem_closure, mem_closure, rearranged.dependsOn_eq]

/-- If nothing is amiss with one store, nothing is amiss with the other. -/
theorem whole (rearranged : left.Rearranged place right) (whole : left.Whole) : right.Whole where
  free := by rw [← rearranged.interrupted, whole.free]
  closed key dep depends := by
    rw [← rearranged.dependsOn_eq] at depends
    rw [← rearranged.held]
    exact whole.closed key dep depends
  acyclic key := by
    change ¬ Relation.TransGen right.DependsOn key key
    rw [← rearranged.dependsOn_eq]
    exact whole.acyclic key

end Rearranged

end Store

end Stores

/-! ## Recording -/

namespace Accountant

variable {Ref Place : Type} {place : Ref → Place} {left : Accountant Ref} {right : Accountant Place}

/-- Two accountants have counted the same and measure objects whatever they refer to. -/
structure Rearranged (place : Ref → Place) (left : Accountant Ref) (right : Accountant Place) :
    Prop where
  /-- The counters of classes are the same. -/
  classes : left.classes = right.classes
  /-- The counters over all classes are the same. -/
  total : left.total = right.total
  /-- Objects have the same size. -/
  measure : ∀ object, right.measure (object.map place) = left.measure object

/-- Recording corresponding objects leaves the counters the same. -/
theorem Rearranged.recordAll (rearranged : left.Rearranged place right)
    (objects : List (HeapObject Ref)) :
    (left.recordAll objects).Rearranged place
      (right.recordAll (objects.map (HeapObject.map place))) := by
  induction objects generalizing left right with
  | nil => exact rearranged
  | cons object others further =>
    have next : (left.record object).Rearranged place (right.record (object.map place)) := by
      constructor
      · simp only [record, rearranged.classes, rearranged.measure]
        rfl
      · simp only [record, rearranged.total, rearranged.measure]
      · exact rearranged.measure
    exact further next

/-- Accountants that have counted the same report the same. -/
theorem Rearranged.stats (rearranged : left.Rearranged place right) : left.stats = right.stats := by
  simp only [Accountant.stats, rearranged.classes, rearranged.total]

end Accountant

/-! ## Dumpers -/

namespace Dumper

variable {size count : Nat} {place : Fin size ≃ Fin count}
variable {left : Dumper size} {right : Dumper count}
variable {report : ReportOptions} {needle : Option String}

/-- A dumper is set up like another over the same graph with its objects at other places. -/
structure Rearranged (place : Fin size ≃ Fin count) (left : Dumper size) (right : Dumper count) :
    Prop where
  /-- The objects correspond. -/
  objects : ∀ origin, right.heap.object (place origin) = (left.heap.object origin).map place
  /-- The stores correspond. -/
  graph : left.source.store.Rearranged place right.source.store
  /-- The builtins roots correspond. -/
  builtins : right.builtins = left.builtins.map place
  /-- The same query is out of order. -/
  broken : left.source.broken = right.source.broken
  /-- The configurations are the same. -/
  config : left.config = right.config
  /-- There are as many processors for both. -/
  processors : left.processors = right.processors
  /-- Both are cancelled or neither is. -/
  cancelled : left.cancelled = right.cancelled
  /-- Objects are measured whatever they refer to. -/
  measures : ∀ object, Measurer.measure right.measurers (object.map place) =
    Measurer.measure left.measurers object

namespace Rearranged

/-- A dumper is a rearrangement of each of its rearrangements. -/
theorem symm (rearranged : left.Rearranged place right) : right.Rearranged place.symm left where
  objects origin := by
    have there := rearranged.objects (place.symm origin)
    rw [Equiv.apply_symm_apply] at there
    rw [there, HeapObject.map_map]
    simp only [Equiv.symm_apply_apply, HeapObject.map_id]
  graph := rearranged.graph.symm
  builtins := by
    rw [rearranged.builtins, Option.map_map, Equiv.symm_comp_self, Option.map_id, id]
  broken := rearranged.broken.symm
  config := rearranged.config.symm
  processors := rearranged.processors.symm
  cancelled := rearranged.cancelled.symm
  measures object := by
    rw [← rearranged.measures, HeapObject.map_map]
    simp only [Equiv.apply_symm_apply, HeapObject.map_id]

/-- What an origin reaches corresponds to what the corresponding origin reaches. -/
theorem heapReaches (rearranged : left.Rearranged place right)
    {followed : Field (Fin size) → Prop} {followedThere : Field (Fin count) → Prop}
    (follows : ∀ field, followed field → followedThere (field.map place)) {origin target : Fin size}
    (reached : left.heap.Reaches report.Shows followed origin target) :
    right.heap.Reaches report.Shows followedThere (place origin) (place target) := by
  have shows : ∀ target, report.Shows (left.heap.object target) →
      report.Shows (right.heap.object (place target)) := by
    intro target shown
    rw [rearranged.objects]
    exact ⟨shown.configuration, shown.precomputed, shown.workspaceStatus⟩
  induction reached with
  | here isShown => exact .here (shows _ isShown)
  | @along middle next _ led isShown earlier =>
    obtain ⟨field, held, isFollowed, rfl⟩ := led
    have heldThere : field.map place ∈ (right.heap.object (place middle)).fields := by
      rw [rearranged.objects]
      exact List.mem_map_of_mem held
    exact .along earlier ⟨_, heldThere, follows field isFollowed, rfl⟩ (shows _ isShown)

/-- What a value reaches corresponds to what the corresponding value reaches. -/
theorem reaches (rearranged : left.Rearranged place right) {value origin : Fin size}
    (reached : left.Reaches report value origin) :
    right.Reaches report (place value) (place origin) :=
  rearranged.heapReaches (fun _ followed => followed) reached

/-- The objects that the builtins root reaches correspond. -/
theorem isBuiltin (rearranged : left.Rearranged place right) {origin : Fin size}
    (builtin : left.IsBuiltin report origin) : right.IsBuiltin report (place origin) := by
  obtain ⟨excludes, root, found, reached⟩ := builtin
  refine ⟨?_, place root, ?_, rearranged.heapReaches (fun _ => id) reached⟩
  · rw [← rearranged.config]
    exact excludes
  · rw [rearranged.builtins, found, Option.map_some]

/-- What is due for a node corresponds. -/
theorem isDue (rearranged : left.Rearranged place right) {key : NodeKey} {origin : Fin size}
    {policy : Policy} (due : left.IsDue key report origin policy) :
    right.IsDue key report (place origin) policy := by
  cases policy with
  | isolated =>
    obtain ⟨value, deps, fetched, reached, apart⟩ := due
    obtain ⟨listed, found, same⟩ := rearranged.graph.deps fetched.2
    refine ⟨place value, listed, ⟨rearranged.graph.value fetched.1, found⟩,
      rearranged.reaches reached, ?_⟩
    intro dep member other held reachedThere
    have heldHere := rearranged.graph.symm.value held
    have reachedHere := rearranged.symm.reaches reachedThere
    rw [Equiv.symm_apply_apply] at reachedHere
    exact apart dep ((same dep).mp member) _ heldHere reachedHere
  | reachable =>
    obtain ⟨value, fetched, reached⟩ := due
    exact ⟨place value, rearranged.graph.value fetched, rearranged.reaches reached⟩
  | transitive =>
    obtain ⟨node, member, value, fetched, reached⟩ := due
    rw [rearranged.graph.closure_eq] at member
    exact ⟨node, member, place value, rearranged.graph.value fetched,
      rearranged.reaches reached⟩

/-- An object of an exact bill corresponds to one of the other exact bill. -/
theorem billed (rearranged : left.Rearranged place right) {key : NodeKey} {policy : Policy}
    {before : Billing size} {after : Billing count}
    (isExact : left.IsExact key report needle policy before)
    (isExactThere : right.IsExact key report needle policy after) {origin : Fin size}
    (member : origin ∈ before.objects.toList) : place origin ∈ after.objects.toList := by
  obtain ⟨due, matching, outside⟩ := (isExact.2 origin).mp member
  refine (isExactThere.2 (place origin)).mpr ⟨rearranged.isDue due, ?_, ?_⟩
  · rw [rearranged.objects]
    exact matching
  · intro builtin
    have back := rearranged.symm.isBuiltin builtin
    rw [Equiv.symm_apply_apply] at back
    exact outside back

/-- Exact bills of a node hold the same objects, so their statistics are equal. -/
theorem stats_eq (rearranged : left.Rearranged place right) {key : NodeKey} {policy : Policy}
    {before : Billing size} {after : Billing count}
    (isExact : left.IsExact key report needle policy before)
    (isExactThere : right.IsExact key report needle policy after) :
    left.statsOf before.objects = right.statsOf after.objects := by
  have places : after.objects.toList.Perm (before.objects.toList.map place) := by
    rw [List.perm_ext_iff_of_nodup isExactThere.1 (isExact.1.map place.injective)]
    intro origin
    constructor
    · intro member
      have back := rearranged.symm.billed isExactThere isExact member
      exact List.mem_map.mpr ⟨place.symm origin, back, place.apply_symm_apply origin⟩
    · intro member
      obtain ⟨first, listed, rfl⟩ := List.mem_map.mp member
      exact rearranged.billed isExact isExactThere listed
  have objects : (after.objects.toList.map right.heap.object).Perm
      ((before.objects.toList.map left.heap.object).map (HeapObject.map place)) := by
    refine (places.map _).trans (List.Perm.of_eq ?_)
    rw [List.map_map, List.map_map]
    exact List.map_congr_left fun origin _ => rearranged.objects origin
  have start : (Accountant.start left.measurers).Rearranged place (.start right.measurers) :=
    ⟨rfl, rfl, rearranged.measures⟩
  unfold statsOf
  rw [Accountant.recordAll_perm _ objects]
  exact (start.recordAll _).stats

end Rearranged

end Dumper

/-! ## Reports -/

/-- A report without the log of its schedule. -/
def Report.withoutLog (report : Report) : Report :=
  { report with log := none }

/-- A source whose queries all work is that of its store. -/
theorem Source.eq_ofStore {Value : Type} {source : Source Value} (works : source.broken = none) :
    source = .ofStore source.store := by
  cases source
  cases works
  rfl

namespace Dumper

open Schedule

variable {size count : Nat} {place : Fin size ≃ Fin count}
variable {left : Dumper size} {right : Dumper count} {text : String} {key : NodeKey}

/-- A dumper over a whole store whose dumps are not cancelled and whose queries work. -/
structure Sound (dumper : Dumper size) : Prop where
  /-- Dumps are not cancelled. -/
  live : dumper.cancelled = false
  /-- Every query works. -/
  works : dumper.source.broken = none
  /-- Nothing is amiss with the store. -/
  whole : dumper.source.store.Whole

/-- With a sound dumper, a subject resolves to a node that the store holds. -/
theorem Sound.held {dumper : Dumper size} (sound : dumper.Sound) {kind : SubjectKind}
    {subject : String} (resolved : dumper.source.resolve kind subject = .ok key) :
    dumper.source.store.contains key = true := by
  rw [Source.eq_ofStore sound.works] at resolved
  exact (Source.resolve_meets dumper.source.store kind subject).ok resolved

namespace Rearranged

/-- A rearrangement of a sound dumper is sound. -/
theorem sound (rearranged : left.Rearranged place right) (sound : left.Sound) : right.Sound where
  live := by rw [← rearranged.cancelled, sound.live]
  works := by rw [← rearranged.broken, sound.works]
  whole := rearranged.graph.whole sound.whole

/-- Subjects resolve to the same keys. -/
theorem resolve_eq (rearranged : left.Rearranged place right) (kind : SubjectKind)
    (subject : String) :
    left.source.resolve kind subject = right.source.resolve kind subject :=
  Source.resolve_congr rearranged.graph.held rearranged.graph.target rearranged.broken kind subject

/-- Reports of bills that came about are the same but for their logs. -/
theorem reportOf_eq (rearranged : left.Rearranged place right) {mode : Mode} {before : Billing size}
    {after : Billing count}
    (billed : left.Concludes key (mode.report.walkOptions mode.needle) mode.policy (.ok before))
    (billedThere :
      right.Concludes key (mode.report.walkOptions mode.needle) mode.policy (.ok after)) :
    (left.reportOf mode key before).withoutLog = (right.reportOf mode key after).withoutLog := by
  have stats := rearranged.stats_eq billed.exact billedThere.exact
  simp only [Report.withoutLog, reportOf, tally, stats]

/-- Bills come out the same but for their places and logs, unless a pool is too large for a
schedule. -/
theorem concludes_eq (rearranged : left.Rearranged place right) (sound : left.Sound) {mode : Mode}
    {before : Except DumpError (Billing size)} {after : Except DumpError (Billing count)}
    (held : left.source.store.contains key = true)
    (fits : mode.policy = .transitive →
      max (left.config.parallelWalks left.processors) 1 ≤ permitLimit)
    (concludes : left.Concludes key (mode.report.walkOptions mode.needle) mode.policy before)
    (concludesThere : right.Concludes key (mode.report.walkOptions mode.needle) mode.policy after) :
    before.map (fun billing => (left.reportOf mode key billing).withoutLog) =
      after.map fun billing => (right.reportOf mode key billing).withoutLog := by
  have soundThere := rearranged.sound sound
  have heldThere : right.source.store.contains key = true := by rw [← rearranged.graph.held, held]
  rcases concludes.cases_of_whole sound.live sound.whole held with
    ⟨billing, rfl⟩ | ⟨isTransitive, large, _⟩
  · rcases concludesThere.cases_of_whole soundThere.live soundThere.whole heldThere with
      ⟨other, rfl⟩ | ⟨isTransitive, large, _⟩
    · exact congrArg Except.ok (rearranged.reportOf_eq concludes concludesThere)
    · rw [rearranged.config, rearranged.processors] at fits
      exact absurd (fits isTransitive) (Nat.not_le.mpr large)
  · exact absurd (fits isTransitive) (Nat.not_le.mpr large)

/-- If a pool can be made for the walks, all ways in which the dump of a text can come out are the
same but for their logs. -/
theorem mayDump_eq (rearranged : left.Rearranged place right) (sound : left.Sound)
    (fits : max (left.config.parallelWalks left.processors) 1 ≤ permitLimit)
    {before after : Except DumpError Report} (comes : left.MayDump text before)
    (comesThere : right.MayDump text after) :
    before.map Report.withoutLog = after.map Report.withoutLog := by
  have staged := comes.staged
  have stagedThere := comesThere.staged
  cases read : Mode.parse text with
  | error error =>
    simp only [read] at staged stagedThere
    rw [staged, stagedThere]
  | ok mode =>
    simp only [read, ← rearranged.resolve_eq] at staged stagedThere
    cases resolved : left.source.resolve mode.kind mode.subject with
    | error error =>
      simp only [resolved] at staged stagedThere
      rw [staged, stagedThere]
    | ok key =>
      simp only [resolved] at staged stagedThere
      obtain ⟨billed, concludes, rfl⟩ := staged
      obtain ⟨billedThere, concludesThere, rfl⟩ := stagedThere
      rw [except_map_map, except_map_map]
      exact rearranged.concludes_eq sound (sound.held resolved) (fun _ => fits) concludes
        concludesThere

/-- The dumps of a text that are made are the same but for their logs. -/
theorem dumpText_eq (rearranged : left.Rearranged place right) (sound : left.Sound)
    (text : String) :
    (left.dumpText text).map Report.withoutLog = (right.dumpText text).map Report.withoutLog := by
  unfold dumpText
  cases Mode.parse text with
  | error error => rfl
  | ok mode =>
    change (left.dump mode).map Report.withoutLog = (right.dump mode).map Report.withoutLog
    cases resolved : left.source.resolve mode.kind mode.subject with
    | error error =>
      unfold dump
      rw [← rearranged.resolve_eq, resolved]
      rfl
    | ok key =>
      have resolvedThere := resolved
      rw [rearranged.resolve_eq] at resolvedThere
      rw [dump_of_resolved resolved, dump_of_resolved resolvedThere, except_map_map,
        except_map_map]
      have soundThere := rearranged.sound sound
      -- A pool that is too large is refused before the walks, whatever there is to walk.
      by_cases crowded : mode.policy = .transitive ∧
          permitLimit < max (left.config.parallelWalks left.processors) 1
      · have crowdedThere := crowded.2
        rw [rearranged.config, rearranged.processors] at crowdedThere
        rw [crowded.1, bill_crowded sound.live crowded.2, bill_crowded soundThere.live crowdedThere]
        simp only [plan, Plan.permits, rearranged.config, rearranged.processors]
        rfl
      · refine rearranged.concludes_eq sound (sound.held resolved) ?_
          (bill_concludes (sound.whole.acyclic_closure key))
          (bill_concludes (soundThere.whole.acyclic_closure key))
        intro isTransitive
        exact Nat.not_lt.mp fun large => crowded ⟨isTransitive, large⟩

end Rearranged

end Dumper

end Retained
