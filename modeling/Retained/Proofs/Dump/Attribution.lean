import Retained.Proofs.Dump.Bill
import Retained.Proofs.Schedule.Drive
import Retained.Proofs.Store.Closure

/-!
# What isolated and reachable dumps attribute

A report shows plain objects and the build machinery that it is to list, and it follows the fields
that objects hold, cache fields on request. What a value reaches by such fields along such objects
is a set of the heap alone (`Heap.Reaches`), and so are the builtins, which are reached by every
field.

An isolated dump walks the builtins, then the values of the direct dependencies without reporting,
and then the value itself, all over the same marks. Each walk leaves the marks closed under the
fields that the later walks follow, so the objects billed at the end are a plain difference of those
sets: what the value reaches, without the builtins and without what a dependency reaches. A
reachable dump is the same without dependencies.
-/

namespace Retained

variable {size : Nat}

/-! ## What reports ask for -/

/-- A report shows an object: each plain one, and build machinery of the categories to be listed. -/
structure ReportOptions.Shows {Ref : Type} (report : ReportOptions) (object : HeapObject Ref) :
    Prop where
  /-- Configurations are shown if the report lists them. -/
  configuration : object.category = .configuration → report.configuration = true
  /-- Values computed ahead are shown if the report lists them. -/
  precomputed : object.category = .precomputed → report.precomputed = true
  /-- The status of the workspace is shown if the report lists it. -/
  workspaceStatus : object.category = .workspaceStatus → report.workspaceStatus = true

/-- Plain objects are shown. -/
theorem ReportOptions.Shows.of_plain {Ref : Type} {report : ReportOptions} {object : HeapObject Ref}
    (plain : object.category = .plain) : report.Shows object := by
  constructor <;> rw [plain] <;> exact nofun

/-- A report follows a field: each that does not only cache, and cache fields on request. -/
def ReportOptions.Follows {Ref : Type} (report : ReportOptions) (field : Field Ref) : Prop :=
  report.transient = true ∨ field.transient = false

/-- Fields that objects hold lead from an origin to a place, as far as they are followed, along
objects that are shown, the origin and the place among them. -/
inductive Heap.Reaches (heap : Heap size) (shown : HeapObject (Fin size) → Prop)
    (followed : Field (Fin size) → Prop) (origin : Fin size) : Fin size → Prop where
  /-- The origin is reached if it is shown. -/
  | here (isShown : shown (heap.object origin)) : Reaches heap shown followed origin origin
  /-- One field further. -/
  | along {place next : Fin size} (reached : Reaches heap shown followed origin place)
      (led : ∃ field ∈ (heap.object place).fields, followed field ∧ field.target = next)
      (isShown : shown (heap.object next)) : Reaches heap shown followed origin next

/-- The rule for the categories of a report keeps out of what the report does not show. -/
theorem ReportOptions.shows_iff {Ref : Type} (report : ReportOptions) (object : HeapObject Ref) :
    report.Shows object ↔
      (SkipRule.byCategory report.configuration report.precomputed
        report.workspaceStatus).skips object = false := by
  have parts : report.Shows object ↔
      (object.category = .configuration → report.configuration = true) ∧
        (object.category = .precomputed → report.precomputed = true) ∧
        (object.category = .workspaceStatus → report.workspaceStatus = true) :=
    ⟨fun shown => ⟨shown.configuration, shown.precomputed, shown.workspaceStatus⟩,
      fun each => ⟨each.1, each.2.1, each.2.2⟩⟩
  simp only [parts, SkipRule.byCategory]
  cases object.category <;> simp

/-- A walk with that rule alone hides what the report does not show. -/
theorem Walk.not_hides_iff {walk : Walk size} {report : ReportOptions}
    (rules : walk.options.rules =
      [.byCategory report.configuration report.precomputed report.workspaceStatus])
    (place : Fin size) : ¬ walk.Hides place ↔ report.Shows (walk.heap.object place) := by
  simp only [Hides, rules, List.mem_singleton, exists_eq_left, Bool.not_eq_true,
    ReportOptions.shows_iff]

/-- What a walk over no marks reaches is told by the objects that it does not hide and the fields
that it follows. -/
theorem Walk.path_none_iff {walk : Walk size} {shown : HeapObject (Fin size) → Prop}
    {followed : Field (Fin size) → Prop} {origin : Fin size}
    (shows : ∀ place, ¬ walk.Hides place ↔ shown (walk.heap.object place))
    (follows : ∀ field : Field (Fin size),
      walk.options.followTransient = true ∨ field.transient = false ↔ followed field)
    (place : Fin size) :
    walk.Path .none origin place ↔ walk.heap.Reaches shown followed origin place := by
  constructor
  · intro path
    induction path with
    | here enters => exact .here ((shows _).mp enters.1)
    | along _ led enters reached =>
      obtain ⟨field, held, isFollowed, target⟩ := led
      exact .along reached ⟨field, held, (follows field).mp isFollowed, target⟩
        ((shows _).mp enters.1)
  · intro reached
    induction reached with
    | here isShown => exact .here ⟨(shows _).mpr isShown, Marks.contains_none _⟩
    | along _ led isShown path =>
      obtain ⟨field, held, isFollowed, target⟩ := led
      exact .along path ⟨field, held, (follows field).mpr isFollowed, target⟩
        ⟨(shows _).mpr isShown, Marks.contains_none _⟩

namespace Dumper

variable {dumper : Dumper size} {report : ReportOptions} {needle : Option String}
variable {options : WalkOptions (Fin size)} {marks : Marks size}

/-- The objects that a value reaches by fields that the report follows, along objects that it
shows. -/
def Reaches (dumper : Dumper size) (report : ReportOptions) (value place : Fin size) : Prop :=
  dumper.heap.Reaches report.Shows report.Follows value place

/-- The objects that the builtins root, if there is one and builtins are left out, reaches by any
fields along objects that the report shows. -/
def IsBuiltin (dumper : Dumper size) (report : ReportOptions) (place : Fin size) : Prop :=
  dumper.config.excludeBuiltins = true ∧ ∃ root, dumper.builtins = some root ∧
    dumper.heap.Reaches report.Shows (fun _ => True) root place

/-- The walk that bills reaches what the report asks for. -/
theorem billingWalk_path (value place : Fin size) :
    (dumper.billingWalk (report.walkOptions needle)).Path .none value place ↔
      dumper.Reaches report value place :=
  Walk.path_none_iff (Walk.not_hides_iff rfl) (fun _ => Iff.rfl) place

/-- The walk that only marks reaches the same. -/
theorem markingWalk_path (value place : Fin size) :
    (dumper.markingWalk (report.walkOptions needle)).Path .none value place ↔
      dumper.Reaches report value place :=
  Walk.path_none_iff (Walk.not_hides_iff rfl) (fun _ => Iff.rfl) place

/-- The walk of the builtins goes along every field. -/
theorem builtinsWalk_path (root place : Fin size) :
    (dumper.markingWalk (builtinsOptions (report.walkOptions needle))).Path .none root place ↔
      dumper.heap.Reaches report.Shows (fun _ => True) root place :=
  Walk.path_none_iff (Walk.not_hides_iff rfl) (fun _ => iff_true_intro (Or.inl rfl)) place

/-- The marks to start with are what the walk of the builtins reaches, and they are closed for the
dump. -/
theorem builtinsMarks_closed (live : dumper.cancelled = false)
    (options : WalkOptions (Fin size)) :
    ∃ marks, dumper.builtinsMarks options = .ok marks ∧
      (dumper.billingWalk options).Closed marks ∧
      ∀ place, marks.contains place = true ↔ ∃ root, dumper.excludedBuiltins = some root ∧
        (dumper.markingWalk (builtinsOptions options)).Path .none root place := by
  unfold builtinsMarks
  cases excluded : dumper.excludedBuiltins with
  | none => exact ⟨.none, rfl, Walk.closed_none _, by simp⟩
  | some root =>
    let walk := dumper.markingWalk (builtinsOptions options)
    obtain ⟨claimed, summary, after, walked, traversed⟩ :=
      walkFrom_ok live walk root (.start .none)
    have closed : walk.Closed (Scene.start Marks.none).marks := walk.closed_none
    refine ⟨after.marks, ?_, ?_, ?_⟩
    · simp only [walk] at walked
      simp only [walked]
      rfl
    -- The builtins are walked along every field, so they are closed for the fewer fields of the
    -- dump.
    · refine (traversed.closed closed).transfer (fun _ => id) ?_
      intro place next led
      obtain ⟨field, held, _, target⟩ := led
      exact ⟨field, held, Or.inl rfl, target⟩
    · intro place
      rw [traversed.contains_iff closed place]
      simp [Scene.start, walk]

/-- Builtins are left out if there are some and the configuration says so. -/
theorem excludedBuiltins_eq_some {root : Fin size} :
    dumper.excludedBuiltins = some root ↔
      dumper.config.excludeBuiltins = true ∧ dumper.builtins = some root := by
  unfold excludedBuiltins
  split
  · next excludes => rw [and_iff_right excludes]
  · next keeps => exact iff_of_false nofun fun both => keeps both.1

/-- The marks to start with are the builtins, and they are closed for the dump. -/
theorem builtinsMarks_exact (live : dumper.cancelled = false) (report : ReportOptions)
    (needle : Option String) :
    ∃ marks, dumper.builtinsMarks (report.walkOptions needle) = .ok marks ∧
      (dumper.billingWalk (report.walkOptions needle)).Closed marks ∧
      ∀ place, marks.contains place = true ↔ dumper.IsBuiltin report place := by
  obtain ⟨marks, marked, closed, reached⟩ :=
    builtinsMarks_closed live (report.walkOptions needle)
  refine ⟨marks, marked, closed, ?_⟩
  intro place
  simp only [reached, excludedBuiltins_eq_some, builtinsWalk_path, IsBuiltin, and_assoc,
    exists_and_left]

/-- Marking what some values reach leaves closed marks closed and adds just that. -/
theorem marked_exact (live : dumper.cancelled = false) (excluded : List (Fin size))
    (scene : Scene size)
    (closed : (dumper.billingWalk (report.walkOptions needle)).Closed scene.marks) :
    ∃ after, excluded.foldlM (fun scene root =>
        dumper.walkFrom (dumper.markingWalk (report.walkOptions needle)) root scene) scene =
          .ok after ∧
      (dumper.billingWalk (report.walkOptions needle)).Closed after.marks ∧
      after.reported = scene.reported ∧
      ∀ place, after.marks.contains place = true ↔
        scene.marks.contains place = true ∨
          ∃ value ∈ excluded, dumper.Reaches report value place := by
  induction excluded generalizing scene with
  | nil => exact ⟨scene, rfl, closed, rfl, by simp⟩
  | cons value others further =>
    obtain ⟨claimed, summary, middle, walked, traversed⟩ :=
      walkFrom_ok live (dumper.markingWalk (report.walkOptions needle)) value scene
    have markingClosed : (dumper.markingWalk (report.walkOptions needle)).Closed scene.marks :=
      closed
    obtain ⟨after, rest, stillClosed, reported, marked⟩ :=
      further middle (traversed.closed markingClosed)
    have silent : middle.reported = scene.reported := by
      apply Array.toList_inj.mp
      rw [traversed.reported]
      simp [Walk.wants, markingWalk]
    refine ⟨after, ?_, stillClosed, reported.trans silent, ?_⟩
    · rw [List.foldlM_cons, walked]
      exact rest
    · intro place
      rw [marked, traversed.contains_iff markingClosed, markingWalk_path]
      simp [or_assoc]

/-- The objects billed for a value are what it reaches, each once, without the builtins and without
what some other values reach, as far as their classes contain the needle. -/
def Attributes (dumper : Dumper size) (report : ReportOptions) (needle : Option String)
    (value : Fin size) (excluded : Fin size → Prop) (billing : Billing size) : Prop :=
  billing.objects.toList.Nodup ∧ ∀ place, place ∈ billing.objects.toList ↔
    dumper.Reaches report value place ∧ ¬ dumper.IsBuiltin report place ∧
      (∀ other, excluded other → ¬ dumper.Reaches report other place) ∧
      (dumper.heap.object place).Matches needle

/-- Walking a value last bills the difference of sets. -/
theorem billExcluding_exact (live : dumper.cancelled = false)
    (closed : (dumper.billingWalk (report.walkOptions needle)).Closed marks)
    (builtins : ∀ place, marks.contains place = true ↔ dumper.IsBuiltin report place)
    (excluded : List (Fin size)) (value : Fin size) :
    ∃ billing,
      dumper.billExcluding (report.walkOptions needle) marks excluded value = .ok billing ∧
        dumper.Attributes report needle value (· ∈ excluded) billing := by
  let walk := dumper.billingWalk (report.walkOptions needle)
  obtain ⟨before, marking, stillClosed, silent, marked⟩ :=
    marked_exact live excluded (.start marks) closed
  obtain ⟨claimed, summary, after, walked, traversed⟩ := walkFrom_ok live walk value before
  have objects : after.reported.toList = claimed.filter walk.wants := by
    rw [traversed.reported, silent]
    rfl
  refine ⟨{ objects := after.reported, log := none }, ?_, ?_, ?_⟩
  · unfold billExcluding
    rw [marking]
    simp only [walk] at walked
    simp only [bind, Except.bind, walked]
    rfl
  · rw [objects]
    exact traversed.distinct.filter _
  · intro place
    have outside : before.marks.contains place = false ↔
        ¬ dumper.IsBuiltin report place ∧
          ∀ other, other ∈ excluded → ¬ dumper.Reaches report other place := by
      rw [← Bool.not_eq_true, marked, not_or, ← builtins]
      simp [Scene.start]
    have wants : walk.wants place = true ↔ (dumper.heap.object place).Matches needle :=
      WalkOptions.isWanted_iff
    rw [objects, List.mem_filter, traversed.reach, stillClosed.path_iff, outside, wants,
      billingWalk_path, and_assoc, and_assoc]

/-- A reachable bill of a node whose value can be fetched. -/
theorem billReachable_exact {key : NodeKey} {value : Fin size} (live : dumper.cancelled = false)
    (closed : (dumper.billingWalk (report.walkOptions needle)).Closed marks)
    (builtins : ∀ place, marks.contains place = true ↔ dumper.IsBuiltin report place)
    (fetched : dumper.source.store.value key = .ok (some value)) :
    ∃ billing, dumper.billReachable key (report.walkOptions needle) marks = .ok billing ∧
      dumper.Attributes report needle value (fun _ => False) billing := by
  obtain ⟨billing, billed, distinct, exact⟩ := billExcluding_exact live closed builtins [] value
  refine ⟨billing, ?_, distinct, by simpa using exact⟩
  unfold billReachable
  rw [nodeValue_ok.mpr fetched]
  exact billed

/-- With the dependency list fetched, an isolated bill goes on with the values. -/
theorem billIsolated_of_deps {key : NodeKey} {deps : List NodeKey}
    (listed : dumper.source.store.deps key = .ok deps) :
    dumper.billIsolated key options marks = (do
      let excluded ← deps.mapM dumper.nodeValue
      let value ← dumper.nodeValue key
      dumper.billExcluding options marks excluded value) := by
  unfold billIsolated
  rw [listed]
  rfl

/-- An isolated bill of a node that can be fetched with the values of its direct dependencies. -/
theorem billIsolated_exact {key : NodeKey} {value : Fin size} {deps : List NodeKey}
    (live : dumper.cancelled = false)
    (closed : (dumper.billingWalk (report.walkOptions needle)).Closed marks)
    (builtins : ∀ place, marks.contains place = true ↔ dumper.IsBuiltin report place)
    (fetched : dumper.source.store.Fetches key value deps)
    (below : ∀ dep ∈ deps, ∃ other, dumper.source.store.value dep = .ok (some other)) :
    ∃ billing, dumper.billIsolated key (report.walkOptions needle) marks = .ok billing ∧
      dumper.Attributes report needle value
        (fun other => ∃ dep ∈ deps, dumper.source.store.value dep = .ok (some other)) billing := by
  obtain ⟨values, found, members⟩ := nodeValues_of_fetched below
  obtain ⟨billing, billed, distinct, exact⟩ :=
    billExcluding_exact live closed builtins values value
  refine ⟨billing, ?_, distinct, by simpa only [members] using exact⟩
  rw [billIsolated_of_deps fetched.2, found, nodeValue_ok.mpr fetched.1]
  exact billed

/-- An isolated bill needs the dependency list, the value of every direct dependency and the value
of the node. -/
theorem fetched_of_billIsolated {key : NodeKey} {billing : Billing size}
    (billed : dumper.billIsolated key options marks = .ok billing) :
    ∃ value deps, dumper.source.store.Fetches key value deps ∧
      ∀ dep ∈ deps, ∃ other, dumper.source.store.value dep = .ok (some other) := by
  cases listed : dumper.source.store.deps key with
  | error error =>
    unfold billIsolated at billed
    rw [listed] at billed
    cases billed
  | ok deps =>
    rw [billIsolated_of_deps listed] at billed
    cases found : deps.mapM dumper.nodeValue with
    | error error =>
      rw [found] at billed
      cases billed
    | ok values =>
      cases own : dumper.nodeValue key with
      | error error =>
        rw [found, own] at billed
        cases billed
      | ok value =>
        exact ⟨value, deps, ⟨nodeValue_ok.mp own, listed⟩, fetched_of_nodeValues found⟩

/-- A reachable bill needs the value of the node. -/
theorem fetched_of_billReachable {key : NodeKey} {billing : Billing size}
    (billed : dumper.billReachable key options marks = .ok billing) :
    ∃ value, dumper.source.store.value key = .ok (some value) := by
  unfold billReachable at billed
  cases own : dumper.nodeValue key with
  | error error =>
    rw [own] at billed
    cases billed
  | ok value => exact ⟨value, nodeValue_ok.mp own⟩

/-- **Isolated and reachable tallies are exact.** With a dumper that is not cancelled, a reachable
tally of a node comes about exactly if its value can be fetched, and then attributes, each once, the
objects that the value reaches by fields that the report follows along objects that it shows,
outside the builtins, whose class contains the needle. An isolated tally comes about exactly if the
dependency list, the value of every direct dependency and the value of the node can be fetched, and
then attributes those of them that no such dependency's value reaches. -/
theorem isolated_reachable_exact {dumper : Dumper size} (live : dumper.cancelled = false)
    (key : NodeKey) (report : ReportOptions) (needle : Option String) :
    (((∃ tally, dumper.collect key .reachable report needle = .ok tally) ↔
        ∃ value, dumper.source.store.value key = .ok (some value)) ∧
      ∀ value, dumper.source.store.value key = .ok (some value) →
        ∃ billing, dumper.collect key .reachable report needle = .ok (dumper.tally billing) ∧
          dumper.Attributes report needle value (fun _ => False) billing) ∧
    (((∃ tally, dumper.collect key .isolated report needle = .ok tally) ↔
        ∃ value deps, dumper.source.store.Fetches key value deps ∧
          ∀ dep ∈ deps, ∃ other, dumper.source.store.value dep = .ok (some other)) ∧
      ∀ value deps, dumper.source.store.Fetches key value deps →
        (∀ dep ∈ deps, ∃ other, dumper.source.store.value dep = .ok (some other)) →
        ∃ billing, dumper.collect key .isolated report needle = .ok (dumper.tally billing) ∧
          dumper.Attributes report needle value
            (fun other => ∃ dep ∈ deps, dumper.source.store.value dep = .ok (some other))
            billing) := by
  obtain ⟨marks, marked, closed, builtins⟩ := builtinsMarks_exact live report needle
  have reachable : ∀ value, dumper.source.store.value key = .ok (some value) →
      ∃ billing, dumper.collect key .reachable report needle = .ok (dumper.tally billing) ∧
        dumper.Attributes report needle value (fun _ => False) billing := by
    intro value fetched
    obtain ⟨billing, billed, attributes⟩ := billReachable_exact live closed builtins fetched
    refine ⟨billing, collect_of_bill ?_, attributes⟩
    rw [bill_of_marks .reachable marked]
    exact billed
  have isolated : ∀ value deps, dumper.source.store.Fetches key value deps →
      (∀ dep ∈ deps, ∃ other, dumper.source.store.value dep = .ok (some other)) →
      ∃ billing, dumper.collect key .isolated report needle = .ok (dumper.tally billing) ∧
        dumper.Attributes report needle value
          (fun other => ∃ dep ∈ deps, dumper.source.store.value dep = .ok (some other))
          billing := by
    intro value deps fetched below
    obtain ⟨billing, billed, attributes⟩ := billIsolated_exact live closed builtins fetched below
    refine ⟨billing, collect_of_bill ?_, attributes⟩
    rw [bill_of_marks .isolated marked]
    exact billed
  refine ⟨⟨⟨?_, ?_⟩, reachable⟩, ⟨⟨?_, ?_⟩, isolated⟩⟩
  · intro tallied
    obtain ⟨tally, collected⟩ := tallied
    obtain ⟨billing, billed⟩ := bill_of_collect collected
    rw [bill_of_marks .reachable marked] at billed
    exact fetched_of_billReachable billed
  · intro fetchable
    obtain ⟨value, fetched⟩ := fetchable
    obtain ⟨billing, collected, _⟩ := reachable value fetched
    exact ⟨dumper.tally billing, collected⟩
  · intro tallied
    obtain ⟨tally, collected⟩ := tallied
    obtain ⟨billing, billed⟩ := bill_of_collect collected
    rw [bill_of_marks .isolated marked] at billed
    exact fetched_of_billIsolated billed
  · intro fetchable
    obtain ⟨value, deps, fetched, below⟩ := fetchable
    obtain ⟨billing, collected, _⟩ := isolated value deps fetched below
    exact ⟨dumper.tally billing, collected⟩

/-- A dumper over the diamond, with the object that all corners but the top share as the
builtins. -/
def diamond : Dumper 3 where
  heap := Schedule.Plan.diamond.heap
  source := .ofStore Schedule.Plan.diamond.store
  builtins := some Schedule.Plan.shared
  config := .standard
  measurers := Measurer.standard
  cancelled := false

/-- The left corner of the diamond has an isolated tally. -/
theorem isolated_reachable_exact_diamond :
    diamond.cancelled = false ∧
      ∃ billing,
        diamond.collect (Schedule.corner "left") .isolated .all none = .ok (diamond.tally billing) ∧
        diamond.Attributes .all none 1
          (fun other => ∃ dep ∈ [Schedule.corner "bottom"],
            diamond.source.store.value dep = .ok (some other)) billing := by
  have live : diamond.cancelled = false := rfl
  have fetched : diamond.source.store.Fetches (Schedule.corner "left") 1
      [Schedule.corner "bottom"] := by
    unfold Store.Fetches
    decide +kernel
  have below : diamond.source.store.value (Schedule.corner "bottom") =
      .ok (some Schedule.Plan.shared) := by
    decide +kernel
  have rule := isolated_reachable_exact live (Schedule.corner "left") .all none
  refine ⟨live, rule.2.2 1 _ fetched ?_⟩
  intro dep member
  rw [List.mem_singleton.mp member]
  exact ⟨_, below⟩

end Dumper

end Retained
