import Retained.Dump.Config
import Retained.Dump.Resolve
import Retained.Schedule.Run
import Retained.Tally.Accountant
import Retained.Tally.Render

/-!
# Dumps

A dump resolves its subject, marks what is not to be billed, and walks what is. Before anything else
the objects of the builtins root are marked, cache fields included, if there is such a root and it
is to be left out. Then

* the isolated policy marks what the direct dependencies reach and bills what is left of the node's
  own value,
* the reachable policy bills what the node's value reaches,
* the transitive policy bills what the values of the node's closure reach, under a schedule.

The billed objects are those that the walks report, and the tally counts and measures them.
-/

namespace Retained

/-- A dump facility over a graph. -/
structure Dumper (size : Nat) where
  /-- The heap of the graph's values. -/
  heap : Heap size
  /-- The graph. -/
  source : Source (Fin size)
  /-- The root of the builtins, if there is one. -/
  builtins : Option (Fin size)
  /-- The configuration. -/
  config : Config
  /-- How sizes are measured. -/
  measurers : List (Measurer (Fin size))
  /-- Whether dumps are cancelled. -/
  cancelled : Bool
  /-- The number of processors, for a configuration that leaves the number of walks to it. -/
  processors : Nat := Config.assumedProcessors

/-- The objects that a dump bills, and the log of its schedule if it had one. -/
structure Billing (size : Nat) where
  /-- The billed objects, in the order in which they were reported. -/
  objects : Array (Fin size)
  /-- What happened in the schedule. -/
  log : Option (List Event)

/-- What a dump has billed, and the log of its schedule if it had one. -/
structure Tally where
  /-- The statistics of the billed objects. -/
  stats : MemoryStats
  /-- What happened in the schedule. -/
  log : Option (List Event)

/-- A complete dump. -/
structure Report where
  /-- The node billed. -/
  key : NodeKey
  /-- Which objects were billed. -/
  policy : Policy
  /-- What is printed of them. -/
  display : Display
  /-- The statistics of the billed objects. -/
  stats : MemoryStats
  /-- The printed text. -/
  rendered : String
  /-- What happened in the schedule. -/
  log : Option (List Event)

/-- How a dump treats objects and fields. -/
def ReportOptions.walkOptions {Ref : Type} (report : ReportOptions) (needle : Option String) :
    WalkOptions Ref :=
  { rules := [.byCategory report.configuration report.precomputed report.workspaceStatus]
    followTransient := report.transient
    needle }

namespace Dumper

variable {size : Nat}

/-- The walk that only marks. -/
def markingWalk (dumper : Dumper size) (options : WalkOptions (Fin size)) : Walk size :=
  { heap := dumper.heap, options, reports := false }

/-- The walk that bills. -/
def billingWalk (dumper : Dumper size) (options : WalkOptions (Fin size)) : Walk size :=
  { heap := dumper.heap, options, reports := true }

/-- The scene after a whole walk, unless it is interrupted. -/
def walkFrom (dumper : Dumper size) (walk : Walk size) (root : Fin size) (scene : Scene size) :
    Except DumpError (Scene size) :=
  match walk.traverse (.ofBool dumper.cancelled) root scene with
  | (some _, after) => .ok after
  | (none, _) => .error (.interrupted .walkCancelled)

/-- The builtins root, if it is to be left out. -/
def excludedBuiltins (dumper : Dumper size) : Option (Fin size) :=
  if dumper.config.excludeBuiltins then dumper.builtins else none

/-- How the builtins are walked: like the dump, but along every field. -/
def builtinsOptions (options : WalkOptions (Fin size)) : WalkOptions (Fin size) :=
  { options with followTransient := true, needle := none }

/-- The marks to start with: the builtins, if they are left out. -/
def builtinsMarks (dumper : Dumper size) (options : WalkOptions (Fin size)) :
    Except DumpError (Marks size) :=
  match dumper.excludedBuiltins with
  | none => .ok .none
  | some root => do
    let scene ← dumper.walkFrom (dumper.markingWalk (builtinsOptions options)) root (.start .none)
    return scene.marks

/-- The value of a node, which has to be in the graph. -/
def nodeValue (dumper : Dumper size) (key : NodeKey) : Except DumpError (Fin size) := do
  match ← (dumper.source.store.value key).mapError .ofFetch with
  | some value => return value
  | none => throw (.interrupted (.vanished key))

/-- The statistics of reported objects. -/
def statsOf (dumper : Dumper size) (reported : Array (Fin size)) : MemoryStats :=
  ((Accountant.start dumper.measurers).recordAll
    (reported.toList.map dumper.heap.object)).stats

/-- The objects that a value reaches and other values do not. -/
def billExcluding (dumper : Dumper size) (options : WalkOptions (Fin size)) (marks : Marks size)
    (excluded : List (Fin size)) (value : Fin size) : Except DumpError (Billing size) := do
  let marked ← excluded.foldlM
    (fun scene root => dumper.walkFrom (dumper.markingWalk options) root scene) (.start marks)
  let billed ← dumper.walkFrom (dumper.billingWalk options) value marked
  return { objects := billed.reported, log := none }

/-- The bill of a node under the isolated policy. -/
def billIsolated (dumper : Dumper size) (key : NodeKey) (options : WalkOptions (Fin size))
    (marks : Marks size) : Except DumpError (Billing size) := do
  let deps ← (dumper.source.store.deps key).mapError .ofFetch
  let excluded ← deps.mapM dumper.nodeValue
  let value ← dumper.nodeValue key
  dumper.billExcluding options marks excluded value

/-- The bill of a node under the reachable policy. -/
def billReachable (dumper : Dumper size) (key : NodeKey) (options : WalkOptions (Fin size))
    (marks : Marks size) : Except DumpError (Billing size) := do
  let value ← dumper.nodeValue key
  dumper.billExcluding options marks [] value

/-- The schedule of a node's closure. -/
def plan (dumper : Dumper size) (options : WalkOptions (Fin size)) : Schedule.Plan size :=
  { store := dumper.source.store
    heap := dumper.heap
    options
    walks := dumper.config.parallelWalks dumper.processors }

/-- The bill of a node under the transitive policy, and the dumper with what the schedule has left
of its session. -/
def billTransitive (dumper : Dumper size) (key : NodeKey) (options : WalkOptions (Fin size))
    (marks : Marks size) : Except DumpError (Billing size) × Dumper size :=
  let (outcome, token) := Schedule.run (dumper.plan options) key marks dumper.cancelled
  let billing := outcome.map fun closure =>
    { objects := closure.scene.reported, log := some closure.log }
  (billing.mapError .interrupted, { dumper with cancelled := token.session })

/-- The bill of a node, and the dumper afterwards. -/
def bill (dumper : Dumper size) (key : NodeKey) (policy : Policy) (report : ReportOptions)
    (needle : Option String) : Except DumpError (Billing size) × Dumper size :=
  let options := report.walkOptions needle
  match dumper.builtinsMarks options with
  | .error error => (.error error, dumper)
  | .ok marks =>
    match policy with
    | .isolated => (dumper.billIsolated key options marks, dumper)
    | .reachable => (dumper.billReachable key options marks, dumper)
    | .transitive => dumper.billTransitive key options marks

/-- The tally of a bill. -/
def tally (dumper : Dumper size) (billing : Billing size) : Tally :=
  { stats := dumper.statsOf billing.objects, log := billing.log }

/-- The tally of a node. -/
def collect (dumper : Dumper size) (key : NodeKey) (policy : Policy) (report : ReportOptions)
    (needle : Option String) : Except DumpError Tally :=
  (dumper.bill key policy report needle).1.map dumper.tally

/-- The dump of a mode. -/
def dump (dumper : Dumper size) (mode : Mode) : Except DumpError Report := do
  let key ← dumper.source.resolve mode.kind mode.subject
  let tally ← dumper.collect key mode.policy mode.report mode.needle
  return {
    key, policy := mode.policy, display := mode.display, stats := tally.stats
    rendered := tally.stats.render mode.display, log := tally.log }

/-- The dump of the text of a mode. -/
def dumpText (dumper : Dumper size) (text : String) : Except DumpError Report := do
  dumper.dump (← (Mode.parse text).mapError fun error => .resolution (.mode error))

end Dumper

end Retained
