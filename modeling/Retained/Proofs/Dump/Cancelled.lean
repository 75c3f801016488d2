import Retained.Proofs.Dump.Builtins
import Retained.Proofs.Schedule.Cancelled

/-!
# Cancelled walks and dumps

Cancellation always comes to the surface. A walk that is cancelled anywhere on its way is
interrupted, soon after, and what it has done by then is the beginning of what it would have done
(`Walk.CutShort`). So a dump in a session that is cancelled beforehand is an error under every
policy, over every graph and whatever moves when (`Dumper.Refuses`).
-/

namespace Retained

open Schedule

variable {size : Nat}

/-! ## Walks -/

/-- What becomes of a walk that is cancelled from one of its steps on. -/
structure Walk.CutShort (walk : Walk size) (root : Fin size) (scene : Scene size) (point : Nat) :
    Prop where
  /-- It is interrupted. -/
  interrupted : (walk.traverse (.after point) root scene).1 = none
  /-- Up to that step, it marks what the whole walk marks. -/
  before : (walk.history (.after point) 0 (.start root) scene).take point =
    (walk.history .never 0 (.start root) scene).take point
  /-- From that step on, it marks no more than 1024 objects. -/
  further : ((walk.history (.after point) 0 (.start root) scene).drop point).flatten.length ≤ 1024
  /-- All in all, it marks the first ones of the objects that the whole walk marks. -/
  beginning : walk.markingOrder (.after point) root scene <+: walk.markingOrder .never root scene
  /-- What it reports are the wanted ones of the objects it marks, in their order, up to the last
  one. -/
  recorded : walk.Recorded scene [] (walk.markingOrder (.after point) root scene)
    (walk.traverse (.after point) root scene).2

/-- A walk that is cancelled by its last step is cut short. -/
theorem Walk.cutShort {walk : Walk size} {root : Fin size} {scene : Scene size} {point : Nat}
    (underway : point ≤ (walk.history .never 0 (.start root) scene).length) :
    walk.CutShort root scene point where
  interrupted := by
    refine (walk.run_eq_none_iff point 0 (.start root) scene).mpr ?_
    rwa [Nat.zero_add]
  before := walk.take_history point 0 (.start root) scene
  further := walk.drop_history_le point 0 (.start root) scene
  beginning := (walk.history_prefix (.after point) 0 (.start root) scene).flatten
  recorded := walk.run_recorded (.after point) 0 (.start root) scene

/-! ## Dumps -/

namespace Dumper

variable {dumper : Dumper size} {key : NodeKey} {options : WalkOptions (Fin size)} {policy : Policy}
variable {report : ReportOptions} {needle : Option String}

/-- Whatever order the units of a schedule move in, a bill is made by a dumper that is not
cancelled. -/
theorem Concludes.live {billing : Billing size}
    (concludes : dumper.Concludes key options policy (.ok billing)) : dumper.cancelled = false := by
  cases concludes with
  | isolated marked billed => exact live_of_billIsolated billed
  | reachable marked billed => exact live_of_billReachable billed
  | transitive marked reached resolved ended =>
    by_contra notLive
    rw [Bool.not_eq_false] at notLive
    rw [notLive] at reached
    rcases State.reaches_refused (State.reaches_of_inside reached) with rfl | rfl
    · rw [State.isResolved_start] at resolved
      cases resolved
    · rw [State.outcome_refused] at ended
      cases ended

/-- A cancelled dumper makes no bill, whatever order the units of a schedule move in. -/
theorem Concludes.error_of_cancelled {result : Except DumpError (Billing size)}
    (cancelled : dumper.cancelled = true) (concludes : dumper.Concludes key options policy result) :
    ∃ error, result = .error error := by
  cases result with
  | error error => exact ⟨error, rfl⟩
  | ok billing =>
    rw [concludes.live] at cancelled
    cases cancelled

/-- A cancelled dumper makes no report, whatever order the units of a schedule move in. -/
theorem MayDump.error_of_cancelled {text : String} {result : Except DumpError Report}
    (cancelled : dumper.cancelled = true) (dumped : dumper.MayDump text result) :
    ∃ error, result = .error error := by
  cases dumped with
  | unread refused => exact ⟨_, rfl⟩
  | unresolved read failed => exact ⟨_, rfl⟩
  | concluded read resolved concludes =>
    obtain ⟨error, rfl⟩ := concludes.error_of_cancelled cancelled
    exact ⟨error, rfl⟩

/-- A cancelled dumper tallies no node. -/
theorem collect_of_cancelled (cancelled : dumper.cancelled = true) (key : NodeKey) (policy : Policy)
    (report : ReportOptions) (needle : Option String) :
    ∃ error, dumper.collect key policy report needle = .error error := by
  cases collected : dumper.collect key policy report needle with
  | error error => exact ⟨error, rfl⟩
  | ok tally =>
    obtain ⟨billing, billed⟩ := bill_of_collect collected
    rw [(concludes_of_bill billed).live] at cancelled
    cases cancelled

/-- A cancelled dumper dumps no mode. -/
theorem dumpText_of_cancelled (cancelled : dumper.cancelled = true) (text : String) :
    ∃ error, dumper.dumpText text = .error error := by
  unfold dumpText
  cases (Mode.parse text).mapError fun error => DumpError.resolution (.mode error) with
  | error error => exact ⟨error, rfl⟩
  | ok mode =>
    change ∃ error, dumper.dump mode = .error error
    unfold dump
    cases dumper.source.resolve mode.kind mode.subject with
    | error error => exact ⟨error, rfl⟩
    | ok key =>
      obtain ⟨error, failed⟩ :=
        collect_of_cancelled cancelled key mode.policy mode.report mode.needle
      simp only [bind, Except.bind, failed]
      exact ⟨error, rfl⟩

/-- What interrupts the schedule of a cancelled dumper: the walk of the builtins comes first, and a
schedule begins only if a pool can be made for its walks. -/
def refusal (dumper : Dumper size) (options : WalkOptions (Fin size)) : Interruption :=
  if dumper.excludedBuiltins.isSome then .walkCancelled
  else if permitLimit < (dumper.plan options).permits then
    .poolTooLarge (dumper.plan options).permits
  else .dumpCancelled

/-- Under the transitive policy, a cancelled dumper is interrupted in one way only. -/
theorem bill_transitive_of_cancelled (cancelled : dumper.cancelled = true) (key : NodeKey)
    (report : ReportOptions) (needle : Option String) :
    (dumper.bill key .transitive report needle).1 =
      .error (.interrupted (dumper.refusal (report.walkOptions needle))) := by
  let options : WalkOptions (Fin size) := report.walkOptions needle
  cases excluded : dumper.excludedBuiltins with
  | some root =>
    have unmarked : dumper.builtinsMarks options = .error (.interrupted .walkCancelled) := by
      unfold builtinsMarks
      rw [excluded]
      simp only [walkFrom_of_cancelled cancelled]
      rfl
    rw [bill_of_error .transitive unmarked, refusal, excluded]
    rfl
  | none =>
    have marked : dumper.builtinsMarks options = .ok .none := by
      unfold builtinsMarks
      rw [excluded]
    rw [bill_of_marks .transitive marked, refusal, excluded]
    change billingOf (Schedule.run (dumper.plan options) key .none dumper.cancelled).1 = _
    by_cases large : permitLimit < (dumper.plan options).permits
    · rw [run_crowded large, Option.isSome_none, if_neg Bool.false_ne_true, if_pos large]
      rfl
    · rw [cancelled, run_refused (Nat.not_lt.mp large), Option.isSome_none,
        if_neg Bool.false_ne_true, if_neg large]
      rfl

/-- How the dumps of a session come out that is cancelled beforehand. -/
structure Refuses (dumper : Dumper size) : Prop where
  /-- The dump of every mode is an error. -/
  dumps : ∀ text, ∃ error, dumper.dumpText text = .error error
  /-- The tally of every node is, under every policy. -/
  tallies : ∀ key policy report needle,
    ∃ error, dumper.collect key policy report needle = .error error
  /-- Under the transitive policy, the program comes to this error over every graph, cycles
  included. -/
  transitive : ∀ key report needle, (dumper.bill key .transitive report needle).1 =
    .error (.interrupted (dumper.refusal (report.walkOptions needle)))
  /-- So does every other order in which the units of a schedule move come to an error. -/
  mayDump : ∀ text result, dumper.MayDump text result → ∃ error, result = .error error
  /-- And it does come to one: the node's unit is resolved in the end. -/
  returns : ∀ options key marks state,
    State.Reaches (State.LeadsInside (dumper.plan options))
      (.start (dumper.plan options) key marks true) state →
    State.Returns (dumper.plan options) key state

/-- A cancelled dumper refuses every dump. -/
theorem refuses_of_cancelled (cancelled : dumper.cancelled = true) : dumper.Refuses where
  dumps := dumpText_of_cancelled cancelled
  tallies := collect_of_cancelled cancelled
  transitive := bill_transitive_of_cancelled cancelled
  mayDump _ _ dumped := dumped.error_of_cancelled cancelled
  returns _ _ _ _ reached := State.returns_refused reached

/-- **Cancellation stops a walk soon and always comes to the surface.** A walk that is cancelled
before it starts or at any step up to its last is interrupted, having marked no more than 1024
objects since; it has marked the first ones of the objects that it would have marked, each of them
once, and of the wanted ones among them it has reported all, up to the last one. A dump whose
session is cancelled beforehand is an error under every policy, over every graph and whatever moves
when. -/
theorem cancellation_surfaces :
    (∀ (walk : Walk size) (root : Fin size) (scene : Scene size) (point : Nat),
      point ≤ (walk.history .never 0 (.start root) scene).length → walk.CutShort root scene point) ∧
    ∀ dumper : Dumper size, dumper.cancelled = true → dumper.Refuses :=
  ⟨fun _ _ _ _ => Walk.cutShort, fun _ => refuses_of_cancelled⟩

/-- A walk that is cancelled right after marking its second object is cut short, and a tally of the
same heap in a cancelled session is an error. -/
theorem cancellation_surfaces_shielded :
    (shielded.billingWalk (ReportOptions.all.walkOptions none)).CutShort 3 (.start .none) 4 ∧
      ∃ error, ({ shielded with cancelled := true }).collect (Schedule.corner "package")
        .transitive .all none = .error error := by
  obtain ⟨walks, dumps⟩ := @cancellation_surfaces 4
  let walk := shielded.billingWalk (ReportOptions.all.walkOptions none)
  have underway : 4 ≤ (walk.history .never 0 (.start 3) (.start .none)).length := by
    rw [Walk.history_of_running rfl, Walk.history_of_running rfl, Walk.history_of_running rfl,
      Walk.history_of_running rfl]
    simp
  exact ⟨walks walk 3 (.start .none) 4 underway,
    (dumps { shielded with cancelled := true } rfl).tallies (Schedule.corner "package")
      .transitive .all none⟩

end Dumper

end Retained
