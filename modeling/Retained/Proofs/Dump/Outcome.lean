import Retained.Proofs.Checks
import Retained.Proofs.Dump.Attribution
import Retained.Proofs.Schedule.Finish

/-!
# How dumps come out

Under the transitive policy the order in which units move is left open, so a dump can come out in
more than one way. `Dumper.Concludes` and `Dumper.MayDump` list the ways: those of every complete
schedule, and of no incomplete one. The dump that the program makes is one of them. Over a whole
store, a dump that is not cancelled comes out with a report or with a subject that cannot be
resolved, unless no pool can be made for its walks (`Dumper.MayDump.cases_of_whole`), and nothing on
the way to it is interrupted (`Dumper.undisturbed_of_whole`).
-/

namespace Retained

open Schedule

variable {size : Nat}

/-- Without any setting, a pool can be made for the walks on the processors that are assumed. -/
theorem Config.standard_fits :
    max (standard.parallelWalks assumedProcessors) 1 ≤ permitLimit := by
  decide

namespace Dumper

variable {dumper : Dumper size} {key : NodeKey} {options : WalkOptions (Fin size)}
variable {policy : Policy} {report : ReportOptions} {needle : Option String}

/-- The bill that a complete schedule comes to. -/
def billingOf (outcome : Except Interruption (Closure size)) : Except DumpError (Billing size) :=
  (outcome.map fun closure =>
    { objects := closure.scene.reported, log := some closure.log }).mapError .interrupted

/-- A bill that a complete schedule comes to is that of its result. -/
theorem outcome_of_billingOf {outcome : Except Interruption (Closure size)} {billing : Billing size}
    (billed : billingOf outcome = .ok billing) :
    ∃ closure, outcome = .ok closure ∧
      billing = { objects := closure.scene.reported, log := some closure.log } := by
  cases outcome with
  | error cause => cases billed
  | ok closure =>
    cases billed
    exact ⟨closure, rfl, rfl⟩

/-- The ways in which the bill of a node can come out: under the transitive policy, as any schedule
in which the node's unit is resolved. -/
inductive Concludes (dumper : Dumper size) (key : NodeKey) (options : WalkOptions (Fin size)) :
    Policy → Except DumpError (Billing size) → Prop where
  /-- The builtins are not marked. -/
  | unmarked {policy : Policy} {error : DumpError}
      (failed : dumper.builtinsMarks options = .error error) :
      Concludes dumper key options policy (.error error)
  /-- The bill of the isolated policy. -/
  | isolated {marks : Marks size} {result : Except DumpError (Billing size)}
      (marked : dumper.builtinsMarks options = .ok marks)
      (ended : dumper.billIsolated key options marks = result) :
      Concludes dumper key options .isolated result
  /-- The bill of the reachable policy. -/
  | reachable {marks : Marks size} {result : Except DumpError (Billing size)}
      (marked : dumper.builtinsMarks options = .ok marks)
      (ended : dumper.billReachable key options marks = result) :
      Concludes dumper key options .reachable result
  /-- No pool can be made for the walks of a schedule. -/
  | crowded {marks : Marks size} (marked : dumper.builtinsMarks options = .ok marks)
      (large : permitLimit < (dumper.plan options).permits) :
      Concludes dumper key options .transitive
        (.error (.interrupted (.poolTooLarge (dumper.plan options).permits)))
  /-- The bill of a schedule. -/
  | transitive {marks : Marks size} {state : State size} {result : Except DumpError (Billing size)}
      (marked : dumper.builtinsMarks options = .ok marks)
      (reached : State.Reaches (State.LeadsInside (dumper.plan options))
        (.start (dumper.plan options) key marks dumper.cancelled) state)
      (resolved : state.isResolved key = true) (ended : billingOf (state.outcome key) = result) :
      Concludes dumper key options .transitive result

/-- A bill that a dump makes is one of the ways in which it can come out. -/
theorem concludes_of_bill {billing : Billing size}
    (billed : (dumper.bill key policy report needle).1 = .ok billing) :
    dumper.Concludes key (report.walkOptions needle) policy (.ok billing) := by
  cases marked : dumper.builtinsMarks (report.walkOptions needle) with
  | error error =>
    rw [bill_of_error policy marked] at billed
    cases billed
  | ok marks =>
    rw [bill_of_marks policy marked] at billed
    cases policy with
    | isolated => exact .isolated marked billed
    | reachable => exact .reachable marked billed
    | transitive =>
      have ended : billingOf (Schedule.run (dumper.plan (report.walkOptions needle)) key marks
          dumper.cancelled).1 = .ok billing := billed
      cases result : (Schedule.run (dumper.plan (report.walkOptions needle)) key marks
          dumper.cancelled).1 with
      | error cause =>
        rw [result] at ended
        cases ended
      | ok closure =>
        obtain ⟨state, reached, returned⟩ := run_ok result
        rw [result, ← returned] at ended
        have walked := (State.outcome_ok returned).1
        exact .transitive marked reached (State.isResolved_of_held walked) ended

/-- In an acyclic closure, what a dump comes to is one of the ways in which it can come out. -/
theorem bill_concludes (acyclic : dumper.source.store.Acyclic key) :
    dumper.Concludes key (report.walkOptions needle) policy
      (dumper.bill key policy report needle).1 := by
  cases marked : dumper.builtinsMarks (report.walkOptions needle) with
  | error error =>
    rw [bill_of_error policy marked]
    exact .unmarked marked
  | ok marks =>
    rw [bill_of_marks policy marked]
    cases policy with
    | isolated => exact .isolated marked rfl
    | reachable => exact .reachable marked rfl
    | transitive =>
      let plan := dumper.plan (report.walkOptions needle)
      change dumper.Concludes key (report.walkOptions needle) .transitive
        (billingOf (Schedule.run plan key marks dumper.cancelled).1)
      have acyclicPlan : plan.store.Acyclic key := acyclic
      rcases Nat.lt_or_ge permitLimit plan.permits with large | fits
      · rw [run_crowded large key marks dumper.cancelled]
        exact .crowded marked large
      · obtain ⟨state, reached, resolved, ended⟩ :=
          run_resolved acyclicPlan fits marks dumper.cancelled
        rw [ended]
        exact .transitive marked reached resolved rfl

/-- If no pool can be made for its walks, a schedule does not begin. -/
theorem bill_crowded (live : dumper.cancelled = false)
    (large : permitLimit < (dumper.plan (report.walkOptions needle)).permits) :
    (dumper.bill key .transitive report needle).1 =
      .error (.interrupted (.poolTooLarge (dumper.plan (report.walkOptions needle)).permits)) := by
  obtain ⟨marks, marked, _⟩ := builtinsMarks_closed live (report.walkOptions needle)
  rw [bill_of_marks .transitive marked]
  change billingOf (Schedule.run (dumper.plan (report.walkOptions needle)) key marks
    dumper.cancelled).1 = _
  rw [run_crowded large key marks dumper.cancelled]
  rfl

/-! ## Dumps -/

/-- The report of a mode with what was billed for a node. -/
def reportOf (dumper : Dumper size) (mode : Mode) (key : NodeKey) (billing : Billing size) :
    Report :=
  let tally := dumper.tally billing
  { key, policy := mode.policy, display := mode.display, stats := tally.stats
    rendered := tally.stats.render mode.display, log := tally.log }

/-- The ways in which the dump of the text of a mode can come out. -/
inductive MayDump (dumper : Dumper size) (text : String) : Except DumpError Report → Prop where
  /-- The mode cannot be read. -/
  | unread {error : ModeError} (refused : Mode.parse text = .error error) :
      MayDump dumper text (.error (.resolution (.mode error)))
  /-- The subject cannot be resolved. -/
  | unresolved {mode : Mode} {error : DumpError} (read : Mode.parse text = .ok mode)
      (failed : dumper.source.resolve mode.kind mode.subject = .error error) :
      MayDump dumper text (.error error)
  /-- The bill of the node comes out one way or another. -/
  | concluded {mode : Mode} {key : NodeKey} {result : Except DumpError (Billing size)}
      (read : Mode.parse text = .ok mode)
      (resolved : dumper.source.resolve mode.kind mode.subject = .ok key)
      (concludes : dumper.Concludes key (mode.report.walkOptions mode.needle) mode.policy result) :
      MayDump dumper text (result.map (dumper.reportOf mode key))

/-- A dump comes out without a report if its mode cannot be read or its subject cannot be resolved,
and else as the bill of its node does. -/
theorem MayDump.staged {text : String} {result : Except DumpError Report}
    (dumped : dumper.MayDump text result) :
    match Mode.parse text with
    | .error error => result = .error (.resolution (.mode error))
    | .ok mode =>
      match dumper.source.resolve mode.kind mode.subject with
      | .error error => result = .error error
      | .ok key =>
        ∃ billed, dumper.Concludes key (mode.report.walkOptions mode.needle) mode.policy billed ∧
          result = billed.map (dumper.reportOf mode key) := by
  cases dumped with
  | unread refused => simp only [refused]
  | unresolved read failed => simp only [read, failed]
  | concluded read resolved concludes =>
    simp only [read, resolved]
    exact ⟨_, concludes, rfl⟩

/-- With its subject resolved, a dump is the report of a bill. -/
theorem dump_of_resolved {mode : Mode}
    (resolved : dumper.source.resolve mode.kind mode.subject = .ok key) :
    dumper.dump mode =
      (dumper.bill key mode.policy mode.report mode.needle).1.map (dumper.reportOf mode key) := by
  unfold dump collect
  rw [resolved]
  simp only [bind, Except.bind]
  cases (dumper.bill key mode.policy mode.report mode.needle).1 <;> rfl

/-- What a dump comes to is one of the ways in which it can come out. -/
theorem mayDump_dumpText (acyclic : ∀ key, dumper.source.store.Acyclic key) (text : String) :
    dumper.MayDump text (dumper.dumpText text) := by
  unfold dumpText
  cases read : Mode.parse text with
  | error error => exact .unread read
  | ok mode =>
    change dumper.MayDump text (dumper.dump mode)
    cases resolved : dumper.source.resolve mode.kind mode.subject with
    | error error =>
      unfold dump
      rw [resolved]
      exact .unresolved read resolved
    | ok key =>
      rw [dump_of_resolved resolved]
      exact .concluded read resolved (bill_concludes (acyclic key))

end Dumper

/-! ## Whole stores -/

namespace Source

variable {Value : Type}

/-- A failure is one of resolution. -/
def Unresolved (error : DumpError) : Prop :=
  ∃ cause, error = .resolution cause

/-- A checksum start singles out a configuration or cannot be resolved. -/
theorem configurationStarting_meets (store : Store Value) (start : String) :
    Meets Unresolved (fun _ => True) ((Source.ofStore store).configurationStarting start) := by
  have listed : (Source.ofStore store).realizedConfigurations.mapError .ofFetch =
      (.ok store.realizedConfigurations : Except DumpError _) := rfl
  unfold configurationStarting
  rw [listed]
  simp only [bind, Except.bind]
  split
  · exact trivial
  · exact ⟨_, rfl⟩

/-- The target configuration is set or cannot be resolved. -/
theorem requiredTarget_meets (store : Store Value) :
    Meets Unresolved (fun _ => True) (Source.ofStore store).requiredTarget := by
  have found : (Source.ofStore store).targetConfiguration.mapError .ofFetch =
      (.ok store.target : Except DumpError _) := rfl
  unfold requiredTarget
  rw [found]
  simp only [bind, Except.bind]
  split
  · exact trivial
  · exact ⟨_, rfl⟩

/-- A subject names a key or cannot be resolved. -/
theorem subjectKey_meets (store : Store Value) (kind : SubjectKind) (subject : String) :
    Meets Unresolved (fun _ => True) ((Source.ofStore store).subjectKey kind subject) := by
  have labels : ∀ text, Meets Unresolved (fun _ => True) ((Label.parse text).mapError .ofLabel) :=
    fun text => (Meets.anything _).mapError fun _ _ => ⟨_, rfl⟩
  unfold subjectKey
  cases kind with
  | package =>
    have parsed : Meets Unresolved (fun _ => True) ((PackageId.parse subject).mapError .ofLabel) :=
      (Meets.anything _).mapError fun _ _ => ⟨_, rfl⟩
    exact parsed.bind fun _ _ => trivial
  | starlarkModule => exact (labels subject).bind fun _ _ => trivial
  | configuredTarget =>
    refine (labels (splitConfiguration subject).1).bind ?_
    intro label _
    have configured : Meets Unresolved (fun _ => True)
        ((Source.ofStore store).resolveConfiguration (splitConfiguration subject).2) := by
      cases (splitConfiguration subject).2 with
      | none => exact requiredTarget_meets store
      | some start => exact configurationStarting_meets store start
    exact configured.bind fun _ _ => trivial

/-- A subject is resolved to a node that the store holds, or cannot be resolved. -/
theorem resolve_meets (store : Store Value) (kind : SubjectKind) (subject : String) :
    Meets Unresolved (store.contains · = true) ((Source.ofStore store).resolve kind subject) := by
  refine (subjectKey_meets store kind subject).bind ?_
  intro key _
  have asked : ((Source.ofStore store).contains key).mapError .ofFetch =
      (.ok (store.contains key) : Except DumpError _) := rfl
  rw [asked]
  simp only [bind, Except.bind]
  by_cases held : store.contains key = true
  · rw [if_pos held]
    exact held
  · rw [if_neg held]
    exact ⟨_, rfl⟩

end Source

namespace Dumper

variable {dumper : Dumper size} {key : NodeKey} {policy : Policy} {report : ReportOptions}
  {needle : Option String}

/-- If the whole closure of a node can be fetched, the bill of the node comes about, unless no pool
can be made for the walks of a schedule. -/
theorem Concludes.cases_of_fetchable {result : Except DumpError (Billing size)}
    (live : dumper.cancelled = false)
    (fetchable : ∀ node ∈ dumper.source.store.closure key, dumper.source.store.Fetchable node)
    (concludes : dumper.Concludes key (report.walkOptions needle) policy result) :
    (∃ billing, result = .ok billing) ∨
      policy = .transitive ∧ permitLimit < (dumper.plan (report.walkOptions needle)).permits ∧
        result = .error (.interrupted
          (.poolTooLarge (dumper.plan (report.walkOptions needle)).permits)) := by
  obtain ⟨marks, marked, closed, builtins⟩ := builtinsMarks_exact live report needle
  obtain ⟨value, deps, fetched⟩ := fetchable key (dumper.source.store.self_mem_closure key)
  have only : ∀ {other}, dumper.builtinsMarks (report.walkOptions needle) = .ok other →
      other = marks := by
    intro other again
    rw [marked] at again
    cases again
    rfl
  cases concludes with
  | unmarked failed =>
    rw [marked] at failed
    cases failed
  | isolated again ended =>
    cases only again
    have below : ∀ dep ∈ deps, ∃ other, dumper.source.store.value dep = .ok (some other) := by
      intro dep member
      obtain ⟨other, _, found⟩ := fetchable dep
        (Store.dep_mem_closure (dumper.source.store.self_mem_closure key)
          (fetched.dependsOn.mpr member))
      exact ⟨other, found.1⟩
    obtain ⟨billing, billed, _⟩ := billIsolated_exact live closed builtins fetched below
    exact Or.inl ⟨billing, ended.symm.trans billed⟩
  | reachable again ended =>
    cases only again
    obtain ⟨billing, billed, _⟩ := billReachable_exact live closed builtins fetched.1
    exact Or.inl ⟨billing, ended.symm.trans billed⟩
  | crowded again large => exact Or.inr ⟨rfl, large, rfl⟩
  | transitive again reached resolved ended =>
    rw [live] at reached
    have sound := State.sound_of_reaches (State.reaches_of_inside reached)
    have walked := ((State.blamed_of_reaches reached).walked_iff sound resolved).mpr fetchable
    obtain ⟨closure, returned⟩ := (State.outcome_ok_iff resolved sound.rooted).mpr walked
    rw [returned] at ended
    exact Or.inl ⟨_, ended.symm⟩

/-- Over a whole store, the bill of a node comes about, unless no pool can be made for the walks of
a schedule. -/
theorem Concludes.cases_of_whole {result : Except DumpError (Billing size)}
    (live : dumper.cancelled = false) (whole : dumper.source.store.Whole)
    (held : dumper.source.store.contains key = true)
    (concludes : dumper.Concludes key (report.walkOptions needle) policy result) :
    (∃ billing, result = .ok billing) ∨
      policy = .transitive ∧ permitLimit < (dumper.plan (report.walkOptions needle)).permits ∧
        result = .error (.interrupted
          (.poolTooLarge (dumper.plan (report.walkOptions needle)).permits)) :=
  concludes.cases_of_fetchable live (whole.closure_fetchable held)

/-- Over a whole store, a dump comes out with a report or with a subject that cannot be resolved,
unless no pool can be made for the walks. -/
theorem MayDump.cases_of_whole {text : String} {result : Except DumpError Report}
    (live : dumper.cancelled = false) {store : Store (Fin size)}
    (source : dumper.source = .ofStore store) (whole : store.Whole)
    (dumped : dumper.MayDump text result) :
    (∃ report, result = .ok report) ∨ (∃ cause, result = .error (.resolution cause)) ∨
      ∃ options, permitLimit < (dumper.plan options).permits ∧
        result = .error (.interrupted (.poolTooLarge (dumper.plan options).permits)) := by
  cases dumped with
  | unread refused => exact Or.inr (Or.inl ⟨_, rfl⟩)
  | @unresolved mode error read failed =>
    rw [source] at failed
    obtain ⟨cause, rfl⟩ := (Source.resolve_meets store mode.kind mode.subject).error failed
    exact Or.inr (Or.inl ⟨cause, rfl⟩)
  | @concluded mode key billed read resolved concludes =>
    rw [source] at resolved
    have held : store.contains key = true :=
      (Source.resolve_meets store mode.kind mode.subject).ok resolved
    rcases concludes.cases_of_whole live (by rwa [source]) (by rwa [source]) with
      ⟨billing, rfl⟩ | ⟨_, large, rfl⟩
    · exact Or.inl ⟨_, rfl⟩
    · exact Or.inr (Or.inr ⟨_, large, rfl⟩)

/-- Over a whole store, a dump with its mode read and its subject resolved is reported, if a pool
can be made for its walks. -/
theorem dumpText_reports (live : dumper.cancelled = false) (whole : dumper.source.store.Whole)
    (fits : max (dumper.config.parallelWalks dumper.processors) 1 ≤ permitLimit) {text : String}
    {mode : Mode} (read : Mode.parse text = .ok mode)
    (resolved : dumper.source.resolve mode.kind mode.subject = .ok key)
    (held : dumper.source.store.contains key = true) :
    ∃ report, dumper.dumpText text = .ok report := by
  have staged := (mayDump_dumpText whole.acyclic_closure text).staged
  simp only [read, resolved] at staged
  obtain ⟨billed, concludes, same⟩ := staged
  rcases concludes.cases_of_whole live whole held with ⟨billing, rfl⟩ | ⟨_, large, _⟩
  · exact ⟨_, same⟩
  · exact absurd fits (Nat.not_le.mpr large)

/-- Nothing interrupts what a dumper does, whatever order the units of a schedule move in. -/
structure Undisturbed (dumper : Dumper size) : Prop where
  /-- What a dump comes to is one of the ways in which it can come out. -/
  covers : ∀ text, dumper.MayDump text (dumper.dumpText text)
  /-- A dump comes out with a report or with a subject that cannot be resolved. -/
  settles : ∀ text result, dumper.MayDump text result →
    (∃ report, result = .ok report) ∨ ∃ cause, result = .error (.resolution cause)
  /-- The builtins are marked. -/
  marked : ∀ options, ∃ marks, dumper.builtinsMarks options = .ok marks
  /-- A schedule of a node that is held resolves the node in the end. -/
  returns : ∀ options key marks state, dumper.source.store.contains key = true →
    State.Reaches (State.LeadsInside (dumper.plan options))
      (.start (dumper.plan options) key marks false) state →
    State.Returns (dumper.plan options) key state
  /-- No unit of such a schedule fails. -/
  unfailing : ∀ options key marks state, dumper.source.store.contains key = true →
    State.Reaches (State.LeadsInside (dumper.plan options))
      (.start (dumper.plan options) key marks false) state →
    ∀ (other : NodeKey) (cause : Interruption), state.units[other]? ≠ some (.failed cause)

/-- Over a whole store, nothing interrupts a dumper that is not cancelled, if a pool can be made for
its walks. -/
theorem undisturbed_of_whole (live : dumper.cancelled = false) {store : Store (Fin size)}
    (source : dumper.source = .ofStore store) (whole : store.Whole)
    (fits : max (dumper.config.parallelWalks dumper.processors) 1 ≤ permitLimit) :
    dumper.Undisturbed := by
  have sourceWhole : dumper.source.store.Whole := by rwa [source]
  constructor
  case covers => exact mayDump_dumpText sourceWhole.acyclic_closure
  case settles =>
    intro text result dumped
    rcases dumped.cases_of_whole live source whole with report | refused | ⟨options, large, _⟩
    · exact Or.inl report
    · exact Or.inr refused
    · exact absurd fits (Nat.not_le.mpr large)
  case marked =>
    intro options
    obtain ⟨marks, marked, _⟩ := builtinsMarks_closed live options
    exact ⟨marks, marked⟩
  case returns =>
    intro options key marks state _ reached
    exact State.returns (sourceWhole.acyclic_closure key) reached
  case unfailing =>
    intro options key marks state held reached
    exact (State.blamed_of_reaches reached).not_failed (sourceWhole.closure_fetchable held)

end Dumper

end Retained
