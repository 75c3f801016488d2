import Retained.Cli
import Retained.Proofs.Dump.Outcome
import Retained.Proofs.Dump.Resolve
import Retained.Proofs.Snapshot.Echo
import Retained.Proofs.Snapshot.Load

/-!
# Runs of the program

A snapshot that is loaded makes a whole store, so nothing in it can interrupt a dump. What is left
for a run of the program is to be called wrongly, to have no snapshot, not to resolve its subject,
to have no pool for its walks, or to print its report (`Cli.uninterrupted`). `Cli.MayEnd` lists the
ways in which a run can end, whatever order the units of its schedule move in.
-/

namespace Retained.Cli

open Schedule

/-- The ways in which a run can end. -/
inductive MayEnd (surroundings : Surroundings) : List String → Outcome → Prop where
  /-- The program is called wrongly. -/
  | misused {arguments : List String} (strange : arguments.length ≠ 2) :
      MayEnd surroundings arguments (conclude (.error .usage))
  /-- There is no snapshot. -/
  | unloaded {path mode : String} {failure : Failure}
      (refused : load (surroundings.file path) = .error failure) :
      MayEnd surroundings [path, mode] (conclude (.error failure))
  /-- The dump comes out one way or another. -/
  | dumped {path mode : String} {loaded : Snapshot.Loaded} {result : Except DumpError Report}
      (accepted : load (surroundings.file path) = .ok loaded)
      (comes : (surroundings.dumper loaded).MayDump mode result) :
      MayEnd surroundings [path, mode] (conclude (result.mapError .dump))

variable {surroundings : Surroundings} {arguments : List String} {outcome : Outcome}

/-- A file is loaded to a whole store, or the run ends with the status for it. -/
theorem load_meets (contents : FileContents) :
    Meets (fun failure => failure.exit = 1) (fun loaded => loaded.store.Whole) (load contents) := by
  cases contents with
  | text text =>
    have parsed : Meets (fun _ => True) (fun _ => True) (Snapshot.File.parse text) := .anything _
    have loads : Meets (fun _ => True) (fun loaded => loaded.store.Whole) (Snapshot.load text) :=
      parsed.bind fun file _ => Snapshot.load_whole file
    exact loads.mapError fun _ _ => rfl
  | noText => exact (rfl : (1 : UInt8) = 1)
  | unreadable reason => exact (rfl : (1 : UInt8) = 1)

/-- With two arguments, a run loads a snapshot and dumps it. -/
theorem report_eq (surroundings : Surroundings) (path mode : String) :
    report surroundings [path, mode] = (load (surroundings.file path)).bind
      fun loaded => ((surroundings.dumper loaded).dumpText mode).mapError .dump :=
  rfl

/-- A dump that is reported is printed. -/
theorem run_of_dumped {path mode : String} {loaded : Snapshot.Loaded} {result : Report}
    (accepted : load (surroundings.file path) = .ok loaded)
    (dumped : (surroundings.dumper loaded).dumpText mode = .ok result) :
    run surroundings [path, mode] = { exit := 0, stdout := result.rendered, stderr := "" } := by
  rw [run, report_eq, accepted, Except.bind, dumped]
  rfl

/-- A text that writes a snapshot is loaded as that. -/
theorem load_text {text : String} {loaded : Snapshot.Loaded}
    (accepted : Snapshot.load text = .ok loaded) : load (.text text) = .ok loaded := by
  rw [load, accepted]
  rfl

/-- A run ends in one of the ways in which it can end. -/
theorem mayEnd_run (surroundings : Surroundings) (arguments : List String) :
    MayEnd surroundings arguments (run surroundings arguments) := by
  match arguments with
  | [] => exact .misused (by decide)
  | [_] => exact .misused (by simp)
  | _ :: _ :: _ :: _ => exact .misused (by simp)
  | [path, mode] =>
    rw [run, report_eq]
    cases accepted : load (surroundings.file path) with
    | error failure => exact .unloaded accepted
    | ok loaded =>
      have whole : (surroundings.dumper loaded).source.store.Whole := (load_meets _).ok accepted
      exact .dumped accepted (Dumper.mayDump_dumpText whole.acyclic_closure mode)

/-- No failure has the status of success. -/
theorem conclude_exit_ne_zero (failure : Failure) : (conclude (.error failure)).exit ≠ 0 := by
  change failure.exit ≠ 0
  cases failure with
  | dump error =>
    cases error with
    | resolution cause => exact (by decide : (2 : UInt8) ≠ 0)
    | interrupted cause =>
      cases cause with
      | poolTooLarge walks => exact (by decide : (101 : UInt8) ≠ 0)
      | _ => exact (by decide : (3 : UInt8) ≠ 0)
  | _ => exact (by decide : (1 : UInt8) ≠ 0)

/-- What a run that succeeds has printed is the report of a dump. -/
theorem MayEnd.success (ends : MayEnd surroundings arguments outcome)
    (succeeds : outcome.exit = 0) :
    ∃ path mode loaded report, arguments = [path, mode] ∧
      load (surroundings.file path) = .ok loaded ∧
      (surroundings.dumper loaded).MayDump mode (.ok report) ∧
      outcome.stdout = report.rendered := by
  cases ends with
  | misused strange => exact absurd succeeds (conclude_exit_ne_zero _)
  | unloaded refused => exact absurd succeeds (conclude_exit_ne_zero _)
  | @dumped path mode loaded result accepted comes =>
    cases result with
    | error error => exact absurd succeeds (conclude_exit_ne_zero _)
    | ok report => exact ⟨path, mode, loaded, report, rfl, accepted, comes, rfl⟩

/-- A run that does not succeed prints nothing as its result. -/
theorem MayEnd.silent (ends : MayEnd surroundings arguments outcome) (fails : outcome.exit ≠ 0) :
    outcome.stdout = "" := by
  cases ends with
  | misused strange => rfl
  | unloaded refused => rfl
  | @dumped path mode loaded result accepted comes =>
    cases result with
    | error error => rfl
    | ok report => exact absurd rfl fails

/-- Only dumps that are interrupted have the status of interruption, and no run is interrupted. -/
theorem MayEnd.exit_ne_interrupted (ends : MayEnd surroundings arguments outcome) :
    outcome.exit ≠ 3 := by
  cases ends with
  | misused strange => exact (by decide : (1 : UInt8) ≠ 3)
  | @unloaded path mode failure refused =>
    have early : failure.exit = 1 := (load_meets _).error refused
    change failure.exit ≠ 3
    rw [early]
    decide
  | @dumped path mode loaded result accepted comes =>
    have whole : loaded.store.Whole := (load_meets _).ok accepted
    rcases comes.cases_of_whole rfl rfl whole with
      ⟨report, rfl⟩ | ⟨cause, rfl⟩ | ⟨options, _, rfl⟩
    · exact (by decide : (0 : UInt8) ≠ 3)
    · exact (by decide : (2 : UInt8) ≠ 3)
    · exact (by decide : (101 : UInt8) ≠ 3)

/-- **A loaded snapshot never interrupts a dump.** Let a snapshot be loaded, and a dumper be given
over its store that is not cancelled and whose configuration allows for a pool. Whatever order the
units of a schedule move in, every dump comes out with a report or with a subject that cannot be
resolved: the builtins are marked, every schedule resolves its node in the end, and no unit fails.
So a run of the program never ends with the status of an interruption. It prints a result only if it
succeeds, and then the result is the rendered report of the dump that its arguments ask for. -/
theorem uninterrupted :
    (∀ (file : Snapshot.File) (loaded : Snapshot.Loaded) (dumper : Dumper loaded.size),
      file.load = .ok loaded → dumper.source = .ofStore loaded.store → dumper.cancelled = false →
      max (dumper.config.parallelWalks dumper.processors) 1 ≤ permitLimit → dumper.Undisturbed) ∧
    ∀ (surroundings : Surroundings) (arguments : List String),
      MayEnd surroundings arguments (run surroundings arguments) ∧
      ∀ outcome, MayEnd surroundings arguments outcome →
        outcome.exit ≠ 3 ∧ (outcome.exit ≠ 0 → outcome.stdout = "") ∧
        (outcome.exit = 0 → ∃ path mode loaded report, arguments = [path, mode] ∧
          load (surroundings.file path) = .ok loaded ∧
          (surroundings.dumper loaded).MayDump mode (.ok report) ∧
          outcome.stdout = report.rendered) := by
  constructor
  · intro file loaded dumper accepted source live fits
    have whole : loaded.store.Whole := (Snapshot.load_whole file).ok accepted
    exact Dumper.undisturbed_of_whole live source whole fits
  · intro surroundings arguments
    refine ⟨mayEnd_run surroundings arguments, ?_⟩
    intro outcome ends
    exact ⟨ends.exit_ne_interrupted, ends.silent, ends.success⟩

/-- Surroundings with the text of the pair in every file and no settings. -/
def pairSurroundings : Surroundings where
  setting _ := none
  file _ := .text (Snapshot.File.pair [Snapshot.mainPackage "lower"]).toText

/-- The arguments for a transitive dump of the upper node of the pair. -/
def pairArguments : List String :=
  ["pair.json", "transitive,count:package:upper"]

/-- The upper node of the pair is dumped. -/
theorem pair_succeeds : (run pairSurroundings pairArguments).exit = 0 := by
  obtain ⟨loaded, accepted⟩ := Snapshot.File.pair_wellFormed.loads
  obtain ⟨_, mirrors⟩ := (Snapshot.load_meets _).ok accepted
  have whole : (pairSurroundings.dumper loaded).source.store.Whole :=
    (Snapshot.load_whole _).ok accepted
  have loads : load (pairSurroundings.file "pair.json") = .ok loaded :=
    load_text ((Snapshot.load_toText _).trans accepted)
  have held : loaded.store.contains (Snapshot.mainPackage "upper") = true :=
    (mirrors.held _).mpr (by decide)
  have read : Mode.parse "transitive,count:package:upper" = .ok {
      policy := .transitive, display := .count, kind := .package, needle := none
      report := .all, subject := "upper" } := by
    decide +kernel
  have named : (pairSurroundings.dumper loaded).source.subjectKey .package "upper" =
      .ok (Snapshot.mainPackage "upper") := by
    have parsed : PackageId.parse "upper" = .ok { repository := "", path := "upper" } := by
      decide +kernel
    rw [Source.subjectKey, parsed]
    rfl
  have resolved := Source.resolve_of_subjectKey named (congrArg Except.ok held)
  obtain ⟨report, dumped⟩ :=
    Dumper.dumpText_reports rfl whole Config.standard_fits read resolved held
  rw [pairArguments, run_of_dumped loads dumped]

/-- **The pair is dumped.** It is loaded and nothing interrupts its dumps, and the run over its text
ends with the status of success and prints the rendered report of a transitive dump. -/
theorem uninterrupted_pair :
    (∃ loaded, (Snapshot.File.pair [Snapshot.mainPackage "lower"]).load = .ok loaded ∧
      (dumper loaded .standard).Undisturbed) ∧
    (run pairSurroundings pairArguments).exit = 0 ∧
    ∃ path mode loaded report, pairArguments = [path, mode] ∧
      load (pairSurroundings.file path) = .ok loaded ∧
      (pairSurroundings.dumper loaded).MayDump mode (.ok report) ∧
      (run pairSurroundings pairArguments).stdout = report.rendered := by
  constructor
  · obtain ⟨loaded, accepted⟩ := Snapshot.File.pair_wellFormed.loads
    exact ⟨loaded, accepted,
      uninterrupted.1 _ loaded (dumper loaded .standard) accepted rfl rfl Config.standard_fits⟩
  · obtain ⟨ends, rule⟩ := uninterrupted.2 pairSurroundings pairArguments
    exact ⟨pair_succeeds, (rule _ ends).2.2 pair_succeeds⟩

end Retained.Cli
