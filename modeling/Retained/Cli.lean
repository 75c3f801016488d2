import Retained.Dump.Basic
import Retained.Snapshot.Load

/-!
# The command line

A run of the program takes a snapshot file and a mode, and prints the text of one dump. It ends with
status 0 on success, 1 if it is called wrongly or the snapshot cannot be loaded, 2 if the subject
cannot be resolved, 3 if the dump is interrupted, and 101 if no pool can be made for the walks. What
is checked first is reported first: the arguments, the snapshot, the mode, the subject.

The surroundings of a run are given as functions, so that a run is a function of its arguments.
-/

namespace Retained.Cli

/-- What an attempt to read a file gives. -/
inductive FileContents where
  /-- The file holds a text. -/
  | text (text : String)
  /-- The file can be opened and holds no text. -/
  | noText
  /-- The file cannot be opened. -/
  | unreadable (reason : String)
deriving DecidableEq, Repr

/-- How a run ends. -/
structure Outcome where
  /-- The exit status. -/
  exit : UInt8
  /-- What is printed as the result. -/
  stdout : String
  /-- What is printed as a complaint. -/
  stderr : String
deriving DecidableEq, Repr

/-- What a run sees besides its arguments. -/
structure Surroundings where
  /-- The variables of the environment. -/
  setting : String → Option String
  /-- The files by their paths. -/
  file : String → FileContents
  /-- The number of processors that may be used at once, if the system tells. -/
  processors : Option Nat := none

/-- What keeps a run from a dump. -/
inductive Failure where
  /-- The arguments are not a snapshot and a mode. -/
  | usage
  /-- The snapshot file cannot be read. -/
  | unreadable (reason : String)
  /-- The snapshot is refused. -/
  | snapshot (refusal : Snapshot.Refusal)
  /-- The dump fails. -/
  | dump (error : DumpError)
deriving DecidableEq, Repr

namespace Failure

/-- How the program is called. -/
def usageText : String :=
  "usage: footprint_dump <snapshot.json> <mode>\n" ++
    "  mode: <policy>,<display>[,needle=<s>]" ++
    "[,notransient|noconfig|noprecomputed|noworkspacestatus]:<kind>:<subject>"

/-- The complaint about a failure. -/
def message : Failure → String
  | usage => usageText
  | unreadable reason => "cannot read snapshot: " ++ reason
  | snapshot refusal => refusal.message
  | dump error => error.message

/-- The exit status of a failure. -/
def exit : Failure → UInt8
  | usage => 1
  | unreadable _ => 1
  | snapshot _ => 1
  | dump (.resolution _) => 2
  | dump (.interrupted (.poolTooLarge _)) => 101
  | dump (.interrupted _) => 3

end Failure

/-- The snapshot in a file. -/
def load (contents : FileContents) : Except Failure Snapshot.Loaded :=
  match contents with
  | .text text => (Snapshot.load text).mapError .snapshot
  | .noText => .error (.snapshot .malformed)
  | .unreadable reason => .error (.unreadable reason)

/-- The dump facility over a snapshot, with standard measurers and never cancelled. -/
def dumper (loaded : Snapshot.Loaded) (config : Config)
    (processors : Nat := Config.assumedProcessors) : Dumper loaded.size :=
  { heap := loaded.heap
    source := .ofStore loaded.store
    builtins := loaded.builtins
    config
    measurers := Measurer.standard
    cancelled := false
    processors }

/-- The dump facility of a run. -/
def Surroundings.dumper (surroundings : Surroundings) (loaded : Snapshot.Loaded) :
    Dumper loaded.size :=
  Cli.dumper loaded (Config.ofLookup surroundings.setting)
    (surroundings.processors.getD Config.assumedProcessors)

/-- The files that a run with some arguments reads. -/
def paths : List String → List String
  | [path, _] => [path]
  | _ => []

/-- The dump that arguments ask for. -/
def report (surroundings : Surroundings) (arguments : List String) : Except Failure Report :=
  match arguments with
  | [path, mode] => do
    let loaded ← load (surroundings.file path)
    ((surroundings.dumper loaded).dumpText mode).mapError .dump
  | _ => .error .usage

/-- How a run ends with a report, or without one. -/
def conclude : Except Failure Report → Outcome
  | .ok report => { exit := 0, stdout := report.rendered, stderr := "" }
  | .error failure => { exit := failure.exit, stdout := "", stderr := failure.message ++ "\n" }

/-- A run of the program. -/
def run (surroundings : Surroundings) (arguments : List String) : Outcome :=
  conclude (report surroundings arguments)

end Retained.Cli
