import Retained.Cli

/-!
# The program

This is the only module that touches the world: it reads the snapshot file and the environment,
hands them to `Cli.run`, prints what comes back and exits with its status.
-/

namespace Retained

/-- Why a file cannot be opened, with the number that the system gives the reason. -/
def openingFailure : IO.Error → String
  | .noFileOrDirectory _ _ _ => "No such file or directory (os error 2)"
  | .permissionDenied _ _ _ => "Permission denied (os error 13)"
  | error => toString error

/-- What reading a file gives. -/
def readFile (path : String) : IO Cli.FileContents := do
  match ← (IO.FS.Handle.mk path .read).toBaseIO with
  | .error error => return .unreadable (openingFailure error)
  | .ok handle =>
    match ← handle.readBinToEnd.toBaseIO with
    | .error _ => return .noText
    | .ok bytes =>
      match String.fromUTF8? bytes with
      | some text => return .text text
      | none => return .noText

/-- The variables that a run reads, with their values. -/
def readEnvironment : IO (List (String × String)) :=
  [Config.walksVariable, Config.builtinsVariable].filterMapM fun name => do
    return (← IO.getEnv name).map fun value => (name, value)

end Retained

/-- Run the program on its arguments. -/
def main (arguments : List String) : IO UInt32 := do
  let environment ← Retained.readEnvironment
  let files ← (Retained.Cli.paths arguments).mapM fun path => do
    return (path, ← Retained.readFile path)
  let surroundings : Retained.Cli.Surroundings := {
    setting := fun name => environment.lookup name
    file := fun path => (files.lookup path).getD (.unreadable "not read")
    -- Lean has no call for the number of processors.
    processors := none }
  let outcome := Retained.Cli.run surroundings arguments
  IO.print outcome.stdout
  IO.eprint outcome.stderr
  return outcome.exit.toUInt32
