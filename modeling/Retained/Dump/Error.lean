import Retained.Label.Basic
import Retained.Mode.Basic
import Retained.Store.Basic

/-!
# Failures of dumps

A dump fails in one of two ways: its subject cannot be resolved to a node, or it is interrupted
before its tally is complete, by cancellation or by a failing fetch. A tally is never partial.
-/

namespace Retained

/-- Why a subject cannot be resolved. -/
inductive ResolutionError where
  /-- Its label or package cannot be read. -/
  | label (error : LabelError)
  /-- The mode that holds it cannot be read. -/
  | mode (error : ModeError)
  /-- Not exactly one realized configuration has a checksum with this start. -/
  | ambiguousConfiguration (start : String) (candidates : Nat)
  /-- It names no configuration and the build has no target configuration. -/
  | noTargetConfiguration
  /-- Its node is not in the graph. -/
  | nodeNotPresent (key : NodeKey)
deriving DecidableEq, Repr

/-- The text shown for an unresolved subject. -/
def ResolutionError.message : ResolutionError → String
  | label error => "Cannot parse label: " ++ error.message
  | mode error => "Invalid memory mode: " ++ error.message
  | ambiguousConfiguration start candidates =>
    "ambiguous configuration '" ++ start ++ "': " ++ toString candidates ++
      " candidates match, list the realized configurations to pick one"
  | noTargetConfiguration =>
    "no target configuration is available; specify a configuration checksum prefix"
  | nodeNotPresent key => "The requested node is not present: " ++ key.render

/-- Why a dump was interrupted. -/
inductive Interruption where
  /-- A fetch failed. -/
  | fetch (error : FetchError)
  /-- A node of the graph has no value. -/
  | vanished (key : NodeKey)
  /-- An object walk saw the cancellation. -/
  | walkCancelled
  /-- A unit of work saw the cancellation. -/
  | dumpCancelled
  /-- Units of work wait for each other. -/
  | stalled
  /-- A pool cannot be made for so many walks at once. -/
  | poolTooLarge (walks : Nat)
deriving DecidableEq, Repr

/-- The reason in words. -/
def Interruption.reason : Interruption → String
  | fetch error => "graph fetch failed: " ++ error.message
  | vanished key => "node " ++ key.render ++ " vanished from the graph"
  | walkCancelled => "cancelled during object walk"
  | dumpCancelled => "dump cancelled"
  | stalled => "units wait for each other"
  | poolTooLarge walks => "no walk pool of " ++ toString walks ++ " permits can be made"

/-- Why a dump failed. -/
inductive DumpError where
  /-- Its subject cannot be resolved. -/
  | resolution (error : ResolutionError)
  /-- It was interrupted. -/
  | interrupted (cause : Interruption)
deriving DecidableEq, Repr

namespace DumpError

/-- The text shown for a failed dump. -/
def message : DumpError → String
  | resolution error => error.message
  | interrupted cause => "memory dump interrupted: " ++ cause.reason

/-- The failure of a dump for a failed fetch. -/
def ofFetch (error : FetchError) : DumpError :=
  .interrupted (.fetch error)

/-- The failure of a dump for an unreadable label. -/
def ofLabel (error : LabelError) : DumpError :=
  .resolution (.label error)

end DumpError

end Retained
