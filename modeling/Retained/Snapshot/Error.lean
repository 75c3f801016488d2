import Retained.NodeKey

/-!
# Failures of snapshots

A snapshot that is not JSON of the right form is malformed. One that is may still be refused for its
contents, and then the failure names the identifier or key at fault.
-/

namespace Retained.Snapshot

/-- Why a snapshot is refused. -/
inductive Refusal where
  /-- It is not JSON of the right form. -/
  | malformed
  /-- Two objects have the same identifier. -/
  | duplicateObject (id : UInt64)
  /-- Something refers to an identifier that no object has. -/
  | unknownObject (id : UInt64)
  /-- An object reaches itself through fields. -/
  | objectCycle (id : UInt64)
  /-- A node is defined twice. -/
  | duplicateNode (key : NodeKey)
  /-- A node depends on a node that is not defined. -/
  | unknownDependency (key dep : NodeKey)
  /-- A node depends on itself through others or directly. -/
  | dependencyCycle (key : NodeKey)
  /-- The target configuration is not defined. -/
  | unknownConfiguration (checksum : String)
deriving DecidableEq, Repr

/-- The text shown for a refused snapshot. -/
def Refusal.message : Refusal → String
  | malformed => "malformed snapshot: not a snapshot in JSON"
  | duplicateObject id => "duplicate object id " ++ toString id.toNat
  | unknownObject id => "reference to unknown object id " ++ toString id.toNat
  | objectCycle id => "object reference cycle through id " ++ toString id.toNat
  | duplicateNode key => "duplicate node " ++ key.render
  | unknownDependency key dep =>
    "node " ++ key.render ++ " depends on unknown node " ++ dep.render
  | dependencyCycle key => "dependency cycle through node " ++ key.render
  | unknownConfiguration checksum =>
    "target configuration " ++ checksum ++ " is not a realized configuration"

end Retained.Snapshot
