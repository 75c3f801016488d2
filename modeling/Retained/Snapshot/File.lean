import Retained.Heap.Object
import Retained.NodeKey

/-!
# Snapshot files

A snapshot is a frozen copy of a build graph with the objects that hang off its nodes. Objects are
listed once under numeric identifiers; fields, node values and the builtins root refer to them by
identifier. The order of the lists carries no meaning beyond the order of fields and dependencies.
-/

namespace Retained.Snapshot

/-- An object under its identifier; its fields refer by identifier. -/
structure ObjectRecord where
  /-- The identifier. -/
  id : UInt64
  /-- The object. -/
  object : HeapObject UInt64
deriving DecidableEq, Repr

/-- A node, its value's identifier, and the nodes it depends on. -/
structure NodeRecord where
  /-- The node. -/
  key : NodeKey
  /-- The identifier of its value. -/
  value : UInt64
  /-- The nodes it depends on. -/
  deps : List NodeKey
deriving DecidableEq, Repr

/-- A build configuration: its checksum, or the options it is computed from, and its value's
identifier. -/
structure ConfigurationRecord where
  /-- The checksum, if it is given. -/
  checksum : Option String
  /-- The options. -/
  options : Options
  /-- The identifier of its value. -/
  value : UInt64

/-- The key of a configuration: the given checksum, or else that of the options. -/
def ConfigurationRecord.key (record : ConfigurationRecord) : ConfigurationKey :=
  match record.checksum with
  | some checksum => { checksum }
  | none => .ofOptions record.options

/-- A snapshot. -/
structure File where
  /-- The objects. -/
  objects : List ObjectRecord
  /-- The nodes other than configurations. -/
  nodes : List NodeRecord
  /-- The configurations. -/
  configurations : List ConfigurationRecord
  /-- The checksum of the target configuration, if the build has one. -/
  targetConfiguration : Option String
  /-- The identifier of the builtins root, if there is one. -/
  builtins : Option UInt64

end Retained.Snapshot
