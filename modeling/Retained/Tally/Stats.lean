import Std.Data.ExtTreeMap
import Retained.Json.Record

/-!
# Memory statistics

What a dump has billed: the number of objects and their bytes, in all and for each class. All counts
are 64-bit words.
-/

namespace Retained

/-- Words by class, in the order of the classes. -/
abbrev ClassTable := Std.ExtTreeMap String UInt64 compare

/-- What has been billed. -/
structure MemoryStats where
  /-- The number of objects. -/
  objectCount : UInt64
  /-- Their bytes. -/
  memoryUse : UInt64
  /-- The number of objects of each class. -/
  countByClass : ClassTable
  /-- The bytes of each class. -/
  bytesByClass : ClassTable

namespace MemoryStats

/-- Whether nothing has been billed. -/
def isEmpty (stats : MemoryStats) : Bool :=
  stats.objectCount == 0

/-- The number of objects of a class. -/
def countOf (stats : MemoryStats) (className : String) : UInt64 :=
  stats.countByClass.getD className 0

/-- The bytes of a class. -/
def bytesOf (stats : MemoryStats) (className : String) : UInt64 :=
  stats.bytesByClass.getD className 0

/-- A word as a JSON number. -/
def wordJson (word : UInt64) : Json :=
  .ofNat word.toNat

/-- A table as a JSON object. -/
def tableJson (table : ClassTable) : Json :=
  .ofMembers (table.toList.map fun (className, word) => (className, wordJson word))

/-- Statistics as a JSON object. -/
def toJson (stats : MemoryStats) : Json :=
  .ofMembers [
    ("object_count", wordJson stats.objectCount),
    ("memory_use", wordJson stats.memoryUse),
    ("count_by_class", tableJson stats.countByClass),
    ("bytes_by_class", tableJson stats.bytesByClass)]

/-- The statistics that a JSON value writes. -/
def ofJson? (json : Json) : Option MemoryStats := do
  let members ← json.record? ["object_count", "memory_use", "count_by_class", "bytes_by_class"]
  return {
    objectCount := ← members.required "object_count" Json.word64?
    memoryUse := ← members.required "memory_use" Json.word64?
    countByClass := ← members.required "count_by_class" (Json.table? Json.word64?)
    bytesByClass := ← members.required "bytes_by_class" (Json.table? Json.word64?) }

end MemoryStats

end Retained
