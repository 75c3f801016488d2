import Retained.Mode.Words
import Retained.Tally.Stats

/-!
# Printing statistics

The summary is one line. A class table has a line for each class, the largest value first and
classes of equal value in their own order.
-/

namespace Retained.MemoryStats

/-- The entries of a table, by value from the largest on, equal values by class. -/
def ranked (table : ClassTable) : List (String × UInt64) :=
  table.toList.mergeSort fun left right => decide (right.2 ≤ left.2)

/-- The line of one class. -/
def renderEntry (entry : String × UInt64) : String :=
  entry.1 ++ ": " ++ toString entry.2.toNat ++ "\n"

/-- The lines of a table. -/
def renderTable (table : ClassTable) : String :=
  String.join ((ranked table).map renderEntry)

/-- The text of statistics under a display. -/
def render (stats : MemoryStats) : Display → String
  | .summary =>
    toString stats.objectCount.toNat ++ " objects, " ++ toString stats.memoryUse.toNat ++
      " bytes retained\n"
  | .count => renderTable stats.countByClass
  | .bytes => renderTable stats.bytesByClass

end Retained.MemoryStats
