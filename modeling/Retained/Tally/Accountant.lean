import Retained.Heap.Size
import Retained.Tally.Stats

/-!
# The accountant

The accountant counts objects and adds up their sizes, in all and for each class. A size comes from
the first measurer that claims the object, and is the object's shallow size if none does. Sums are
modulo `2 ^ 64`.
-/

namespace Retained

/-- A way to measure some objects. -/
structure Measurer (Ref : Type) where
  /-- Whether the measurer is meant for an object. -/
  claims : HeapObject Ref → Bool
  /-- The size that the measurer gives an object. -/
  sizeOf : HeapObject Ref → UInt64

namespace Measurer

variable {Ref : Type}

/-- Measures every object alone. -/
def shallow : Measurer Ref where
  claims _ := true
  sizeOf object := object.shape.shallowBytes

/-- Measures hash tables with their tables and entries. -/
def collection : Measurer Ref where
  claims object := object.shape.isCollection
  sizeOf object := object.shape.ownedBytes

/-- Gives the objects of one class a fixed size. -/
def fixed (className : String) (bytes : UInt64) : Measurer Ref where
  claims object := object.className == className
  sizeOf _ := bytes

/-- The measurers of a dump that names none. -/
def standard : List (Measurer Ref) :=
  [collection]

/-- The size of an object under a list of measurers. -/
def measure (measurers : List (Measurer Ref)) (object : HeapObject Ref) : UInt64 :=
  match measurers.find? fun measurer => measurer.claims object with
  | some measurer => measurer.sizeOf object
  | none => object.shape.shallowBytes

end Measurer

/-- The counters of one class. -/
structure ClassTotals where
  /-- The number of objects. -/
  count : UInt64
  /-- Their bytes. -/
  bytes : UInt64
deriving DecidableEq, Repr

namespace ClassTotals

/-- Nothing counted. -/
def zero : ClassTotals :=
  { count := 0, bytes := 0 }

/-- One more object of a size. -/
def add (totals : ClassTotals) (bytes : UInt64) : ClassTotals :=
  { count := totals.count + 1, bytes := totals.bytes + bytes }

end ClassTotals

/-- An accountant and what it has counted. -/
structure Accountant (Ref : Type) where
  /-- The measurers, the first that claims an object counting. -/
  measurers : List (Measurer Ref)
  /-- The counters of every class met. -/
  classes : Std.ExtTreeMap String ClassTotals compare
  /-- The counters over all classes. -/
  total : ClassTotals

namespace Accountant

variable {Ref : Type}

/-- An accountant that has counted nothing. -/
def start (measurers : List (Measurer Ref)) : Accountant Ref :=
  { measurers, classes := ∅, total := .zero }

/-- The size that the accountant gives an object. -/
def measure (accountant : Accountant Ref) (object : HeapObject Ref) : UInt64 :=
  Measurer.measure accountant.measurers object

/-- The accountant after one more object. -/
def record (accountant : Accountant Ref) (object : HeapObject Ref) : Accountant Ref :=
  let bytes := accountant.measure object
  { accountant with
    classes := accountant.classes.alter object.className fun totals =>
      some ((totals.getD .zero).add bytes)
    total := accountant.total.add bytes }

/-- The accountant after some more objects, in order. -/
def recordAll (accountant : Accountant Ref) (objects : List (HeapObject Ref)) :
    Accountant Ref :=
  objects.foldl record accountant

/-- The accountant after one object many times. -/
def recordTimes (accountant : Accountant Ref) (object : HeapObject Ref) (times : Nat) :
    Accountant Ref :=
  Nat.repeat (record · object) times accountant

/-- What has been counted. -/
def stats (accountant : Accountant Ref) : MemoryStats :=
  { objectCount := accountant.total.count
    memoryUse := accountant.total.bytes
    countByClass := accountant.classes.map fun _ totals => totals.count
    bytesByClass := accountant.classes.map fun _ totals => totals.bytes }

/-- The text that shows an accountant in diagnostics. -/
def describe (accountant : Accountant Ref) : String :=
  "MemoryAccountant \x7b measurers: " ++ toString accountant.measurers.length ++
    ", object_count: " ++ toString accountant.total.count.toNat ++
    ", memory_use: " ++ toString accountant.total.bytes.toNat ++ " \x7d"

end Accountant

end Retained
