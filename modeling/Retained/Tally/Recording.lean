import Retained.Tally.Accountant

/-!
# Recording side by side

Several callers record objects into one accountant at once. The counters of a class are in a cell of
their own, and the accountant keeps a table that says in which. To record an object is a call that
takes several steps: it looks the class up; if it does not find the class, it makes the counters,
unless another call has made them meanwhile; then it adds to four counters, one after the other.
Each step is one access to what the callers share, and any caller that has something left to do may
be the next to take one.
-/

namespace Retained.Recording

/-- What is counted of objects. -/
inductive Column where
  /-- Their number. -/
  | count
  /-- Their bytes. -/
  | bytes
deriving DecidableEq, Repr

namespace Column

/-- A column of some counters. -/
def get (column : Column) (totals : ClassTotals) : UInt64 :=
  match column with
  | count => totals.count
  | bytes => totals.bytes

/-- What an object of a size adds to a column. -/
def amount (column : Column) (size : UInt64) : UInt64 :=
  match column with
  | count => 1
  | bytes => size

/-- Add an object of a size to one column of some counters. -/
def addTo (column : Column) (size : UInt64) (totals : ClassTotals) : ClassTotals :=
  match column with
  | count => { totals with count := totals.count + column.amount size }
  | bytes => { totals with bytes := totals.bytes + column.amount size }

end Column

/-- The counters that a call adds to. -/
inductive Counter where
  /-- A counter of the class of the object. -/
  | ofClass (column : Column)
  /-- A counter over all classes. -/
  | ofAll (column : Column)
deriving DecidableEq, Repr

/-- The counters in the order in which a call adds to them. -/
def Counter.order : List Counter :=
  [ofClass .count, ofClass .bytes, ofAll .count, ofAll .bytes]

/-- What callers share: the counters. -/
structure Ledger where
  /-- The cell in which the counters of a class are, for every class that has been met. -/
  table : Std.ExtTreeMap String Nat compare
  /-- The counters by cell. -/
  cells : Array ClassTotals
  /-- The counters over all classes. -/
  total : ClassTotals

namespace Ledger

/-- Nothing counted. -/
def empty : Ledger :=
  { table := ∅, cells := #[], total := .zero }

/-- Make the counters of a class that has none, in a cell of their own. -/
def make (ledger : Ledger) (className : String) : Ledger :=
  { ledger with
    table := ledger.table.insert className ledger.cells.size
    cells := ledger.cells.push .zero }

/-- The cell of a class; if the class has no counters, they are made. -/
def ensure (ledger : Ledger) (className : String) : Nat × Ledger :=
  match ledger.table[className]? with
  | some cell => (cell, ledger)
  | none => (ledger.cells.size, ledger.make className)

/-- Add an object of a size to one counter; those of its class are in a cell. -/
def add (ledger : Ledger) (counter : Counter) (cell : Nat) (size : UInt64) : Ledger :=
  match counter with
  | .ofClass column => { ledger with cells := ledger.cells.modify cell (column.addTo size) }
  | .ofAll column => { ledger with total := column.addTo size ledger.total }

/-- The counters of every class that has been met. -/
def classes (ledger : Ledger) : Std.ExtTreeMap String ClassTotals compare :=
  ledger.table.map fun _ cell => ledger.cells.getD cell .zero

/-- What has been counted. -/
def stats (ledger : Ledger) : MemoryStats :=
  { objectCount := ledger.total.count
    memoryUse := ledger.total.bytes
    countByClass := ledger.classes.map fun _ totals => totals.count
    bytesByClass := ledger.classes.map fun _ totals => totals.bytes }

end Ledger

/-- A call that records an object, which it has measured. -/
inductive Call (Ref : Type) where
  /-- It has not found the class. -/
  | missed (object : HeapObject Ref) (size : UInt64)
  /-- It has the counters of the class in a cell; those left to add to stand first. -/
  | adding (object : HeapObject Ref) (size : UInt64) (cell : Nat) (due : List Counter)

/-- A caller that records some objects, one after the other. -/
structure Caller (Ref : Type) where
  /-- The call under way. -/
  call : Option (Call Ref)
  /-- The objects still to be recorded after it. -/
  left : List (HeapObject Ref)

namespace Caller

variable {Ref : Type}

/-- A caller that has not begun. -/
def start (objects : List (HeapObject Ref)) : Caller Ref :=
  { call := none, left := objects }

/-- Whether all calls of a caller have returned. -/
def isDone (caller : Caller Ref) : Bool :=
  caller.call.isNone && caller.left.isEmpty

/-- The next step of a caller and what it makes of the ledger, unless it is done. -/
def step (measurers : List (Measurer Ref)) (caller : Caller Ref) (ledger : Ledger) :
    Option (Caller Ref × Ledger) :=
  match caller.call, caller.left with
  | none, [] => none
  | none, object :: left =>
    let size := Measurer.measure measurers object
    match ledger.table[object.className]? with
    | some cell => some ({ call := some (.adding object size cell Counter.order), left }, ledger)
    | none => some ({ call := some (.missed object size), left }, ledger)
  | some (.missed object size), left =>
    let (cell, ledger) := ledger.ensure object.className
    some ({ call := some (.adding object size cell Counter.order), left }, ledger)
  | some (.adding object size cell (counter :: due)), left =>
    some ({ call := some (.adding object size cell due), left }, ledger.add counter cell size)
  | some (.adding _ _ _ []), left => some ({ call := none, left }, ledger)

end Caller

/-- Callers under way. -/
structure State (Ref : Type) where
  /-- What they share. -/
  ledger : Ledger
  /-- The callers. -/
  callers : List (Caller Ref)

namespace State

variable {Ref : Type}

/-- Callers that have not begun, with the objects that each of them records. -/
def start (objects : List (List (HeapObject Ref))) : State Ref :=
  { ledger := .empty, callers := objects.map .start }

/-- The state after the next step of a caller, if it has one. -/
def advance (measurers : List (Measurer Ref)) (state : State Ref) (index : Nat) :
    Option (State Ref) := do
  let caller ← state.callers[index]?
  let (moved, ledger) ← caller.step measurers state.ledger
  return { ledger, callers := state.callers.set index moved }

/-- The state after some steps, each of the caller whose turn it is, if that caller has one to
take. -/
def advanceAll (measurers : List (Measurer Ref)) (turns : List Nat) (state : State Ref) :
    Option (State Ref) :=
  turns.foldlM (fun state index => state.advance measurers index) state

/-- Whether all calls have returned. -/
def isDone (state : State Ref) : Bool :=
  state.callers.all Caller.isDone

end State

end Retained.Recording
