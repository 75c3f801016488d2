import Retained.Proofs.Tally.Columns
import Retained.Tally.Recording

/-!
# One step of a caller

`Caller.Moved` lists the steps of a caller as rules. The counters of a class stay where they are
once they are made (`Moved.keeps`), and no two classes share theirs (`Ledger.Sound`), so a call adds
to the counters of its class, whatever others do between its steps. What a step adds to a counter,
the caller owes it no more (`Moved.reading`), and a class that a caller no longer has to find is in
the table (`Moved.met`).
-/

namespace Retained.Recording

variable {Ref : Type} {measurers : List (Measurer Ref)} {className : String} {cell : Nat}

/-! ## Counters -/

/-- Adding an object to a column of some counters changes that column. -/
theorem Column.get_addTo (column other : Column) (size : UInt64) (totals : ClassTotals) :
    other.get (column.addTo size totals) =
      other.get totals + if other = column then column.amount size else 0 := by
  cases column <;> cases other <;> simp [get, addTo]

/-- Counters that agree in all columns are the same. -/
theorem Column.ext_get {left right : ClassTotals}
    (same : ∀ column : Column, column.get left = column.get right) : left = right := by
  obtain ⟨count, bytes⟩ := left
  have counts : count = right.count := same .count
  have sizes : bytes = right.bytes := same .bytes
  rw [counts, sizes]

/-- A column of the counters of some objects and of others together. -/
theorem Column.get_ofObjects_append (column : Column) (objects others : List (HeapObject Ref)) :
    column.get (.ofObjects measurers (objects ++ others)) =
      column.get (.ofObjects measurers objects) + column.get (.ofObjects measurers others) := by
  cases column <;> simp [get, ClassTotals.ofObjects, exactBytes, UInt64.ofNat_add]

/-- A column of the counters of one object. -/
theorem Column.get_ofObjects_singleton (column : Column) (object : HeapObject Ref) :
    column.get (.ofObjects measurers [object]) =
      column.amount (Measurer.measure measurers object) := by
  cases column <;> simp [get, amount, ClassTotals.ofObjects, exactBytes]

/-- What a counter comes to for some objects, if it is that of a class for this class. -/
def Counter.tally (measurers : List (Measurer Ref)) (className : String) (counter : Counter)
    (objects : List (HeapObject Ref)) : UInt64 :=
  match counter with
  | .ofClass column => column.get (.ofObjects measurers (Retained.ofClass className objects))
  | .ofAll column => column.get (.ofObjects measurers objects)

/-- Without objects, a counter comes to nothing. -/
theorem Counter.tally_nil (counter : Counter) : counter.tally measurers className [] = 0 := by
  obtain column | column := counter <;> cases column <;> rfl

/-- A counter comes to what it comes to for the first objects and for the others together. -/
theorem Counter.tally_append (counter : Counter) (objects others : List (HeapObject Ref)) :
    counter.tally measurers className (objects ++ others) =
      counter.tally measurers className objects + counter.tally measurers className others := by
  cases counter with
  | ofClass column =>
    rw [tally, Retained.ofClass, List.filter_append]
    exact column.get_ofObjects_append _ _
  | ofAll column => exact column.get_ofObjects_append _ _

namespace Ledger

variable {ledger : Ledger}

/-- The counters that are kept for a class are those in its cell. -/
theorem getElem?_classes (ledger : Ledger) (className : String) :
    ledger.classes[className]? = ledger.table[className]?.map fun cell =>
      ledger.cells.getD cell .zero := by
  rw [classes, Std.ExtTreeMap.getElem?_map]

/-- The counters of a class; a class that has none counts nothing. -/
def totalsOf (ledger : Ledger) (className : String) : ClassTotals :=
  ledger.classes[className]?.getD .zero

/-- What a counter says, if it is that of a class for this class. -/
def reading (ledger : Ledger) (className : String) (counter : Counter) : UInt64 :=
  match counter with
  | .ofClass column => column.get (ledger.totalsOf className)
  | .ofAll column => column.get ledger.total

/-- The table leads to counters, and for no two classes to the same. -/
structure Sound (ledger : Ledger) : Prop where
  /-- The counters of a class are made. -/
  made : ∀ {className : String} {cell : Nat}, ledger.table[className]? = some cell →
    cell < ledger.cells.size
  /-- No two classes share their counters. -/
  apart : ∀ {className other : String} {cell : Nat}, ledger.table[className]? = some cell →
    ledger.table[other]? = some cell → className = other

/-- A class is in the table if its counters are in a cell. -/
theorem mem_table_iff :
    className ∈ ledger.table ↔ ∃ cell, ledger.table[className]? = some cell := by
  rw [Std.ExtTreeMap.mem_iff_isSome_getElem?, Option.isSome_iff_exists]

/-- Making counters changes the table for the class they are made for. -/
theorem table_make (ledger : Ledger) (className other : String) :
    (ledger.make className).table[other]? =
      if other = className then some ledger.cells.size else ledger.table[other]? := by
  simp only [make, Std.ExtTreeMap.getElem?_insert, Std.LawfulEqCmp.compare_eq_iff_eq]
  by_cases same : other = className
  · rw [if_pos same, if_pos same.symm]
  · rw [if_neg same, if_neg (Ne.symm same)]

/-- Making counters keeps a ledger sound. -/
theorem Sound.make (sound : ledger.Sound) (className : String) : (ledger.make className).Sound := by
  have size : (ledger.make className).cells.size = ledger.cells.size + 1 := Array.size_push _
  constructor
  case made =>
    intro other cell held
    rw [table_make] at held
    rw [size]
    split at held
    · cases held
      exact Nat.lt_succ_self _
    · exact Nat.lt_succ_of_lt (sound.made held)
  case apart =>
    intro first second cell held known
    rw [table_make] at held known
    split at held <;> split at known
    · next isFirst isSecond => exact isFirst.trans isSecond.symm
    · cases held
      exact absurd (sound.made known) (Nat.lt_irrefl _)
    · cases known
      exact absurd (sound.made held) (Nat.lt_irrefl _)
    · exact sound.apart held known

/-- Counters that have just been made count nothing, and the others are as they were. -/
theorem totalsOf_make (sound : ledger.Sound) (absent : ledger.table[className]? = none)
    (other : String) :
    (ledger.make className).totalsOf other = ledger.totalsOf other := by
  rw [totalsOf, totalsOf, getElem?_classes, getElem?_classes, table_make]
  by_cases same : other = className
  · rw [if_pos same, same, absent]
    simp [make]
  · rw [if_neg same]
    cases held : ledger.table[other]? with
    | none => rfl
    | some cell =>
      have old : cell ≠ ledger.cells.size := Nat.ne_of_lt (sound.made held)
      simp [make, Array.getElem?_push, old]

/-- Changing the counters in the cell of a class changes the counters of that class. -/
theorem totalsOf_modify (sound : ledger.Sound) (held : ledger.table[className]? = some cell)
    (change : ClassTotals → ClassTotals) (other : String) :
    ({ ledger with cells := ledger.cells.modify cell change }).totalsOf other =
      if other = className then change (ledger.totalsOf other) else ledger.totalsOf other := by
  rw [totalsOf, totalsOf, getElem?_classes, getElem?_classes]
  cases known : ledger.table[other]? with
  | none =>
    have different : other ≠ className := by
      intro same
      rw [same, held] at known
      cases known
    rw [if_neg different]
    rfl
  | some found =>
    by_cases same : other = className
    · rw [same, held] at known
      cases known
      have inside := sound.made held
      simp [same, inside, Array.getElem?_modify]
    · have different : found ≠ cell := by
        intro equal
        exact same (sound.apart known (equal ▸ held))
      simp [same, different.symm, Array.getElem?_modify]

/-- Adding an object to a counter changes that counter, by what it comes to for the object. -/
theorem reading_add {object : HeapObject Ref} (sound : ledger.Sound)
    (held : ledger.table[object.className]? = some cell) (counter other : Counter)
    (className : String) :
    (ledger.add counter cell (Measurer.measure measurers object)).reading className other =
      ledger.reading className other +
        if other = counter then counter.tally measurers className [object] else 0 := by
  cases counter with
  | ofClass column =>
    cases other with
    | ofAll _ => simp [add, reading]
    | ofClass otherColumn =>
      simp only [reading, add, totalsOf_modify sound held, Counter.ofClass.injEq, Counter.tally]
      by_cases same : object.className = className
      · have single : Retained.ofClass className [object] = [object] := by
          simp [Retained.ofClass, same]
        rw [if_pos same.symm, Column.get_addTo, single, Column.get_ofObjects_singleton]
      · have nothing : Retained.ofClass className [object] = [] := by simp [Retained.ofClass, same]
        have zero : column.get (.ofObjects measurers []) = 0 := by cases column <;> rfl
        rw [if_neg (Ne.symm same), nothing, zero, ite_self, UInt64.add_zero]
  | ofAll column =>
    cases other with
    | ofClass _ =>
      simp only [add, reading, reduceCtorEq, if_false, UInt64.add_zero]
      rfl
    | ofAll otherColumn =>
      simp only [reading, add, Column.get_addTo, Counter.ofAll.injEq, Counter.tally,
        Column.get_ofObjects_singleton]

end Ledger

/-! ## Steps -/

namespace Caller

variable {ledger after : Ledger} {caller moved : Caller Ref}

/-- The objects that a caller has still to add to a counter. -/
def owed (counter : Counter) (caller : Caller Ref) : List (HeapObject Ref) :=
  match caller.call with
  | none => caller.left
  | some (.missed object _) => object :: caller.left
  | some (.adding object _ _ due) => List.replicate (due.count counter) object ++ caller.left

/-- The objects whose classes a caller has still to find. -/
def unlisted (caller : Caller Ref) : List (HeapObject Ref) :=
  match caller.call with
  | some (.missed object _) => object :: caller.left
  | _ => caller.left

/-- A caller whose calls have returned has nothing left. -/
theorem eq_of_isDone (done : caller.isDone = true) : caller = { call := none, left := [] } := by
  obtain ⟨call, left⟩ := caller
  simpa [isDone] using done

/-- The steps that a caller takes at most. -/
def work (caller : Caller Ref) : Nat :=
  7 * caller.left.length +
    match caller.call with
    | none => 0
    | some (.missed _ _) => 6
    | some (.adding _ _ _ due) => due.length + 1

/-- The call under way has measured its object, and the cell that it adds to is that of the object's
class. -/
def Sound (measurers : List (Measurer Ref)) (ledger : Ledger) (caller : Caller Ref) : Prop :=
  match caller.call with
  | none => True
  | some (.missed object size) => size = Measurer.measure measurers object
  | some (.adding object size cell _) =>
    size = Measurer.measure measurers object ∧ ledger.table[object.className]? = some cell

/-- The steps of a caller over a ledger: the caller before and after, and the ledger afterwards. -/
inductive Moved (measurers : List (Measurer Ref)) (ledger : Ledger) :
    Caller Ref → Caller Ref → Ledger → Prop where
  /-- A call begins and finds the class. -/
  | find {object : HeapObject Ref} {left : List (HeapObject Ref)} {cell : Nat}
      (found : ledger.table[object.className]? = some cell) :
      Moved measurers ledger { call := none, left := object :: left }
        { call := some (.adding object (Measurer.measure measurers object) cell Counter.order),
          left } ledger
  /-- A call begins and does not find the class. -/
  | miss {object : HeapObject Ref} {left : List (HeapObject Ref)} :
      Moved measurers ledger { call := none, left := object :: left }
        { call := some (.missed object (Measurer.measure measurers object)), left } ledger
  /-- Another call has made the counters meanwhile. -/
  | join {object : HeapObject Ref} {size : UInt64} {left : List (HeapObject Ref)} {cell : Nat}
      (found : ledger.table[object.className]? = some cell) :
      Moved measurers ledger { call := some (.missed object size), left }
        { call := some (.adding object size cell Counter.order), left } ledger
  /-- The call makes the counters. -/
  | make {object : HeapObject Ref} {size : UInt64} {left : List (HeapObject Ref)}
      (absent : ledger.table[object.className]? = none) :
      Moved measurers ledger { call := some (.missed object size), left }
        { call := some (.adding object size ledger.cells.size Counter.order), left }
        (ledger.make object.className)
  /-- The call adds to one of its counters. -/
  | add {object : HeapObject Ref} {size : UInt64} {cell : Nat} {counter : Counter}
      {due : List Counter} {left : List (HeapObject Ref)} :
      Moved measurers ledger { call := some (.adding object size cell (counter :: due)), left }
        { call := some (.adding object size cell due), left } (ledger.add counter cell size)
  /-- The call returns. -/
  | finish {object : HeapObject Ref} {size : UInt64} {cell : Nat} {left : List (HeapObject Ref)} :
      Moved measurers ledger { call := some (.adding object size cell []), left }
        { call := none, left } ledger

/-- Every step follows one of the rules. -/
theorem step_moved (stepped : caller.step measurers ledger = some (moved, after)) :
    Moved measurers ledger caller moved after := by
  obtain ⟨call, left⟩ := caller
  cases call with
  | none =>
    cases left with
    | nil => cases stepped
    | cons object left =>
      cases found : ledger.table[object.className]? with
      | some cell =>
        simp only [step, found] at stepped
        cases stepped
        exact .find found
      | none =>
        simp only [step, found] at stepped
        cases stepped
        exact .miss
  | some call =>
    cases call with
    | missed object size =>
      cases found : ledger.table[object.className]? with
      | some cell =>
        simp only [step, Ledger.ensure, found] at stepped
        cases stepped
        exact .join found
      | none =>
        simp only [step, Ledger.ensure, found] at stepped
        cases stepped
        exact .make found
    | adding object size cell due =>
      cases due with
      | nil =>
        cases stepped
        exact .finish
      | cons counter due =>
        cases stepped
        exact .add

/-- A caller has a step to take, unless all its calls have returned. -/
theorem step_isSome (caller : Caller Ref) :
    (caller.step measurers ledger).isSome = !caller.isDone := by
  obtain ⟨call, left⟩ := caller
  cases call with
  | none =>
    cases left with
    | nil => rfl
    | cons object left =>
      simp only [step]
      split <;> rfl
  | some call =>
    cases call with
    | missed object size => rfl
    | adding object size cell due => cases due <;> rfl

namespace Moved

/-- The counters of a class stay where they are. -/
theorem keeps (step : Moved measurers ledger caller moved after)
    (held : ledger.table[className]? = some cell) : after.table[className]? = some cell := by
  cases step with
  | @make object size left absent =>
    have different : className ≠ object.className := by
      intro same
      rw [same, absent] at held
      cases held
    rw [Ledger.table_make, if_neg different, held]
  | @add object size cell counter due left => cases counter <;> exact held
  | _ => exact held

/-- A step keeps the ledger sound. -/
theorem ledger_sound (step : Moved measurers ledger caller moved after) (sound : ledger.Sound) :
    after.Sound := by
  cases step with
  | make absent => exact sound.make _
  | @add object size cell counter due left =>
    cases counter with
    | ofAll column => exact ⟨sound.made, sound.apart⟩
    | ofClass column =>
      refine ⟨?_, sound.apart⟩
      intro className found held
      exact (sound.made held).trans_eq Array.size_modify.symm
  | _ => exact sound

/-- The calls of others stay sound. -/
theorem others_sound {other : Caller Ref} (step : Moved measurers ledger caller moved after)
    (sound : other.Sound measurers ledger) : other.Sound measurers after := by
  unfold Sound at sound ⊢
  split at sound
  · trivial
  · exact sound
  · exact ⟨sound.1, step.keeps sound.2⟩

/-- The call under way stays sound. -/
theorem caller_sound (step : Moved measurers ledger caller moved after)
    (sound : caller.Sound measurers ledger) : moved.Sound measurers after := by
  cases step with
  | find found => exact ⟨rfl, found⟩
  | miss => exact rfl
  | join found => exact ⟨sound, found⟩
  | make absent => exact ⟨sound, by rw [Ledger.table_make, if_pos rfl]⟩
  | @add object size cell counter due left =>
    refine ⟨sound.1, ?_⟩
    cases counter <;> exact sound.2
  | finish => trivial

/-- What a step adds to a counter is what the caller owes it no more. -/
theorem reading (step : Moved measurers ledger caller moved after) (ledgerSound : ledger.Sound)
    (sound : caller.Sound measurers ledger) (className : String) (counter : Counter) :
    after.reading className counter + counter.tally measurers className (moved.owed counter) =
      ledger.reading className counter +
        counter.tally measurers className (caller.owed counter) := by
  have ordered : Counter.order.count counter = 1 := by
    obtain column | column := counter <;> cases column <;> decide
  cases step with
  | find found => simp only [owed, ordered, List.replicate_one, List.singleton_append]
  | miss => rfl
  | join found => simp only [owed, ordered, List.replicate_one, List.singleton_append]
  | @make object size left absent =>
    have same : (ledger.make object.className).reading className counter =
        ledger.reading className counter := by
      cases counter with
      | ofAll column => rfl
      | ofClass column =>
        exact congrArg column.get (Ledger.totalsOf_make ledgerSound absent className)
    simp only [owed, ordered, List.replicate_one, List.singleton_append, same]
  | @add object size cell current due left =>
    obtain ⟨rfl, held⟩ := sound
    rw [Ledger.reading_add ledgerSound held]
    by_cases same : counter = current
    · have owes : List.replicate ((current :: due).count counter) object ++ left =
          [object] ++ (List.replicate (due.count counter) object ++ left) := by
        simp [same, List.replicate_succ]
      simp only [owed]
      rw [owes, if_pos same, ← same, UInt64.add_assoc, ← Counter.tally_append]
    · have owes : (current :: due).count counter = due.count counter :=
        List.count_cons_of_ne (Ne.symm same)
      simp only [owed, owes, if_neg same, UInt64.add_zero]
  | finish => simp [owed]

/-- A class that a caller has no longer to find is in the table. -/
theorem met (step : Moved measurers ledger caller moved after) (className : String) :
    (className ∈ after.table ∨ ∃ object ∈ moved.unlisted, object.className = className) ↔
      className ∈ ledger.table ∨ ∃ object ∈ caller.unlisted, object.className = className := by
  have listed : ∀ {object : HeapObject Ref} {left : List (HeapObject Ref)},
      object.className ∈ ledger.table →
        ((className ∈ ledger.table ∨ ∃ other ∈ left, other.className = className) ↔
          className ∈ ledger.table ∨ ∃ other ∈ object :: left, other.className = className) := by
    intro object left known
    simp only [List.mem_cons, or_and_right, exists_or, exists_eq_left]
    rw [or_left_comm, or_iff_right_of_imp fun same => Or.inl (same ▸ known)]
  cases step with
  | find found => exact listed (Ledger.mem_table_iff.mpr ⟨_, found⟩)
  | miss => exact Iff.rfl
  | join found => exact listed (Ledger.mem_table_iff.mpr ⟨_, found⟩)
  | make absent =>
    simp only [unlisted, List.mem_cons, or_and_right, exists_or, exists_eq_left, Ledger.make,
      Std.ExtTreeMap.mem_insert, Std.LawfulEqCmp.compare_eq_iff_eq, or_assoc]
    rw [or_left_comm]
  | @add object size cell counter due left => cases counter <;> exact Iff.rfl
  | finish => exact Iff.rfl

/-- A step leaves a caller fewer steps to take. -/
theorem work_lt (step : Moved measurers ledger caller moved after) : moved.work < caller.work := by
  cases step <;> simp [work, Counter.order] <;> omega

end Moved

end Caller

end Retained.Recording
