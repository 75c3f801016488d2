import Mathlib.Algebra.GroupWithZero.Nat
import Mathlib.Algebra.Order.BigOperators.Group.List
import Mathlib.Algebra.Order.Group.Nat
import Mathlib.Data.List.Induction
import Mathlib.Data.List.Nodup
import Mathlib.Data.List.Perm.Subperm
import Retained.Tally.Accountant

/-!
# What an accountant counts up to

The counters of an accountant are the number and the exact bytes of the objects that it has
recorded, modulo `2 ^ 64`, in all and for each class. Of objects among others there are no more, and
they have no more bytes. So counters are ordered as the recorded objects are, as long as the larger
of two exact totals fits into a word; beyond that a counter starts again from zero.
-/

namespace Retained

variable {Ref : Type} {measurers : List (Measurer Ref)}
variable {objects smaller larger : List (HeapObject Ref)} {className : String}

/-- The exact bytes of some objects. -/
def exactBytes (measurers : List (Measurer Ref)) (objects : List (HeapObject Ref)) : Nat :=
  (objects.map fun object => (Measurer.measure measurers object).toNat).sum

/-- The objects of a class. -/
def ofClass (className : String) (objects : List (HeapObject Ref)) : List (HeapObject Ref) :=
  objects.filter fun object => object.className == className

namespace ClassTotals

/-- The number and the bytes of some objects, modulo `2 ^ 64`. -/
def ofObjects (measurers : List (Measurer Ref)) (objects : List (HeapObject Ref)) : ClassTotals :=
  { count := .ofNat objects.length, bytes := .ofNat (exactBytes measurers objects) }

/-- One more object adds one to the number and its size to the bytes. -/
theorem ofObjects_concat (measurers : List (Measurer Ref)) (objects : List (HeapObject Ref))
    (object : HeapObject Ref) :
    ofObjects measurers (objects ++ [object]) =
      (ofObjects measurers objects).add (Measurer.measure measurers object) := by
  have bytes : exactBytes measurers (objects ++ [object]) =
      exactBytes measurers objects + (Measurer.measure measurers object).toNat := by
    simp [exactBytes]
  simp only [ofObjects, add, bytes, List.length_append, List.length_singleton, UInt64.ofNat_add,
    UInt64.ofNat_toNat]
  rfl

end ClassTotals

namespace Accountant

/-- Recording leaves the measurers as they are. -/
theorem measurers_recordAll (accountant : Accountant Ref) (objects : List (HeapObject Ref)) :
    (accountant.recordAll objects).measurers = accountant.measurers := by
  induction objects generalizing accountant with
  | nil => rfl
  | cons object others further => exact further (accountant.record object)

/-- One more object is recorded after the others. -/
theorem recordAll_concat (accountant : Accountant Ref) (objects : List (HeapObject Ref))
    (object : HeapObject Ref) :
    accountant.recordAll (objects ++ [object]) = (accountant.recordAll objects).record object := by
  simp only [recordAll, List.foldl_append, List.foldl_cons, List.foldl_nil]

/-- An accountant gives an object the size that its measurers do, whatever it has recorded. -/
theorem measure_recordAll (measurers : List (Measurer Ref)) (objects : List (HeapObject Ref))
    (object : HeapObject Ref) :
    ((start measurers).recordAll objects).measure object = Measurer.measure measurers object := by
  rw [measure, measurers_recordAll]
  rfl

/-- The counters over all classes are those of all objects. -/
theorem total_recordAll (measurers : List (Measurer Ref)) (objects : List (HeapObject Ref)) :
    ((start measurers).recordAll objects).total = .ofObjects measurers objects := by
  induction objects using List.reverseRecOn with
  | nil => rfl
  | append_singleton objects object further =>
    rw [recordAll_concat, ClassTotals.ofObjects_concat, ← further,
      ← measure_recordAll measurers objects]
    rfl

/-- The counters of a class are those of its objects; a class that was not met counts nothing. -/
theorem classes_recordAll (measurers : List (Measurer Ref)) (objects : List (HeapObject Ref))
    (className : String) :
    (((start measurers).recordAll objects).classes[className]?).getD .zero =
      .ofObjects measurers (ofClass className objects) := by
  induction objects using List.reverseRecOn with
  | nil => rfl
  | append_singleton objects object further =>
    have altered : ((start measurers).recordAll (objects ++ [object])).classes[className]? =
        if object.className = className then
          some ((((start measurers).recordAll objects).classes[className]?.getD .zero).add
            (Measurer.measure measurers object))
        else ((start measurers).recordAll objects).classes[className]? := by
      rw [recordAll_concat, ← measure_recordAll measurers objects]
      simp only [record, Std.ExtTreeMap.getElem?_alter, Std.LawfulEqCmp.compare_eq_iff_eq]
      by_cases same : object.className = className
      · simp only [same, if_true]
      · simp only [same, if_false]
    rw [altered, ofClass, List.filter_append]
    by_cases same : object.className = className
    · have single : [object].filter (fun object => object.className == className) = [object] := by
        simp [same]
      rw [if_pos same, single, ClassTotals.ofObjects_concat, Option.getD_some, further, ofClass]
    · have none : [object].filter (fun object => object.className == className) = [] := by
        simp [same]
      rw [if_neg same, none, List.append_nil, further, ofClass]

/-- What is reported of recorded objects: their number and bytes, in all and of each class. -/
theorem stats_recordAll (measurers : List (Measurer Ref)) (objects : List (HeapObject Ref)) :
    let stats := ((start measurers).recordAll objects).stats
    stats.objectCount = .ofNat objects.length ∧
      stats.memoryUse = .ofNat (exactBytes measurers objects) ∧
      ∀ className, stats.countOf className = .ofNat (ofClass className objects).length ∧
        stats.bytesOf className = .ofNat (exactBytes measurers (ofClass className objects)) := by
  have total := total_recordAll measurers objects
  refine ⟨congrArg ClassTotals.count total, congrArg ClassTotals.bytes total, ?_⟩
  intro className
  have counters := classes_recordAll measurers objects className
  constructor
  · rw [MemoryStats.countOf, Std.ExtTreeMap.getD_eq_getD_getElem?]
    simp only [stats, Std.ExtTreeMap.getElem?_map]
    exact (Option.getD_map _ ClassTotals.zero _).trans (congrArg ClassTotals.count counters)
  · rw [MemoryStats.bytesOf, Std.ExtTreeMap.getD_eq_getD_getElem?]
    simp only [stats, Std.ExtTreeMap.getElem?_map]
    exact (Option.getD_map _ ClassTotals.zero _).trans (congrArg ClassTotals.bytes counters)

end Accountant

/-! ## Order -/

/-- The objects of a class among some objects are among those of the class. -/
theorem ofClass_subperm (among : smaller.Subperm larger) (className : String) :
    (ofClass className smaller).Subperm (ofClass className larger) :=
  among.filter _

/-- The exact bytes of objects do not depend on their order. -/
theorem exactBytes_perm (same : smaller.Perm larger) :
    exactBytes measurers smaller = exactBytes measurers larger :=
  (same.map _).sum_eq

/-- Objects among others have no more bytes. -/
theorem exactBytes_le (among : smaller.Subperm larger) :
    exactBytes measurers smaller ≤ exactBytes measurers larger := by
  obtain ⟨same, perm, sublist⟩ := among
  rw [← exactBytes_perm perm]
  exact (sublist.map _).sum_le_sum fun _ _ => Nat.zero_le _

/-- Numbers that fit into words are ordered as words. -/
theorem ofNat_le_ofNat {less more : Nat} (ordered : less ≤ more) (fits : more < UInt64.size) :
    UInt64.ofNat less ≤ UInt64.ofNat more := by
  rw [UInt64.le_iff_toNat_le, UInt64.toNat_ofNat_of_lt' (by omega), UInt64.toNat_ofNat_of_lt' fits]
  exact ordered

end Retained
