import Retained.Tally.Accountant

/-!
# The order of recording

Sums and counts do not depend on the order in which objects are recorded, so an accountant that has
recorded the same objects in another order has counted the same. Concurrent walks report in an order
that the schedule decides; what is tallied is not up to the schedule.
-/

namespace Retained

namespace ClassTotals

/-- Two sizes may be added in either order. -/
theorem add_comm (totals : ClassTotals) (left right : UInt64) :
    (totals.add left).add right = (totals.add right).add left := by
  have bytes : totals.bytes + left + right = totals.bytes + right + left := by
    rw [UInt64.add_assoc, UInt64.add_comm left right, ← UInt64.add_assoc]
  simp only [add, bytes]

end ClassTotals

namespace Accountant

variable {Ref : Type}

/-- Two objects may be recorded in either order. -/
theorem record_comm (accountant : Accountant Ref) (left right : HeapObject Ref) :
    (accountant.record left).record right = (accountant.record right).record left := by
  have classes : ((accountant.record left).record right).classes =
      ((accountant.record right).record left).classes := by
    apply Std.ExtTreeMap.ext_getElem?
    intro className
    simp only [record, measure, Std.ExtTreeMap.getElem?_alter, Std.LawfulEqCmp.compare_eq_iff_eq]
    by_cases isLeft : left.className = className <;> by_cases isRight : right.className = className
    · simp only [isLeft, isRight, if_true, Option.getD_some]
      rw [ClassTotals.add_comm]
    · simp only [isLeft, isRight, if_true, if_false]
    · simp only [isLeft, isRight, if_true, if_false]
    · simp only [isLeft, isRight, if_false]
  have total : ((accountant.record left).record right).total =
      ((accountant.record right).record left).total :=
    ClassTotals.add_comm _ _ _
  simp only [record, measure, mk.injEq, true_and] at classes total ⊢
  exact ⟨classes, total⟩

/-- Objects may be recorded in any order. -/
theorem recordAll_perm (accountant : Accountant Ref) {left right : List (HeapObject Ref)}
    (same : left.Perm right) : accountant.recordAll left = accountant.recordAll right :=
  same.foldl_eq' (fun _ _ _ _ accountant => accountant.record_comm _ _) accountant

end Accountant

end Retained
