import Std.Data.ExtTreeMap

/-!
# Depth-first search

A search keeps a table of what it has met: things it has entered and is still below, and things it
is done with. Meeting again what it is still below is a cycle. It ends because meeting something new
leaves one thing fewer to meet, and because overwriting what the table holds leaves as many.
-/

namespace Retained.Snapshot

/-- How far a search is with something it has met. -/
inductive Visit (Result : Type) where
  /-- It is still below it. -/
  | entered
  /-- It is done with it. -/
  | done (result : Result)
deriving DecidableEq, Repr

variable {Key State : Type} [Ord Key] [Std.TransOrd Key]

/-- The number of keys of a list that a table does not hold. -/
def pending (keys : List Key) (met : Std.ExtTreeMap Key State compare) : Nat :=
  keys.countP fun key => !met.contains key

/-- Meeting something never leaves more to meet. -/
theorem pending_insert_le (keys : List Key) (met : Std.ExtTreeMap Key State compare) (key : Key)
    (state : State) : pending keys (met.insert key state) ≤ pending keys met := by
  refine List.countP_mono_left fun other _ unmet => ?_
  simp only [Std.ExtTreeMap.contains_insert, Bool.not_or, Bool.and_eq_true] at unmet
  exact unmet.2

/-- Meeting something new leaves fewer to meet. -/
theorem pending_insert_lt [Std.LawfulEqOrd Key] {keys : List Key}
    {met : Std.ExtTreeMap Key State compare} {key : Key} (listed : key ∈ keys)
    (unmet : met.contains key = false) (state : State) :
    pending keys (met.insert key state) < pending keys met := by
  induction keys with
  | nil => simp at listed
  | cons first others ih =>
    unfold pending at ih ⊢
    rw [List.countP_cons, List.countP_cons]
    have fewer := pending_insert_le others met key state
    unfold pending at fewer
    by_cases same : first = key
    · subst same
      have met' : (met.insert first state).contains first = true := by simp
      simp only [met', unmet, Bool.not_true, Bool.not_false, Bool.false_eq_true, ↓reduceIte]
      omega
    · have later : key ∈ others := by
        rcases List.mem_cons.1 listed with equal | later
        · exact absurd equal.symm same
        · exact later
      have apart : compare key first ≠ .eq := fun equal =>
        same (Std.LawfulEqOrd.eq_of_compare equal).symm
      have kept : (met.insert key state).contains first = met.contains first := by
        simp [Std.ExtTreeMap.contains_insert, apart]
      have smaller := ih later
      rw [kept]
      omega

/-- A measure that gives way to a second one decreases when the first does not grow and the second
decreases. -/
theorem lex_of_le {first other second next : Nat} (kept : other ≤ first) (less : next < second) :
    Prod.Lex (· < ·) (· < ·) (other, next) (first, second) := by
  rcases Nat.lt_or_eq_of_le kept with fewer | same
  · exact Prod.Lex.left _ _ fewer
  · exact same ▸ Prod.Lex.right _ less

end Retained.Snapshot
