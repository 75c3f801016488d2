import Retained.Dump.Basic
import Retained.Proofs.Walk.Closed

/-!
# The steps of a bill

A bill is made in steps that can fail: the builtins are walked, nodes are fetched, and values are
walked. The lemmas here say what each step comes to, so that proofs about bills need not open them.
-/

namespace Retained.Dumper

variable {size : Nat} {dumper : Dumper size} {key : NodeKey} {report : ReportOptions}
  {needle : Option String}

/-- With the builtins marked, the policy decides how the bill goes on. -/
theorem bill_of_marks {marks : Marks size} (policy : Policy)
    (marked : dumper.builtinsMarks (report.walkOptions needle) = .ok marks) :
    dumper.bill key policy report needle =
      match policy with
      | .isolated => (dumper.billIsolated key (report.walkOptions needle) marks, dumper)
      | .reachable => (dumper.billReachable key (report.walkOptions needle) marks, dumper)
      | .transitive => dumper.billTransitive key (report.walkOptions needle) marks := by
  cases policy <;> simp only [bill, marked]

/-- Without the builtins marked there is no bill. -/
theorem bill_of_error {error : DumpError} (policy : Policy)
    (failed : dumper.builtinsMarks (report.walkOptions needle) = .error error) :
    dumper.bill key policy report needle = (.error error, dumper) := by
  simp only [bill, failed]

/-- A bill that succeeds is tallied. -/
theorem collect_of_bill {policy : Policy} {billing : Billing size}
    (billed : (dumper.bill key policy report needle).1 = .ok billing) :
    dumper.collect key policy report needle = .ok (dumper.tally billing) := by
  unfold collect
  rw [billed]
  rfl

/-- What is tallied is a bill that succeeds. -/
theorem bill_of_collect {policy : Policy} {tally : Tally}
    (collected : dumper.collect key policy report needle = .ok tally) :
    ∃ billing, (dumper.bill key policy report needle).1 = .ok billing := by
  unfold collect at collected
  cases billed : (dumper.bill key policy report needle).1 with
  | error error =>
    rw [billed] at collected
    cases collected
  | ok billing => exact ⟨billing, rfl⟩

/-- A walk that fails is interrupted. -/
theorem walkFrom_error {walk : Walk size} {root : Fin size} {scene : Scene size}
    {error : DumpError} (failed : dumper.walkFrom walk root scene = .error error) :
    ∃ cause, error = .interrupted cause := by
  unfold walkFrom at failed
  split at failed
  · cases failed
  · cases failed
    exact ⟨_, rfl⟩

/-- The builtins cannot be marked only because their walk is interrupted. -/
theorem builtinsMarks_error {options : WalkOptions (Fin size)} {error : DumpError}
    (failed : dumper.builtinsMarks options = .error error) :
    ∃ cause, error = .interrupted cause := by
  unfold builtinsMarks at failed
  split at failed
  · cases failed
  · next root found =>
    cases walked : dumper.walkFrom (dumper.markingWalk (builtinsOptions options)) root
        (.start .none) with
    | error first =>
      rw [walked] at failed
      cases failed
      exact walkFrom_error walked
    | ok scene =>
      rw [walked] at failed
      cases failed

/-! ## Steps that succeed -/

/-- The value of a node is that of its fetch. -/
theorem nodeValue_ok {value : Fin size} :
    dumper.nodeValue key = .ok value ↔ dumper.source.store.value key = .ok (some value) := by
  unfold nodeValue
  cases dumper.source.store.value key with
  | error error =>
    constructor <;> intro absurdity <;> cases absurdity
  | ok held =>
    cases held with
    | none => constructor <;> intro absurdity <;> cases absurdity
    | some found =>
      constructor
      · intro same
        cases same
        rfl
      · intro same
        cases same
        rfl

/-- If some nodes have their values fetched, the values are those of their fetches. -/
theorem nodeValues_of_fetched {deps : List NodeKey}
    (fetched : ∀ dep ∈ deps, ∃ value, dumper.source.store.value dep = .ok (some value)) :
    ∃ values, deps.mapM dumper.nodeValue = .ok values ∧
      ∀ other, other ∈ values ↔ ∃ dep ∈ deps, dumper.source.store.value dep = .ok (some other) := by
  induction deps with
  | nil => exact ⟨[], rfl, by simp⟩
  | cons dep deps further =>
    obtain ⟨value, first⟩ := fetched dep List.mem_cons_self
    obtain ⟨values, rest, members⟩ :=
      further fun other member => fetched other (List.mem_cons_of_mem dep member)
    refine ⟨value :: values, ?_, ?_⟩
    · rw [List.mapM_cons, nodeValue_ok.mpr first, rest]
      rfl
    · intro other
      have same : other = value ↔ dumper.source.store.value dep = .ok (some other) := by
        rw [first, Except.ok.injEq, Option.some.injEq, eq_comm]
      rw [List.mem_cons, members, same]
      simp

/-- The values of some nodes are fetched only if all of the fetches succeed. -/
theorem fetched_of_nodeValues {deps : List NodeKey} {values : List (Fin size)}
    (found : deps.mapM dumper.nodeValue = .ok values) :
    ∀ dep ∈ deps, ∃ value, dumper.source.store.value dep = .ok (some value) := by
  induction deps generalizing values with
  | nil => simp
  | cons dep deps further =>
    rw [List.mapM_cons] at found
    cases first : dumper.nodeValue dep with
    | error error => simp [first, bind, Except.bind] at found
    | ok value =>
      cases rest : deps.mapM dumper.nodeValue with
      | error error => simp [first, rest, bind, Except.bind] at found
      | ok others =>
        intro other member
        rcases List.mem_cons.mp member with rfl | later
        · exact ⟨value, nodeValue_ok.mp first⟩
        · exact further rest other later

/-- A dumper that is not cancelled completes every walk. -/
theorem walkFrom_ok (live : dumper.cancelled = false) (walk : Walk size) (root : Fin size)
    (scene : Scene size) :
    ∃ claimed summary after, dumper.walkFrom walk root scene = .ok after ∧
      walk.Traversed root scene claimed summary after := by
  obtain ⟨claimed, summary, after, walked, traversed⟩ := walk.traverse_traversed root scene
  refine ⟨claimed, summary, after, ?_, traversed⟩
  have never : Cancellation.ofBool dumper.cancelled = .never := by rw [live]; rfl
  unfold walkFrom
  rw [never, walked]

end Retained.Dumper
