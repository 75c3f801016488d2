import Retained.Proofs.Dump.Outcome
import Retained.Proofs.Schedule.Attribution
import Retained.Proofs.Walk.Cancelled

/-!
# What leaving out the builtins leaves out

The walk that marks the builtins follows every field, but it keeps out of the objects that the
report hides, as the walks of the dump do. So a bill leaves out the objects that the builtins root
reaches along objects that the report shows, and nothing else (`Dumper.Concludes.exact`). An object
that the root reaches only through hidden ones is billed like any other, as to a package that shares
it (`Dumper.shielded`). Nothing below the root is billed if the report shows all that the root leads
to.
-/

namespace Retained

open Relation

variable {size : Nat}

/-- Some field of an object leads to another object. -/
def Heap.Refers (heap : Heap size) (place next : Fin size) : Prop :=
  ∃ field ∈ (heap.object place).fields, field.target = next

/-- A chain of fields leads from an object to another, whatever the fields and the objects are. -/
abbrev Heap.LeadsTo (heap : Heap size) : Fin size → Fin size → Prop :=
  ReflTransGen heap.Refers

/-- A walk that is cancelled beforehand never completes. -/
theorem Walk.run_cancelled (walk : Walk size) (taken : Nat) (walker : Walker size)
    (scene : Scene size) : (walk.run (.after 0) taken walker scene).1 = none :=
  (walk.run_eq_none_iff 0 taken walker scene).mpr (Nat.zero_le _)

namespace Dumper

variable {dumper : Dumper size} {options : WalkOptions (Fin size)} {marks : Marks size}
variable {key : NodeKey} {report : ReportOptions} {needle : Option String}

/-! ## Marks and bills -/

/-- A cancelled dumper completes no walk. -/
theorem walkFrom_of_cancelled (cancelled : dumper.cancelled = true) (walk : Walk size)
    (root : Fin size) (scene : Scene size) :
    dumper.walkFrom walk root scene = .error (.interrupted .walkCancelled) := by
  have never : (walk.traverse (.ofBool true) root scene).1 = none :=
    walk.run_cancelled 0 (.start root) scene
  unfold walkFrom
  rw [cancelled]
  split
  · next completed =>
    rw [completed] at never
    cases never
  · rfl

/-- A dumper whose walk completes is not cancelled. -/
theorem live_of_walkFrom {walk : Walk size} {root : Fin size} {scene after : Scene size}
    (walked : dumper.walkFrom walk root scene = .ok after) : dumper.cancelled = false := by
  by_contra notLive
  rw [walkFrom_of_cancelled (Bool.not_eq_false _ ▸ notLive)] at walked
  cases walked

/-- The marks to start with are the builtins, and they are closed for the dump. -/
theorem builtinsMarks_ok (marked : dumper.builtinsMarks (report.walkOptions needle) = .ok marks) :
    (dumper.billingWalk (report.walkOptions needle)).Closed marks ∧
      ∀ place, marks.contains place = true ↔ dumper.IsBuiltin report place := by
  cases excluded : dumper.excludedBuiltins with
  | none =>
    unfold builtinsMarks at marked
    rw [excluded] at marked
    cases marked
    refine ⟨Walk.closed_none _, ?_⟩
    intro place
    have kept : ¬ dumper.IsBuiltin report place := by
      intro builtin
      obtain ⟨excludes, root, found, _⟩ := builtin
      rw [excludedBuiltins_eq_some.mpr ⟨excludes, found⟩] at excluded
      cases excluded
    exact iff_of_false (Bool.eq_false_iff.mp (Marks.contains_none place)) kept
  | some root =>
    have live : dumper.cancelled = false := by
      unfold builtinsMarks at marked
      rw [excluded] at marked
      cases walked : dumper.walkFrom
          (dumper.markingWalk (builtinsOptions (report.walkOptions needle))) root
          (.start .none) with
      | error error =>
        simp only [walked] at marked
        cases marked
      | ok after => exact live_of_walkFrom walked
    obtain ⟨exactly, found, closed, builtins⟩ := builtinsMarks_exact live report needle
    rw [marked] at found
    cases found
    exact ⟨closed, builtins⟩

/-- A bill of a value is made by a dumper that is not cancelled. -/
theorem live_of_billExcluding {excluded : List (Fin size)} {value : Fin size}
    {billing : Billing size}
    (billed : dumper.billExcluding options marks excluded value = .ok billing) :
    dumper.cancelled = false := by
  unfold billExcluding at billed
  cases marking : excluded.foldlM (fun scene root =>
      dumper.walkFrom (dumper.markingWalk options) root scene) (.start marks) with
  | error error =>
    rw [marking] at billed
    cases billed
  | ok before =>
    rw [marking] at billed
    cases walked : dumper.walkFrom (dumper.billingWalk options) value before with
    | error error =>
      simp only [bind, Except.bind, walked] at billed
      cases billed
    | ok after => exact live_of_walkFrom walked

/-- An isolated bill is made by a dumper that is not cancelled. -/
theorem live_of_billIsolated {billing : Billing size}
    (billed : dumper.billIsolated key options marks = .ok billing) : dumper.cancelled = false := by
  obtain ⟨value, deps, fetched, below⟩ := fetched_of_billIsolated billed
  obtain ⟨values, found, _⟩ := nodeValues_of_fetched below
  rw [billIsolated_of_deps fetched.2, found, nodeValue_ok.mpr fetched.1] at billed
  have direct : dumper.billExcluding options marks values value = .ok billing := billed
  exact live_of_billExcluding direct

/-- A reachable bill is made by a dumper that is not cancelled. -/
theorem live_of_billReachable {billing : Billing size}
    (billed : dumper.billReachable key options marks = .ok billing) : dumper.cancelled = false := by
  obtain ⟨value, fetched⟩ := fetched_of_billReachable billed
  unfold billReachable at billed
  rw [nodeValue_ok.mpr fetched] at billed
  have direct : dumper.billExcluding options marks [] value = .ok billing := billed
  exact live_of_billExcluding direct

/-! ## What is due -/

/-- The objects that a policy asks to bill for a node, builtins or not. -/
def IsDue (dumper : Dumper size) (key : NodeKey) (report : ReportOptions) (place : Fin size) :
    Policy → Prop
  | .isolated => ∃ value deps, dumper.source.store.Fetches key value deps ∧
      dumper.Reaches report value place ∧
      ∀ dep ∈ deps, ∀ other, dumper.source.store.value dep = .ok (some other) →
        ¬ dumper.Reaches report other place
  | .reachable => ∃ value, dumper.source.store.value key = .ok (some value) ∧
      dumper.Reaches report value place
  | .transitive => ∃ node ∈ dumper.source.store.closure key, ∃ value,
      dumper.source.store.value node = .ok (some value) ∧ dumper.Reaches report value place

/-- A bill is what is due and of a class that contains the needle, each object once, without what
the builtins root reaches along objects that the report shows. -/
def IsExact (dumper : Dumper size) (key : NodeKey) (report : ReportOptions)
    (needle : Option String) (policy : Policy) (billing : Billing size) : Prop :=
  billing.objects.toList.Nodup ∧ ∀ place, place ∈ billing.objects.toList ↔
    dumper.IsDue key report place policy ∧
      (dumper.heap.object place).Matches needle ∧ ¬ dumper.IsBuiltin report place

variable {billing : Billing size}

/-- An isolated bill is exact. -/
theorem isolated_isExact (marked : dumper.builtinsMarks (report.walkOptions needle) = .ok marks)
    (billed : dumper.billIsolated key (report.walkOptions needle) marks = .ok billing) :
    dumper.IsExact key report needle .isolated billing := by
  obtain ⟨closed, builtins⟩ := builtinsMarks_ok marked
  obtain ⟨value, deps, fetched, below⟩ := fetched_of_billIsolated billed
  have live := live_of_billIsolated billed
  obtain ⟨again, rebilled, distinct, exactly⟩ :=
    billIsolated_exact live closed builtins fetched below
  rw [billed] at rebilled
  cases rebilled
  refine ⟨distinct, ?_⟩
  intro place
  rw [exactly place]
  constructor
  · intro attributed
    obtain ⟨reached, outside, apart, wanted⟩ := attributed
    exact ⟨⟨value, deps, fetched, reached, fun dep member other held =>
      apart other ⟨dep, member, held⟩⟩, wanted, outside⟩
  · intro due
    obtain ⟨⟨own, listed, held, reached, apart⟩, wanted, outside⟩ := due
    have sameValue := fetched.value_eq held.1
    have sameDeps := fetched.deps_eq held.2
    rw [sameValue] at reached
    rw [sameDeps] at apart
    refine ⟨reached, outside, ?_, wanted⟩
    intro other among
    obtain ⟨dep, member, found⟩ := among
    exact apart dep member other found

/-- A reachable bill is exact. -/
theorem reachable_isExact (marked : dumper.builtinsMarks (report.walkOptions needle) = .ok marks)
    (billed : dumper.billReachable key (report.walkOptions needle) marks = .ok billing) :
    dumper.IsExact key report needle .reachable billing := by
  obtain ⟨closed, builtins⟩ := builtinsMarks_ok marked
  obtain ⟨value, fetched⟩ := fetched_of_billReachable billed
  have live := live_of_billReachable billed
  obtain ⟨again, rebilled, distinct, exactly⟩ := billReachable_exact live closed builtins fetched
  rw [billed] at rebilled
  cases rebilled
  refine ⟨distinct, ?_⟩
  intro place
  rw [exactly place]
  constructor
  · intro attributed
    obtain ⟨reached, outside, _, wanted⟩ := attributed
    exact ⟨⟨value, fetched, reached⟩, wanted, outside⟩
  · intro due
    obtain ⟨⟨own, held, reached⟩, wanted, outside⟩ := due
    have same : own = value := by
      rw [held] at fetched
      simpa using fetched
    rw [same] at reached
    exact ⟨reached, outside, fun _ impossible => impossible.elim, wanted⟩

/-- A bill that a schedule comes to is exact. -/
theorem transitive_isExact {state : Schedule.State size}
    (marked : dumper.builtinsMarks (report.walkOptions needle) = .ok marks)
    (reached : Schedule.State.Reaches
      (Schedule.State.LeadsInside (dumper.plan (report.walkOptions needle)))
      (.start (dumper.plan (report.walkOptions needle)) key marks dumper.cancelled) state)
    (ended : billingOf (state.outcome key) = .ok billing) :
    dumper.IsExact key report needle .transitive billing := by
  obtain ⟨closed, builtins⟩ := builtinsMarks_ok marked
  obtain ⟨history, ran⟩ := Schedule.State.exists_run reached
  obtain ⟨closure, returned, rfl⟩ := outcome_of_billingOf ended
  have attributed := Schedule.State.attributed_of_run ran returned
  refine ⟨attributed.distinct, ?_⟩
  intro place
  have reported : place ∈ closure.scene.reported.toList ↔
      closure.hasAdded marks place = true ∧ (dumper.heap.object place).Matches needle :=
    attributed.reported place
  have added : closure.hasAdded marks place = true ↔
      dumper.IsDue key report place .transitive ∧ ¬ dumper.IsBuiltin report place := by
    rw [Schedule.Closure.hasAdded, Bool.and_eq_true, Bool.not_eq_true', attributed.marked,
      ← builtins, Bool.not_eq_true]
    constructor
    · intro new
      obtain ⟨known | ⟨node, member, value, held, path⟩, unmarked⟩ := new
      · rw [known] at unmarked
        cases unmarked
      · have reached := (billingWalk_path value place).mp (closed.path_iff.mp path).1
        exact ⟨⟨node, member, value, held, reached⟩, unmarked⟩
    · intro due
      obtain ⟨⟨node, member, value, held, reached⟩, unmarked⟩ := due
      have path := closed.path_iff.mpr ⟨(billingWalk_path value place).mpr reached, unmarked⟩
      exact ⟨Or.inr ⟨node, member, value, held, path⟩, unmarked⟩
  rw [reported, added, and_right_comm, and_assoc]

/-- Every bill that comes about is exact. -/
theorem Concludes.exact {policy : Policy}
    (billed : dumper.Concludes key (report.walkOptions needle) policy (.ok billing)) :
    dumper.IsExact key report needle policy billing := by
  cases billed with
  | isolated marked billed => exact isolated_isExact marked billed
  | reachable marked billed => exact reachable_isExact marked billed
  | transitive marked reached resolved ended => exact transitive_isExact marked reached ended

/-! ## Hidden objects below the builtins root -/

/-- What chains of fields lead to is reached by any fields, unless some object on the way is
hidden. -/
theorem reaches_of_leadsTo {heap : Heap size} {shown : HeapObject (Fin size) → Prop}
    {root place : Fin size} (leads : heap.LeadsTo root place)
    (isShown : ∀ between, heap.LeadsTo root between → heap.LeadsTo between place →
      shown (heap.object between)) :
    heap.Reaches shown (fun _ => True) root place := by
  induction leads with
  | refl => exact .here (isShown root .refl .refl)
  | @tail between place before refers earlier =>
    have reached := earlier fun other first second => isShown other first (second.tail refers)
    obtain ⟨field, held, target⟩ := refers
    exact .along reached ⟨field, held, trivial, target⟩
      (isShown place (before.tail ⟨field, held, target⟩) .refl)

/-- **Builtins are left out unless hidden objects shield them.** Whatever the policy, the report and
the order of moves, a bill is what is due and of a class that contains the needle, without the
objects that the builtins root reaches along objects that the report shows. So if builtins are left
out and the root leads to a billed object by any chain of fields, the chain passes an object that
the report hides; and if the report shows all that the root leads to, nothing that the root leads to
is billed. -/
theorem billed_unless_builtin {dumper : Dumper size} {key : NodeKey} {policy : Policy}
    {report : ReportOptions} {needle : Option String} {billing : Billing size}
    (billed : dumper.Concludes key (report.walkOptions needle) policy (.ok billing)) :
    (∀ place, place ∈ billing.objects.toList ↔
      dumper.IsDue key report place policy ∧ (dumper.heap.object place).Matches needle ∧
        ¬ dumper.IsBuiltin report place) ∧
    (dumper.config.excludeBuiltins = true → ∀ root, dumper.builtins = some root →
      (∀ place ∈ billing.objects.toList, dumper.heap.LeadsTo root place →
        ∃ hidden, dumper.heap.LeadsTo root hidden ∧ dumper.heap.LeadsTo hidden place ∧
          ¬ report.Shows (dumper.heap.object hidden)) ∧
      ((∀ place, dumper.heap.LeadsTo root place → report.Shows (dumper.heap.object place)) →
        ∀ place ∈ billing.objects.toList, ¬ dumper.heap.LeadsTo root place)) := by
  obtain ⟨_, exactly⟩ := billed.exact
  refine ⟨exactly, ?_⟩
  intro excludes root found
  have shielded : ∀ place ∈ billing.objects.toList, dumper.heap.LeadsTo root place →
      ∃ hidden, dumper.heap.LeadsTo root hidden ∧ dumper.heap.LeadsTo hidden place ∧
        ¬ report.Shows (dumper.heap.object hidden) := by
    intro place member leads
    by_contra unshielded
    obtain ⟨_, _, outside⟩ := (exactly place).mp member
    refine outside ⟨excludes, root, found, reaches_of_leadsTo leads ?_⟩
    intro between before after
    by_contra hidden
    exact unshielded ⟨between, before, after, hidden⟩
  refine ⟨shielded, ?_⟩
  intro shown place member leads
  obtain ⟨hidden, before, _, isHidden⟩ := shielded place member leads
  exact isHidden (shown hidden before)

/-- A dumper whose builtins lead, by way of a configuration, to an object that a package shares. -/
def shielded : Dumper 4 where
  heap :=
    { objects := #v[
        { className := "Shared", category := .plain, shape := .instance 8, fields := [] },
        { className := "Config", category := .configuration, shape := .instance 8
          fields := [{ name := "shared", target := 0, transient := false }] },
        { className := "Globals", category := .plain, shape := .instance 8
          fields := [{ name := "config", target := 1, transient := false }] },
        { className := "Package", category := .plain, shape := .instance 8
          fields := [{ name := "shared", target := 0, transient := false }] }]
      earlier := by decide }
  source := .ofStore (Store.empty.addNode (Schedule.corner "package") 3)
  builtins := some 2
  config := .standard
  measurers := Measurer.standard
  cancelled := false

/-- A report that shows everything but configurations. -/
def withoutConfiguration : ReportOptions :=
  { ReportOptions.all with configuration := false }

/-- Chains of fields lead from the builtins root to the shared object. -/
theorem shielded_leadsTo : shielded.heap.LeadsTo 2 0 := by
  have first : shielded.heap.Refers 2 1 := by
    unfold Heap.Refers
    decide +kernel
  have second : shielded.heap.Refers 1 0 := by
    unfold Heap.Refers
    decide +kernel
  exact .tail (.single first) second

/-- Along what the report shows, the builtins root reaches itself only. -/
theorem shielded_stops {place : Fin 4}
    (reached : shielded.heap.Reaches withoutConfiguration.Shows (fun _ => True) 2 place) :
    place = 2 := by
  induction reached with
  | here => rfl
  | @along previous next _ led isShown same =>
    obtain ⟨field, held, _, target⟩ := led
    have only : (shielded.heap.object 2).fields =
        [{ name := "config", target := 1, transient := false }] := rfl
    rw [same, only, List.mem_singleton] at held
    rw [← target, held] at isShown
    exact absurd (isShown.configuration rfl) (by decide)

/-- The reachable bill of the package comes about, with the shared object on it. -/
theorem shielded_billed :
    ∃ billing,
      (shielded.bill (Schedule.corner "package") .reachable withoutConfiguration none).1 =
        .ok billing ∧ 0 ∈ billing.objects.toList := by
  have fetched : shielded.source.store.value (Schedule.corner "package") = .ok (some 3) := by
    decide +kernel
  obtain ⟨marks, marked, closed, builtins⟩ :=
    shielded.builtinsMarks_exact rfl withoutConfiguration none
  obtain ⟨billing, billed, _⟩ := shielded.billReachable_exact rfl closed builtins fetched
  have held : { name := "shared", target := 0, transient := false } ∈
      (shielded.heap.object 3).fields := by
    decide +kernel
  have reached : shielded.Reaches withoutConfiguration 3 0 :=
    .along (.here (.of_plain rfl)) ⟨_, held, Or.inr rfl, rfl⟩ (.of_plain rfl)
  have outside : ¬ shielded.IsBuiltin withoutConfiguration 0 := by
    intro builtin
    obtain ⟨_, root, found, path⟩ := builtin
    cases found
    have same := shielded_stops path
    contradiction
  refine ⟨billing, ?_, ((Concludes.reachable marked billed).exact.2 0).mpr ?_⟩
  · rw [bill_of_marks .reachable marked]
    exact billed
  · exact ⟨⟨3, fetched, reached⟩, nofun, outside⟩

/-- **An object below the builtins root is billed.** The root leads to the shared object, and
builtins are left out; yet a report without configurations bills it to the package. -/
theorem hidden_builtin_billed :
    shielded.config.excludeBuiltins = true ∧ shielded.builtins = some 2 ∧
      shielded.heap.LeadsTo 2 0 ∧ ∃ billing,
        (shielded.bill (Schedule.corner "package") .reachable withoutConfiguration none).1 =
          .ok billing ∧ 0 ∈ billing.objects.toList :=
  ⟨rfl, rfl, shielded_leadsTo, shielded_billed⟩

/-- On the chain of fields from the builtins root to the shared object, which is billed to the
package, stands an object that the report hides. -/
theorem billed_unless_builtin_shielded :
    ∃ billing, shielded.Concludes (Schedule.corner "package")
        (withoutConfiguration.walkOptions none) .reachable (.ok billing) ∧
      0 ∈ billing.objects.toList ∧
      ∃ hidden, shielded.heap.LeadsTo 2 hidden ∧ shielded.heap.LeadsTo hidden 0 ∧
        ¬ withoutConfiguration.Shows (shielded.heap.object hidden) := by
  obtain ⟨billing, billed, member⟩ := shielded_billed
  have concludes := concludes_of_bill billed
  have rule := ((billed_unless_builtin concludes).2 rfl 2 rfl).1
  exact ⟨billing, concludes, member, rule 0 member shielded_leadsTo⟩

end Dumper

end Retained
