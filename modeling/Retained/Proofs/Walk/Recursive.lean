import Retained.Proofs.Walk.History

/-!
# Walks as recursion

The recursive walk is the plain way to claim what a place reaches: it returns at an object that is
skipped or marked, and otherwise marks it, reports it if it is wanted, and visits the targets of its
followed fields in the order of their declaration. A walk with a stack does the same, in the same
order (`Walk.traverse_recursive`): at any moment, the recursive walk over what the stack holds would
complete what the walk has done so far (`Walker.completion`), and no step changes to what.
-/

namespace Retained

variable {size : Nat}

/-- What a recursive walk has done so far. -/
structure Visit (size : Nat) where
  /-- The marks and the reports. -/
  scene : Scene size
  /-- The objects marked, in order. -/
  order : List (Fin size)
  /-- The number of objects marked and reported. -/
  summary : WalkSummary

namespace Visit

/-- Nothing done yet. -/
def start (scene : Scene size) : Visit size :=
  { scene, order := [], summary := { visited := 0, reported := 0 } }

/-- Mark an object. -/
def mark (visit : Visit size) (place : Fin size) : Visit size :=
  { scene := { visit.scene with marks := visit.scene.marks.mark place }
    order := visit.order ++ [place]
    summary := { visit.summary with visited := visit.summary.visited + 1 } }

/-- Report an object. -/
def report (visit : Visit size) (place : Fin size) : Visit size :=
  { visit with
    scene := { visit.scene with reported := visit.scene.reported.push place }
    summary := { visit.summary with reported := visit.summary.reported + 1 } }

/-- Report an object if a walk wants it. -/
def reportWanted (visit : Visit size) (walk : Walk size) (place : Fin size) : Visit size :=
  if walk.wants place then visit.report place else visit

/-- Reporting leaves the marks as they are. -/
@[simp] theorem marks_reportWanted (visit : Visit size) (walk : Walk size) (place : Fin size) :
    (visit.reportWanted walk place).scene.marks = visit.scene.marks := by
  unfold reportWanted
  split <;> rfl

/-- Marking an object marks it. -/
@[simp] theorem marks_mark (visit : Visit size) (place : Fin size) :
    (visit.mark place).scene.marks = visit.scene.marks.mark place := rfl

end Visit

namespace Walk

/-- A walk goes on from an object to earlier places only. -/
theorem successor_lt (walk : Walk size) {place next : Fin size}
    (followed : next ∈ walk.successors place) : next < place := by
  obtain ⟨field, held, rfl⟩ := List.mem_map.mp followed
  exact walk.heap.target_lt place (List.mem_of_mem_filter held)

/-- The recursive walk from a place. -/
def visit (walk : Walk size) (place : Fin size) (done : Visit size) : Visit size :=
  if walk.skips place then done
  else if done.scene.marks.contains place then done
  else
    (walk.heap.object place).fields.attach.foldl
      (fun done field =>
        if walk.options.follows field.val then walk.visit field.val.target done else done)
      ((done.mark place).reportWanted walk place)
termination_by place.val
decreasing_by exact walk.heap.target_lt place field.property

/-- The recursive walk visits some places one after the other. -/
def visitAll (walk : Walk size) (places : List (Fin size)) (done : Visit size) : Visit size :=
  places.foldl (fun done place => walk.visit place done) done

/-- The recursive walk enters an object and visits its successors. -/
theorem visit_eq (walk : Walk size) (place : Fin size) (done : Visit size) :
    walk.visit place done =
      if walk.skips place || done.scene.marks.contains place then done
      else walk.visitAll (walk.successors place) ((done.mark place).reportWanted walk place) := by
  have followed : ∀ (fields : List (Field (Fin size))) (done : Visit size),
      fields.attach.foldl (fun done field =>
          if walk.options.follows field.val then walk.visit field.val.target done else done) done =
        walk.visitAll ((fields.filter walk.options.follows).map Field.target) done := by
    intro fields done
    rw [List.foldl_attach (f := fun done field =>
      if walk.options.follows field then walk.visit field.target done else done)]
    rw [visitAll, List.foldl_map, List.foldl_filter]
  rw [Walk.visit, followed]
  by_cases skipped : walk.skips place = true
  · simp [skipped]
  · simp [skipped, successors, WalkOptions.successors]

variable {walk : Walk size} {place other : Fin size} {done : Visit size}

/-- The recursive walk leaves an object alone that it does not enter. -/
theorem visit_of_settled (settled : walk.Settled done.scene.marks place) :
    walk.visit place done = done := by
  rw [visit_eq, if_pos (settled_iff.mp settled)]

/-- The recursive walk marks and reports an object that it enters, and goes on from it. -/
theorem visit_of_enters (enters : walk.Enters done.scene.marks place) :
    walk.visit place done =
      walk.visitAll (walk.successors place) ((done.mark place).reportWanted walk place) := by
  rw [visit_eq, enters_iff.mp enters]
  rfl

@[simp] theorem visitAll_cons {places : List (Fin size)} :
    walk.visitAll (place :: places) done = walk.visitAll places (walk.visit place done) := rfl

/-- The recursive walk visits places in front of others first. -/
theorem visitAll_append (places others : List (Fin size)) :
    walk.visitAll (places ++ others) done = walk.visitAll others (walk.visitAll places done) :=
  List.foldl_append

/-- What visiting each of some places keeps is kept by visiting them all. -/
theorem visitAll_keeps {motive : Visit size → Prop} {places : List (Fin size)}
    (each : ∀ place ∈ places, ∀ done, motive done → motive (walk.visit place done))
    (holds : motive done) :
    motive (walk.visitAll places done) :=
  List.foldlRecOn (motive := motive) places _ holds fun done kept place member =>
    each place member done kept

/-- The recursive walk keeps the marks that are set. -/
theorem contains_visit (place : Fin size) (marked : done.scene.marks.contains other = true) :
    (walk.visit place done).scene.marks.contains other = true := by
  -- The induction is on places, since fields refer to earlier ones only.
  induction place using WellFoundedLT.induction generalizing done with
  | ind place below =>
    by_cases settled : walk.Settled done.scene.marks place
    · rw [visit_of_settled settled]
      exact marked
    · have enters : walk.Enters done.scene.marks place := not_settled_iff.mp settled
      have entered :
          ((done.mark place).reportWanted walk place).scene.marks.contains other = true := by
        simp [Marks.contains_mark, marked]
      rw [visit_of_enters enters]
      exact visitAll_keeps (motive := fun done => done.scene.marks.contains other = true)
        (fun next followed _ kept => below next (walk.successor_lt followed) kept) entered

/-- The recursive walk keeps the marks that are set, whatever it visits. -/
theorem contains_visitAll {places : List (Fin size)}
    (marked : done.scene.marks.contains other = true) :
    (walk.visitAll places done).scene.marks.contains other = true := by
  refine visitAll_keeps (motive := fun done => done.scene.marks.contains other = true) ?_ marked
  intro place _ done kept
  exact contains_visit place kept

end Walk

namespace Walker

variable {walk : Walk size} {scene after : Scene size} {walker next : Walker size}

/-- What the recursive walk over what a walk has still to look at makes of what the walk has
done. -/
def completion (walk : Walk size) (walker : Walker size) (scene : Scene size)
    (order : List (Fin size)) : Visit size :=
  match walker.task with
  | .report place =>
    walk.visitAll (walk.successors place ++ walker.stack)
      (Visit.reportWanted { scene, order, summary := walker.summary } walk place)
  | .offer places =>
    walk.visitAll (places.reverse ++ walker.stack) { scene, order, summary := walker.summary }

/-- A step of a walk changes nothing about what the recursive walk would make of it. -/
theorem Stepped.completion {cancelled : Bool} {claimed : List (Fin size)}
    (stepped : Stepped walk cancelled scene walker claimed (.running next) after)
    (order : List (Fin size)) :
    next.completion walk after (order ++ claimed) = walker.completion walk scene order := by
  cases stepped with
  | @report stack place summary =>
    by_cases wanted : walk.wants place = true
    · simp [Walker.completion, Walker.report, Visit.reportWanted, Visit.report, wanted]
    · simp [Walker.completion, Walker.report, Visit.reportWanted, wanted]
  | @offer stack others place summary =>
    simp only [Walker.completion, Walker.offer, List.reverse_cons, List.append_assoc,
      List.singleton_append, List.append_nil]
    by_cases marked : scene.marks.contains place = true
    · -- The place would be visited after the others, and it is still marked then.
      rw [if_pos marked, Walk.visitAll_append, Walk.visitAll_append, Walk.visitAll_cons,
        Walk.visit_of_settled (Or.inr (Walk.contains_visitAll marked))]
    · rw [if_neg marked]
  | @pass stack place summary settled =>
    simp only [Walker.completion, List.reverse_nil, List.nil_append, List.append_nil,
      Walk.visitAll_cons]
    rw [Walk.visit_of_settled settled]
  | @enter stack place summary enters =>
    simp only [Walker.completion, List.reverse_nil, List.nil_append, Walk.visitAll_cons,
      Walk.visitAll_append]
    rw [Walk.visit_of_enters enters]
    rfl

end Walker

namespace Walk

/-- A walk that is not cancelled completes as the recursive walk over what it has still to look
at. -/
theorem run_completion (walk : Walk size) (taken : Nat) (walker : Walker size) (scene : Scene size)
    (order : List (Fin size)) :
    walk.run .never taken walker scene =
        (some (walker.completion walk scene order).summary,
          (walker.completion walk scene order).scene) ∧
      order ++ (walk.history .never taken walker scene).flatten =
        (walker.completion walk scene order).order := by
  induction taken, walker, scene using Walk.run.induct walk .never generalizing order with
  | case1 taken walker scene next after stepped further =>
    have rule := Walker.stepped_of_step stepped
    obtain ⟨ends, marked⟩ := further (order ++ walker.claims walk scene)
    rw [rule.completion] at ends marked
    rw [run_of_running stepped, history_of_running stepped, List.flatten_cons, rule.added,
      ← List.append_assoc]
    exact ⟨ends, marked⟩
  | case2 taken walker scene summary after stepped =>
    have rule := Walker.stepped_of_step stepped
    rw [run_of_finished stepped, history_of_finished stepped, List.flatten_nil, List.append_nil]
    generalize walker.claims walk scene = claimed at rule
    cases rule with
    | finish => exact ⟨rfl, rfl⟩
  | case3 taken walker scene after stepped =>
    have rule := Walker.stepped_of_step stepped
    cases rule.interrupted.1

/-- A walk with a stack is the recursive walk: it marks the same objects in the same order, reports
the same objects in the same order, and leaves the same marks and the same summary. -/
theorem traverse_recursive (walk : Walk size) (root : Fin size) (scene : Scene size) :
    walk.traverse .never root scene =
        (some (walk.visit root (.start scene)).summary, (walk.visit root (.start scene)).scene) ∧
      walk.markingOrder .never root scene = (walk.visit root (.start scene)).order :=
  walk.run_completion 0 (.start root) scene []

end Walk

end Retained
