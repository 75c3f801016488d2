import Retained.Proofs.Walk.Path

/-!
# One step of a walk

`Walker.Stepped` lists the steps of a walk as rules, one for each thing that a step can do, with the
objects whose marks the step sets itself; `Walker.step_stepped` says that every step follows one of
them. What a walk marks, it reports one step later, so the objects marked and not yet reported are
carried along (`Walker.unreported`), and what a step adds to them and takes from them is conserved
(`Stepped.accounts`). A step keeps the marks covering the same roots (`Stepped.covers`), whatever
other walks have pending.
-/

namespace Retained.Walker

variable {size : Nat} {walk : Walk size}

/-- The places that a walk has still to look at. -/
def pending (walk : Walk size) (walker : Walker size) : List (Fin size) :=
  walker.stack ++
    match walker.task with
    | .report place => walk.successors place
    | .offer places => places

/-- The objects that a walk has marked and not yet reported. -/
def unreported (walker : Walker size) : List (Fin size) :=
  match walker.task with
  | .report place => [place]
  | .offer _ => []

/-- The objects whose marks the next step sets: it finds them unmarked and owns them from then
on. -/
def claims (walk : Walk size) (scene : Scene size) (walker : Walker size) : List (Fin size) :=
  match walker.task, walker.stack with
  | .offer [], place :: _ =>
    if walk.skips place || scene.marks.contains place then [] else [place]
  | _, _ => []

section Pending

variable {stack others : List (Fin size)} {place other : Fin size} {summary : WalkSummary}

/-- A walk between two objects has its stack pending. -/
theorem mem_pending_idle :
    other ∈ pending walk { stack, task := .offer [], summary } ↔ other ∈ stack := by
  simp [pending]

/-- A walk between two objects looks at the top of its stack, and later at the rest. -/
theorem mem_pending_stack :
    other ∈ pending walk { stack := place :: stack, task := .offer [], summary } ↔
      other = place ∨ other ∈ pending walk { stack, task := .offer [], summary } := by
  simp [pending]

/-- A walk that reports an object has its stack and the object's successors pending. -/
theorem mem_pending_task :
    other ∈ pending walk { stack, task := .report place, summary } ↔
      other ∈ stack ∨ walk.Follows place other := by
  simp [pending, Walk.mem_successors_iff]

/-- Reporting an object leaves the same places pending. -/
theorem mem_pending_report (other : Fin size) :
    other ∈ (report { stack, task := .report place, summary } walk place).pending walk ↔
      other ∈ pending walk { stack, task := .report place, summary } := by
  simp [report, pending]

/-- Offering a successor makes no other place pending. -/
theorem mem_pending_of_offer {scene : Scene size}
    (waiting : other ∈ (offer { stack, task := .offer (place :: others), summary } scene place
      others).pending walk) :
    other ∈ pending walk { stack, task := .offer (place :: others), summary } := by
  simp only [pending, offer, List.mem_append, List.mem_cons] at waiting ⊢
  rcases waiting with stacked | offered
  · split at stacked
    · exact Or.inl stacked
    · rcases List.mem_cons.mp stacked with same | deeper
      · exact Or.inr (Or.inl same)
      · exact Or.inl deeper
  · exact Or.inr (Or.inr offered)

/-- Offering a successor leaves every other place pending, and the successor unless it is marked. -/
theorem settled_or_mem_pending_offer {scene : Scene size}
    (waiting : other ∈ pending walk { stack, task := .offer (place :: others), summary }) :
    walk.Settled scene.marks other ∨
      other ∈ (offer { stack, task := .offer (place :: others), summary } scene place
        others).pending walk := by
  simp only [pending, offer, List.mem_append, List.mem_cons] at waiting ⊢
  by_cases marked : scene.marks.contains place = true
  · rw [if_pos marked]
    rcases waiting with stacked | same | offered
    · exact Or.inr (Or.inl stacked)
    · exact Or.inl (Or.inr (same ▸ marked))
    · exact Or.inr (Or.inr offered)
  · rw [if_neg marked]
    rcases waiting with stacked | same | offered
    · exact Or.inr (Or.inl (List.mem_cons_of_mem _ stacked))
    · exact Or.inr (Or.inl (same ▸ List.mem_cons_self))
    · exact Or.inr (Or.inr offered)

end Pending

/-- The steps of a walk over a scene: the walk, the objects that it claims, what comes of it, and
the scene afterwards. -/
inductive Stepped (walk : Walk size) (cancelled : Bool) (scene : Scene size) :
    Walker size → List (Fin size) → WalkProgress size → Scene size → Prop where
  /-- The walk sees its cancellation before it reports. -/
  | cut {stack : List (Fin size)} {place : Fin size} {summary : WalkSummary}
      (isCancelled : cancelled = true) :
      Stepped walk cancelled scene { stack, task := .report place, summary } [] .interrupted scene
  /-- The object just marked is reported, if it is to be. -/
  | report {stack : List (Fin size)} {place : Fin size} {summary : WalkSummary} :
      Stepped walk cancelled scene { stack, task := .report place, summary } []
        (.running (report { stack, task := .report place, summary } walk place))
        { scene with
          reported := if walk.wants place then scene.reported.push place else scene.reported }
  /-- A successor is offered to the stack. -/
  | offer {stack others : List (Fin size)} {place : Fin size} {summary : WalkSummary} :
      Stepped walk cancelled scene { stack, task := .offer (place :: others), summary } []
        (.running (offer { stack, task := .offer (place :: others), summary } scene place others))
        scene
  /-- The next object is not entered. -/
  | pass {stack : List (Fin size)} {place : Fin size} {summary : WalkSummary}
      (settled : walk.Settled scene.marks place) :
      Stepped walk cancelled scene { stack := place :: stack, task := .offer [], summary } []
        (.running { stack, task := .offer [], summary }) scene
  /-- The next object is entered and marked. -/
  | enter {stack : List (Fin size)} {place : Fin size} {summary : WalkSummary}
      (enters : walk.Enters scene.marks place) :
      Stepped walk cancelled scene { stack := place :: stack, task := .offer [], summary } [place]
        (.running {
          stack, task := .report place
          summary := { summary with visited := summary.visited + 1 } })
        { scene with marks := scene.marks.mark place }
  /-- The walk is complete. -/
  | finish {summary : WalkSummary} (goesOn : cancelled = false) :
      Stepped walk cancelled scene { stack := [], task := .offer [], summary } []
        (.finished summary) scene
  /-- The walk sees its cancellation at its end. -/
  | stop {summary : WalkSummary} (isCancelled : cancelled = true) :
      Stepped walk cancelled scene { stack := [], task := .offer [], summary } [] .interrupted scene

/-- Every step follows one of the rules. -/
theorem step_stepped (walk : Walk size) (cancelled : Bool) (walker : Walker size)
    (scene : Scene size) :
    Stepped walk cancelled scene walker (walker.claims walk scene)
      (walker.step walk cancelled scene).1 (walker.step walk cancelled scene).2 := by
  obtain ⟨stack, task, summary⟩ := walker
  cases task with
  | report place =>
    simp only [step, claims]
    by_cases due : (cancelled && summary.visited % cancellationInterval == 0) = true
    · rw [if_pos due]
      simp only [Bool.and_eq_true] at due
      exact .cut due.1
    · rw [if_neg due]
      have reported := @Stepped.report _ walk cancelled scene stack place summary
      by_cases wanted : walk.wants place = true
      · rw [if_pos wanted] at reported ⊢
        exact reported
      · rw [if_neg wanted] at reported ⊢
        exact reported
  | offer places =>
    cases places with
    | cons place others => exact .offer
    | nil =>
      cases stack with
      | nil =>
        simp only [step, claims]
        cases cancelled with
        | true => exact .stop rfl
        | false => exact .finish rfl
      | cons place stack =>
        simp only [step, claims]
        by_cases settled : (walk.skips place || scene.marks.contains place) = true
        · rw [if_pos settled, if_pos settled]
          exact .pass (Walk.settled_iff.mpr settled)
        · rw [if_neg settled, if_neg settled]
          exact .enter (Walk.enters_iff.mpr (Bool.eq_false_iff.mpr settled))

/-- A step with a known outcome follows the rule of that outcome. -/
theorem stepped_of_step {cancelled : Bool} {scene after : Scene size} {walker : Walker size}
    {progress : WalkProgress size}
    (stepped : walker.step walk cancelled scene = (progress, after)) :
    Stepped walk cancelled scene walker (walker.claims walk scene) progress after := by
  have rule := walker.step_stepped walk cancelled scene
  rwa [stepped] at rule

namespace Stepped

variable {cancelled : Bool} {scene after : Scene size} {walker next : Walker size}
variable {claimed : List (Fin size)} {progress : WalkProgress size} {summary : WalkSummary}

/-- A step sets no mark, or that of one object which it enters. -/
theorem marks_cases (stepped : Stepped walk cancelled scene walker claimed progress after) :
    (claimed = [] ∧ after.marks = scene.marks) ∨
      ∃ place, claimed = [place] ∧ walk.Enters scene.marks place ∧
        after.marks = scene.marks.mark place := by
  cases stepped with
  | enter enters => exact Or.inr ⟨_, rfl, enters, rfl⟩
  | _ => exact Or.inl ⟨rfl, rfl⟩

/-- The marks after a step are those before and those that the step sets. -/
theorem contains_iff (stepped : Stepped walk cancelled scene walker claimed progress after)
    (place : Fin size) :
    after.marks.contains place = true ↔
      scene.marks.contains place = true ∨ place ∈ claimed := by
  rcases stepped.marks_cases with ⟨rfl, same⟩ | ⟨taken, rfl, _, grown⟩
  · simp [same]
  · rw [grown, Marks.contains_mark]
    simp only [Bool.or_eq_true, decide_eq_true_eq, List.mem_singleton]
    rw [or_comm, @eq_comm _ taken]

/-- A walk claims only unmarked objects. -/
theorem unmarked_of_claimed
    (stepped : Stepped walk cancelled scene walker claimed progress after) {place : Fin size}
    (isClaimed : place ∈ claimed) : scene.marks.contains place = false := by
  rcases stepped.marks_cases with ⟨rfl, _⟩ | ⟨taken, rfl, enters, _⟩
  · simp at isClaimed
  · rw [List.mem_singleton.mp isClaimed]
    exact enters.2

/-- One step claims no object twice. -/
theorem claimed_nodup (stepped : Stepped walk cancelled scene walker claimed progress after) :
    claimed.Nodup := by
  rcases stepped.marks_cases with ⟨rfl, _⟩ | ⟨_, rfl, _, _⟩ <;> simp

/-- What a walk had not reported before a step and what it claims in the step is seen in it or not
reported after it; of the objects seen, the wanted ones are reported. -/
theorem accounts (stepped : Stepped walk cancelled scene walker claimed (.running next) after) :
    ∃ seen, walker.unreported ++ claimed = seen ++ next.unreported ∧
      after.reported.toList = scene.reported.toList ++ seen.filter walk.wants ∧
      next.summary.visited = walker.summary.visited + claimed.length ∧
      next.summary.reported = walker.summary.reported + (seen.filter walk.wants).length := by
  cases stepped with
  | @report stack place summary =>
    refine ⟨[place], rfl, ?_⟩
    by_cases wanted : walk.wants place = true
    · simp [wanted, Walker.report]
    · simp [wanted, Walker.report]
  | offer => exact ⟨[], rfl, by simp [Walker.offer]⟩
  | pass => exact ⟨[], rfl, by simp⟩
  | enter => exact ⟨[], rfl, by simp⟩

/-- A walk that goes on keeps its marks covering the same roots. -/
theorem covers {first : Marks size} {roots others : Fin size → Prop}
    (stepped : Stepped walk cancelled scene walker claimed (.running next) after)
    (covers : walk.Covers first scene.marks roots
      fun place => place ∈ walker.pending walk ∨ others place) :
    walk.Covers first after.marks roots
      fun place => place ∈ next.pending walk ∨ others place := by
  cases stepped with
  | report =>
    refine covers.settle (fun other => Or.imp_left ?_) (fun other waiting => Or.inr ?_)
    · exact (mem_pending_report other).mp
    · exact waiting.imp_left (mem_pending_report other).mpr
  | offer =>
    refine covers.settle (fun other => Or.imp_left ?_) ?_
    · exact mem_pending_of_offer
    · intro other pending
      rcases pending with waiting | elsewhere
      · exact (settled_or_mem_pending_offer waiting).imp_right Or.inl
      · exact Or.inr (Or.inr elsewhere)
  | pass settled =>
    refine covers.settle (fun other => Or.imp_left ?_) ?_
    · exact fun stacked => mem_pending_stack.mpr (Or.inr stacked)
    · intro other pending
      rcases pending with waiting | elsewhere
      · rcases mem_pending_stack.mp waiting with same | stacked
        · rw [same]
          exact Or.inl settled
        · exact Or.inr (Or.inl stacked)
      · exact Or.inr (Or.inr elsewhere)
  | enter enters =>
    refine covers.mark enters (Or.inl (mem_pending_stack.mpr (Or.inl rfl))) ?_ ?_ ?_
    · intro other left
      rcases left with waiting | elsewhere
      · rcases mem_pending_task.mp waiting with stacked | followed
        · apply Or.inl
          apply Or.inl
          exact mem_pending_stack.mpr (Or.inr (mem_pending_idle.mpr stacked))
        · exact Or.inr followed
      · exact Or.inl (Or.inr elsewhere)
    · intro other pending
      rcases pending with waiting | elsewhere
      · rcases mem_pending_stack.mp waiting with same | idle
        · exact Or.inl same
        · have stacked := mem_pending_idle.mp idle
          exact Or.inr (Or.inl (mem_pending_task.mpr (Or.inl stacked)))
      · exact Or.inr (Or.inr elsewhere)
    · intro next followed
      exact Or.inl (mem_pending_task.mpr (Or.inr followed))

/-- A walk that completes has nothing left to do, and its summary says what it has done. -/
theorem finished (stepped : Stepped walk cancelled scene walker claimed (.finished summary) after) :
    walker.pending walk = [] ∧ walker.unreported = [] ∧ walker.summary = summary ∧
      claimed = [] ∧ after = scene := by
  cases stepped with
  | finish => exact ⟨rfl, rfl, rfl, rfl, rfl⟩

/-- A walk that completes is not cancelled. -/
theorem not_cancelled_of_finished
    (stepped : Stepped walk cancelled scene walker claimed (.finished summary) after) :
    cancelled = false := by
  cases stepped with
  | finish goesOn => exact goesOn

/-- A walk that is interrupted is cancelled and leaves the scene alone. -/
theorem interrupted (stepped : Stepped walk cancelled scene walker claimed .interrupted after) :
    cancelled = true ∧ claimed = [] ∧ after = scene := by
  cases stepped with
  | cut isCancelled => exact ⟨isCancelled, rfl, rfl⟩
  | stop isCancelled => exact ⟨isCancelled, rfl, rfl⟩

end Stepped

end Retained.Walker
