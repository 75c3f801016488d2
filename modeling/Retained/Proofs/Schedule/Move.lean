import Retained.Proofs.Store.Closure
import Retained.Proofs.Walk.Step
import Retained.Schedule.Basic

/-!
# What a move does

`State.Moved` lists the moves of a unit as rules: the stage that the unit is at, what it finds, and
the state that it leads to. Every possible move other than a cancellation from outside follows one
of the rules (`State.leads_cases`), and proofs about schedules go by the rules. A move changes the
stage of its own unit and, when it claims a dependency, makes that unit; it leaves every other unit
alone (`Moved.others`), so a unit that is resolved stays as it is (`Moved.resolved_stays`).
-/

namespace Retained.Schedule

variable {size : Nat}

namespace State

variable {state next : State size} {plan : Plan size} {key : NodeKey}

/-- What has happened so far, in order. -/
def events (state : State size) : List Event :=
  state.log.toList

@[simp] theorem events_put (state : State size) (key : NodeKey) (stage : Stage size) :
    (state.put key stage).events = state.events := rfl

@[simp] theorem events_note (state : State size) (event : Event) :
    (state.note event).events = state.events ++ [event] :=
  Array.toList_push

/-- Putting a unit at a stage changes that unit only. -/
theorem units_put (state : State size) (key other : NodeKey) (stage : Stage size) :
    (state.put key stage).units[other]? =
      if other = key then some stage else state.units[other]? := by
  simp only [put, Std.ExtTreeMap.getElem?_insert, Std.LawfulEqCmp.compare_eq_iff_eq]
  by_cases same : other = key
  · simp [same]
  · rw [if_neg same, if_neg (Ne.symm same)]

/-- A failure of a unit changes that unit only. -/
theorem units_fail (state : State size) (key other : NodeKey) (cause : Interruption) :
    (state.fail key cause).units[other]? =
      if other = key then some (.failed cause) else state.units[other]? :=
  state.units_put key other (.failed cause)

/-- A unit that fails has failed. -/
theorem units_fail_self (state : State size) (key : NodeKey) (cause : Interruption) :
    (state.fail key cause).units[key]? = some (.failed cause) := by
  rw [units_fail, if_pos rfl]

@[simp] theorem units_note (state : State size) (event : Event) :
    (state.note event).units = state.units := rfl

@[simp] theorem units_release (state : State size) : state.release.units = state.units := rfl

/-- A unit is there exactly if it is at a stage. -/
theorem mem_units_iff {state : State size} {key : NodeKey} :
    key ∈ state.units ↔ ∃ stage, state.units[key]? = some stage := by
  rw [← Option.isSome_iff_exists, Std.ExtTreeMap.isSome_getElem?_iff_mem]

/-- The moves of one unit: the unit's stage, what it finds, and the state that it leads to. -/
inductive Moved (plan : Plan size) (state : State size) (key : NodeKey) : State size → Prop where
  /-- A new unit sees that the schedule is cancelled. -/
  | refuse (held : state.units[key]? = some .spawned) (isCancelled : state.cancelled = true) :
      Moved plan state key (state.fail key .dumpCancelled)
  /-- A new unit cannot fetch its node. -/
  | miss {cause : Interruption} (held : state.units[key]? = some .spawned)
      (unfetched : ¬ plan.store.Fetchable key) (genuine : cause ≠ .stalled) :
      Moved plan state key (state.fail key cause)
  /-- A new unit fetches its node. -/
  | fetch {value : Fin size} {deps : List NodeKey} (held : state.units[key]? = some .spawned)
      (goesOn : state.cancelled = false) (fetched : plan.store.Fetches key value deps) :
      Moved plan state key (state.put key (.claiming value deps deps))
  /-- A unit is the first to reach a dependency. -/
  | claim {value : Fin size} {dep : NodeKey} {left deps : List NodeKey}
      (held : state.units[key]? = some (.claiming value (dep :: left) deps))
      (fresh : state.units[dep]? = none) :
      Moved plan state key
        (((state.put key (.claiming value left deps)).put dep .spawned).note (.claimed dep))
  /-- A unit reaches a dependency that has its unit already. -/
  | join {value : Fin size} {dep : NodeKey} {left deps : List NodeKey}
      (held : state.units[key]? = some (.claiming value (dep :: left) deps))
      (known : dep ∈ state.units) :
      Moved plan state key ((state.put key (.claiming value left deps)).note (.joined dep))
  /-- A unit has reached all of its dependencies. -/
  | await {value : Fin size} {deps : List NodeKey}
      (held : state.units[key]? = some (.claiming value [] deps)) :
      Moved plan state key (state.put key (.waiting value deps))
  /-- A unit fails because a dependency has failed. -/
  | inherit {value : Fin size} {dep : NodeKey} {deps : List NodeKey} {cause : Interruption}
      (held : state.units[key]? = some (.waiting value deps)) (member : dep ∈ deps)
      (failed : state.units[dep]? = some (.failed cause)) :
      Moved plan state key (state.fail key cause)
  /-- All dependencies of a unit are done. -/
  | ready {value : Fin size} {deps : List NodeKey}
      (held : state.units[key]? = some (.waiting value deps))
      (done : ∀ dep ∈ deps, state.units[dep]? = some .walked) :
      Moved plan state key (state.put key (.queued value))
  /-- A waiting unit sees that the schedule is cancelled. -/
  | abandon {value : Fin size} {deps : List NodeKey}
      (held : state.units[key]? = some (.waiting value deps))
      (isCancelled : state.cancelled = true) :
      Moved plan state key (state.fail key .dumpCancelled)
  /-- A unit takes a permit. -/
  | permit {value : Fin size} (held : state.units[key]? = some (.queued value))
      (available : state.free ≠ 0) :
      Moved plan state key { state.put key (.admitted value) with free := state.free - 1 }
  /-- A unit with a permit sees that the schedule is cancelled. -/
  | dismiss {value : Fin size} (held : state.units[key]? = some (.admitted value))
      (isCancelled : state.cancelled = true) :
      Moved plan state key (state.release.fail key .dumpCancelled)
  /-- A unit with a permit starts its walk. -/
  | start {value : Fin size} (held : state.units[key]? = some (.admitted value))
      (goesOn : state.cancelled = false) :
      Moved plan state key
        ((state.put key (.walking (.start value))).note (.walkStarted key))
  /-- A walk goes on. -/
  | walk {walker further : Walker size} {scene : Scene size}
      (held : state.units[key]? = some (.walking walker))
      (stepped : Walker.Stepped plan.walk state.cancelled state.scene walker
        (walker.claims plan.walk state.scene) (.running further) scene) :
      Moved plan state key { state.put key (.walking further) with scene }
  /-- A walk sees that the schedule is cancelled. -/
  | interrupt {walker : Walker size} (held : state.units[key]? = some (.walking walker))
      (isCancelled : state.cancelled = true)
      (nothing : walker.claims plan.walk state.scene = []) :
      Moved plan state key (state.release.fail key .walkCancelled)
  /-- A walk is complete. -/
  | finish {walker : Walker size} {summary : WalkSummary}
      (held : state.units[key]? = some (.walking walker))
      (stepped : Walker.Stepped plan.walk state.cancelled state.scene walker
        (walker.claims plan.walk state.scene) (.finished summary) state.scene) :
      Moved plan state key
        { ((state.put key .walked).note (.walkFinished key summary.visited)).release with
          nodes := state.nodes + 1
          objects := state.objects + summary.visited }

/-! ## Every move follows a rule -/

/-- A unit that begins follows a rule. -/
theorem begin_moved (held : state.units[key]? = some .spawned) :
    Moved plan state key (state.begin plan key) := by
  unfold begin
  by_cases isCancelled : state.cancelled = true
  · rw [if_pos isCancelled]
    exact .refuse held isCancelled
  · rw [if_neg isCancelled]
    split
    · next error found =>
      refine .miss held ?_ nofun
      intro fetchable
      obtain ⟨value, deps, fetched, _⟩ := fetchable
      rw [found] at fetched
      contradiction
    · next found =>
      refine .miss held ?_ nofun
      intro fetchable
      obtain ⟨value, deps, fetched, _⟩ := fetchable
      rw [found] at fetched
      cases fetched
    · next value found =>
      split
      · next error missed =>
        refine .miss held ?_ nofun
        intro fetchable
        obtain ⟨value, deps, _, fetched⟩ := fetchable
        rw [missed] at fetched
        contradiction
      · next deps listed =>
        exact .fetch held (by simpa using isCancelled) ⟨found, listed⟩

/-- A unit that looks at its dependencies follows a rule. -/
theorem await_moved {value : Fin size} {deps : List NodeKey}
    (held : state.units[key]? = some (.waiting value deps))
    (moved : state.await key value deps = some next) : Moved plan state key next := by
  unfold State.await at moved
  split at moved
  · next cause found =>
    obtain ⟨dep, member, failed⟩ := List.exists_of_findSome?_eq_some found
    obtain ⟨stage, reached, failure⟩ := Option.bind_eq_some_iff.mp failed
    cases moved
    cases stage with
    | failed other =>
      have same : other = cause := by simpa [Stage.failure?] using failure
      exact .inherit held member (same ▸ reached)
    | _ => simp [Stage.failure?] at failure
  · by_cases done : state.allWalked deps = true
    · rw [if_pos done] at moved
      cases moved
      refine .ready held ?_
      intro dep member
      have walked := List.all_eq_true.mp done dep member
      cases reached : state.units[dep]? with
      | none => simp [reached] at walked
      | some stage => cases stage <;> simp_all [Stage.isWalked]
    · rw [if_neg done] at moved
      cases moved

/-- A unit with a permit that starts its walk follows a rule. -/
theorem startWalk_moved {value : Fin size}
    (held : state.units[key]? = some (.admitted value)) :
    Moved plan state key (state.startWalk key value) := by
  unfold startWalk
  by_cases isCancelled : state.cancelled = true
  · rw [if_pos isCancelled]
    exact .dismiss held isCancelled
  · rw [if_neg isCancelled]
    exact .start held (by simpa using isCancelled)

/-- A unit that steps its walk follows a rule. -/
theorem stepWalk_moved {walker : Walker size}
    (held : state.units[key]? = some (.walking walker)) :
    Moved plan state key (state.stepWalk plan key walker) := by
  have rule := walker.step_stepped plan.walk state.cancelled state.scene
  cases progress : walker.step plan.walk state.cancelled state.scene with
  | mk result scene =>
    rw [progress] at rule
    have unfolded : walker.step plan.walk state.token.isSet state.scene = (result, scene) :=
      progress
    unfold stepWalk
    simp only [unfolded]
    cases result with
    | running further => exact .walk held rule
    | interrupted =>
      obtain ⟨isCancelled, nothing, rfl⟩ := rule.interrupted
      exact .interrupt held isCancelled nothing
    | finished summary =>
      obtain ⟨_, _, _, _, rfl⟩ := rule.finished
      exact .finish held rule

/-- The next move of a unit follows a rule. -/
theorem advance_moved (moved : state.advance plan key = some next) :
    Moved plan state key next := by
  unfold advance at moved
  split at moved
  · next held => cases moved; exact begin_moved held
  · next value dep left deps held =>
    cases moved
    unfold reach
    by_cases known : dep ∈ state.units
    · have contained : (state.put key (.claiming value left deps)).units.contains dep = true := by
        simp only [put, Std.ExtTreeMap.contains_insert, Bool.or_eq_true]
        exact Or.inr (Std.ExtTreeMap.contains_iff_mem.mpr known)
      rw [if_pos contained]
      exact .join held known
    · have apart : dep ≠ key := by
        intro same
        rw [same] at known
        exact known (mem_units_iff.mpr ⟨_, held⟩)
      have absent : ¬ (state.put key (.claiming value left deps)).units.contains dep = true := by
        rw [Std.ExtTreeMap.contains_iff_mem, mem_units_iff, units_put, if_neg apart,
          ← mem_units_iff]
        exact known
      rw [if_neg absent]
      exact .claim held (Std.ExtTreeMap.getElem?_eq_none known)
  · next held => cases moved; exact .await held
  · next held => exact await_moved held moved
  · next value held =>
    by_cases none : state.free = 0
    · rw [if_pos none] at moved
      cases moved
    · rw [if_neg none] at moved
      cases moved
      exact .permit held none
  · next held => cases moved; exact startWalk_moved held
  · next held => cases moved; exact stepWalk_moved held
  all_goals cases moved

/-- A unit that gives up follows a rule. -/
theorem abandon_moved (moved : state.abandon key = some next) : Moved plan state key next := by
  unfold State.abandon at moved
  split at moved
  · next held =>
    by_cases isCancelled : state.cancelled = true
    · rw [if_pos isCancelled] at moved
      cases moved
      exact .abandon held isCancelled
    · rw [if_neg isCancelled] at moved
      cases moved
  · cases moved

/-- Every move is a cancellation from outside or follows a rule. -/
theorem leads_cases (leads : Leads plan state next) :
    next = { state with token := state.token.cancelSession } ∨
      ∃ key, Moved plan state key next := by
  obtain ⟨move, moved⟩ := leads
  cases move with
  | advance key => exact Or.inr ⟨key, advance_moved moved⟩
  | abandon key => exact Or.inr ⟨key, abandon_moved moved⟩
  | cancel => exact Or.inl (Option.some.inj moved).symm

/-- Every move that is not a cancellation from outside follows a rule. -/
theorem leadsInside_moved (leads : LeadsInside plan state next) :
    ∃ key, Moved plan state key next := by
  obtain ⟨move, inside, moved⟩ := leads
  cases move with
  | advance key => exact ⟨key, advance_moved moved⟩
  | abandon key => exact ⟨key, abandon_moved moved⟩
  | cancel => exact absurd rfl inside

/-! ## What a move leaves alone -/

namespace Moved

/-- The unit that moves is not resolved. -/
theorem held (moved : Moved plan state key next) :
    ∃ stage, state.units[key]? = some stage ∧ stage.isResolved = false := by
  cases moved <;> exact ⟨_, ‹_›, rfl⟩

/-- The unit that moves gets to a stage. -/
theorem units_self (moved : Moved plan state key next) : key ∈ next.units := by
  cases moved
  case claim =>
    rw [mem_units_iff, units_note, units_put]
    split
    · exact ⟨_, rfl⟩
    · exact ⟨_, by rw [units_put, if_pos rfl]⟩
  all_goals
    rw [mem_units_iff]
    exact ⟨_, by simp [units_put, units_fail]; rfl⟩

/-- Every other unit stays as it is, unless it is made by the move. -/
theorem others (moved : Moved plan state key next) {other : NodeKey} (apart : other ≠ key) :
    next.units[other]? = state.units[other]? ∨
      state.units[other]? = none ∧ next.units[other]? = some .spawned := by
  cases moved
  case claim dep left deps held fresh =>
    by_cases same : other = dep
    · rw [same, units_note, units_put, if_pos rfl]
      exact Or.inr ⟨fresh, rfl⟩
    · rw [units_note, units_put, if_neg same, units_put, if_neg apart]
      exact Or.inl rfl
  all_goals
    left
    simp [units_put, units_fail, apart]

/-- A unit that is there stays there. -/
theorem mem_stays (moved : Moved plan state key next) {other : NodeKey}
    (known : other ∈ state.units) : other ∈ next.units := by
  by_cases same : other = key
  · rw [same]
    exact moved.units_self
  · rw [mem_units_iff] at known ⊢
    obtain ⟨stage, held⟩ := known
    rcases moved.others same with unchanged | ⟨absent, _⟩
    · exact ⟨stage, unchanged.trans held⟩
    · rw [absent] at held
      contradiction

/-- A unit that a move makes is a dependency that the moving unit has reached. -/
theorem claimer (moved : Moved plan state key next) {dep : NodeKey} (known : dep ∈ next.units)
    (fresh : dep ∉ state.units) :
    ∃ value left deps, state.units[key]? = some (.claiming value (dep :: left) deps) := by
  obtain ⟨stage, before, _⟩ := moved.held
  have apart : dep ≠ key := by
    intro same
    rw [same] at fresh
    exact fresh (mem_units_iff.mpr ⟨stage, before⟩)
  cases moved
  case claim value other left deps held absent =>
    by_cases same : dep = other
    · rw [same]
      exact ⟨value, left, deps, held⟩
    · rw [mem_units_iff, units_note, units_put, if_neg same, units_put, if_neg apart,
        ← mem_units_iff] at known
      exact absurd known fresh
  all_goals
    simp only [mem_units_iff, units_note, units_release, units_put, units_fail,
      if_neg apart] at known
    exact absurd (mem_units_iff.mpr known) fresh

/-- A resolved unit stays as it is. -/
theorem resolved_stays (moved : Moved plan state key next) {other : NodeKey} {stage : Stage size}
    (held : state.units[other]? = some stage) (resolved : stage.isResolved = true) :
    next.units[other]? = some stage := by
  have apart : other ≠ key := by
    intro same
    obtain ⟨moving, found, unresolved⟩ := moved.held
    rw [same, found] at held
    cases held
    rw [resolved] at unresolved
    contradiction
  rcases moved.others apart with unchanged | ⟨absent, _⟩
  · exact unchanged.trans held
  · rw [absent] at held
    contradiction

end Moved

end State

end Retained.Schedule
