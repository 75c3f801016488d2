import Retained.Proofs.Schedule.History
import Retained.Proofs.Tally.Order
import Retained.Dump.Basic

/-!
# What a schedule attributes

Walks of a schedule share their marks: a walk that finds an object marked leaves everything below it
to the walk that marked it, which may be far from done. What holds at every moment is that all walks
together have everything pending that is not yet settled (`State.Covered`). When the root is walked
nothing is pending, so the new marks are exactly what the values of the closure reach, and with the
history nothing is marked, counted or reported twice. The result is a function of the graph and not
of the schedule (`State.transitive_exact`).
-/

namespace Retained.Schedule

variable {size : Nat}

namespace Stage

/-- Whether the walk of the unit has started and not failed. -/
def hasBegun : Stage size → Bool
  | walking _ => true
  | walked => true
  | _ => false

/-- The places that the walk of the unit has still to look at. -/
def pending (walk : Walk size) : Stage size → List (Fin size)
  | walking walker => walker.pending walk
  | _ => []

end Stage

namespace State

variable {state next : State size} {plan : Plan size} {root key : NodeKey} {session : Bool}
variable {marks : Marks size} {history : List (NodeKey × Fin size)}

/-- The values whose walks have started. -/
def roots (plan : Plan size) (state : State size) (place : Fin size) : Prop :=
  ∃ key, (state.stage key).hasBegun = true ∧ plan.store.value key = .ok (some place)

/-- The places that some walk has still to look at. -/
def pending (plan : Plan size) (state : State size) (place : Fin size) : Prop :=
  ∃ key, place ∈ (state.stage key).pending plan.walk

/-- The marks have grown from the first ones by walks from the values begun, as far as the walks
under way have come. -/
def Covered (plan : Plan size) (marks : Marks size) (state : State size) : Prop :=
  plan.walk.Covers marks state.scene.marks (state.roots plan) (state.pending plan)

/-- The places pending are those of one unit and those of the others. -/
theorem pending_iff (plan : Plan size) (state : State size) (key : NodeKey) (place : Fin size) :
    state.pending plan place ↔ place ∈ (state.stage key).pending plan.walk ∨
      ∃ other, other ≠ key ∧ place ∈ (state.stage other).pending plan.walk := by
  constructor
  · intro isPending
    obtain ⟨other, waiting⟩ := isPending
    by_cases same : other = key
    · rw [same] at waiting
      exact Or.inl waiting
    · exact Or.inr ⟨other, same, waiting⟩
  · intro own_or_other
    rcases own_or_other with waiting | ⟨other, _, waiting⟩
    · exact ⟨key, waiting⟩
    · exact ⟨other, waiting⟩

/-- A move changes what is pending only for its own unit. -/
theorem Moved.pending_iff (moved : Moved plan state key next) (place : Fin size) :
    next.pending plan place ↔ place ∈ (next.stage key).pending plan.walk ∨
      ∃ other, other ≠ key ∧ place ∈ (state.stage other).pending plan.walk := by
  rw [State.pending_iff plan next key place]
  apply or_congr_right
  constructor
  · intro elsewhere
    obtain ⟨other, apart, waiting⟩ := elsewhere
    rw [moved.stage_others apart] at waiting
    exact ⟨other, apart, waiting⟩
  · intro elsewhere
    obtain ⟨other, apart, waiting⟩ := elsewhere
    rw [← moved.stage_others apart] at waiting
    exact ⟨other, apart, waiting⟩

/-- A move that begins no walk keeps the values begun. -/
theorem Moved.roots_iff (moved : Moved plan state key next)
    (same : (next.stage key).hasBegun = (state.stage key).hasBegun) (place : Fin size) :
    next.roots plan place ↔ state.roots plan place := by
  have stages : ∀ other, (next.stage other).hasBegun = (state.stage other).hasBegun := by
    intro other
    by_cases isKey : other = key
    · rw [isKey, same]
    · rw [moved.stage_others isKey]
  unfold roots
  simp only [stages]

/-- A move of a unit that neither begins a walk nor changes what its walk has pending keeps the
marks covered. -/
theorem Covered.of_quiet (covered : state.Covered plan marks) (moved : Moved plan state key next)
    (unmarked : next.scene.marks = state.scene.marks)
    (begun : (next.stage key).hasBegun = (state.stage key).hasBegun)
    (waiting : (next.stage key).pending plan.walk = (state.stage key).pending plan.walk) :
    next.Covered plan marks := by
  unfold Covered
  rw [unmarked]
  refine Walk.Covers.congr covered (moved.roots_iff begun) ?_
  intro place
  rw [moved.pending_iff, waiting, State.pending_iff plan state key]

/-- A move that fails no unit keeps the marks covered. -/
theorem Covered.moved (covered : state.Covered plan marks) (sound : state.Sound plan root)
    (moved : Moved plan state key next) (intact : next.Intact) : next.Covered plan marks := by
  have rule := moved
  cases rule
  case claim value dep left deps held fresh =>
    apply covered.of_quiet moved rfl
    · rw [stage_of_held held, stage_of_claim held fresh]
      rfl
    · rw [stage_of_held held, stage_of_claim held fresh]
      rfl
  case start value held goesOn =>
    have after : ((state.put key (.walking (.start value))).note (.walkStarted key)).stage key =
        .walking (.start value) := stage_put ..
    obtain ⟨deps, fetched, _⟩ := sound.fits key _ held
    refine Walk.Covers.addRoot covered value ?_ ?_
    · intro place
      constructor
      · intro isRoot
        obtain ⟨other, begun, found⟩ := isRoot
        by_cases same : other = key
        · rw [same] at found
          exact Or.inr (fetched.value_eq found)
        · rw [moved.stage_others same] at begun
          exact Or.inl ⟨other, begun, found⟩
      · intro earlier_or_new
        rcases earlier_or_new with ⟨other, begun, found⟩ | new
        · have apart : other ≠ key := by
            intro same
            rw [same, stage_of_held held] at begun
            cases begun
          rw [← moved.stage_others apart] at begun
          exact ⟨other, begun, found⟩
        · have begun : Stage.hasBegun (.walking (.start value) : Stage size) = true := rfl
          rw [← after] at begun
          rw [new]
          exact ⟨key, begun, fetched.1⟩
    · intro place
      rw [moved.pending_iff, State.pending_iff plan state key, stage_of_held held, after]
      simp only [Stage.pending, Walker.pending, Walker.start, List.append_nil, List.mem_singleton,
        List.not_mem_nil, false_or]
      exact or_comm
  case walk walker further scene held stepped =>
    have after : ({ state.put key (.walking further) with scene } : State size).stage key =
        .walking further := stage_put ..
    -- The step is that of one walk; what the others have pending stays as it is.
    have before : plan.walk.Covers marks state.scene.marks (state.roots plan) fun place =>
        place ∈ walker.pending plan.walk ∨
          ∃ other, other ≠ key ∧ place ∈ (state.stage other).pending plan.walk := by
      refine Walk.Covers.congr covered (fun _ => Iff.rfl) ?_
      intro place
      rw [State.pending_iff plan state key, stage_of_held held]
      rfl
    refine (stepped.covers before).congr (moved.roots_iff ?_) ?_
    · rw [stage_of_held held, after]
      rfl
    · intro place
      rw [moved.pending_iff, after]
      rfl
  case finish walker summary held stepped =>
    have after : ({ ((state.put key .walked).note (.walkFinished key summary.visited)).release with
        nodes := state.nodes + 1
        objects := state.objects + summary.visited } : State size).stage key = .walked :=
      stage_put ..
    apply covered.of_quiet moved rfl
    · rw [stage_of_held held, after]
      rfl
    · rw [stage_of_held held, after]
      exact stepped.finished.1.symm
  case interrupt walker held isCancelled nothing =>
    exact absurd intact (not_intact_fail _ _ _)
  all_goals
    apply covered.of_quiet moved rfl
    · simp [State.stage, put, note, fail, release, ‹state.units[key]? = some _›, Stage.hasBegun]
    · simp [State.stage, put, note, fail, release, ‹state.units[key]? = some _›, Stage.pending]

/-- As long as no unit has failed, the walks of a run cover what is marked. -/
theorem covered_of_run (ran : Run plan (start plan root marks session) history state)
    (intact : state.Intact) : state.Covered plan marks := by
  induction ran with
  | refl =>
    refine (Walk.Covers.start plan.walk marks).congr ?_ ?_
    · intro place
      apply iff_false_intro
      intro isRoot
      obtain ⟨key, begun, _⟩ := isRoot
      rw [stage_start] at begun
      cases begun
    · intro place
      apply iff_false_intro
      intro isPending
      obtain ⟨key, waiting⟩ := isPending
      rw [stage_start] at waiting
      exact List.not_mem_nil waiting
  | step ran inside moved covered =>
    obtain ⟨key, rule, _⟩ := marking_moved inside moved
    exact (covered (rule.intact_before intact)).moved
      (sound_of_reaches (reaches_of_inside ran.reaches)) rule intact

/-! ## Complete schedules -/

/-- When the root is walked, the marks are those of the beginning and what the values of the closure
reach over them. -/
theorem Covered.complete (covered : state.Covered plan marks) (sound : state.Sound plan root)
    (walked : state.units[root]? = some .walked) (place : Fin size) :
    state.scene.marks.contains place = true ↔
      marks.contains place = true ∨ ∃ key ∈ plan.store.closure root, ∃ value,
        plan.store.value key = .ok (some value) ∧ plan.walk.Path marks value place := by
  have nothing : ∀ place, ¬ state.pending plan place := by
    intro place isPending
    obtain ⟨key, waiting⟩ := isPending
    rw [sound.stage_complete walked] at waiting
    split at waiting <;> exact List.not_mem_nil waiting
  rw [Walk.Covers.exact covered nothing place]
  apply or_congr_right
  constructor
  · intro reached
    obtain ⟨value, ⟨key, begun, found⟩, path⟩ := reached
    have member : key ∈ plan.store.closure root := by
      by_contra absent
      rw [sound.stage_complete walked, if_neg absent] at begun
      cases begun
    exact ⟨key, member, value, found, path⟩
  · intro reached
    obtain ⟨key, member, value, found, path⟩ := reached
    have begun : (state.stage key).hasBegun = true := by
      rw [sound.stage_complete walked, if_pos member]
      rfl
    exact ⟨value, ⟨key, begun, found⟩, path⟩

end State

/-- Whether a schedule has marked an object that was not marked at first. -/
def Closure.hasAdded (closure : Closure size) (marks : Marks size) (place : Fin size) : Bool :=
  closure.scene.marks.contains place && !marks.contains place

/-- What a complete schedule has attributed, over some marks and with a history: marked is what the
values of the closure reach, each new mark was set once, by the walk of a node of the closure, each
new object whose class contains the needle was reported once and none other was, and both counts of
objects are the number of new ones. -/
structure Attributed (plan : Plan size) (root : NodeKey) (marks : Marks size)
    (history : List (NodeKey × Fin size)) (closure : Closure size) : Prop where
  marked : ∀ place, closure.scene.marks.contains place = true ↔
    marks.contains place = true ∨ ∃ key ∈ plan.store.closure root, ∃ value,
      plan.store.value key = .ok (some value) ∧ plan.walk.Path marks value place
  once : ∀ place, (history.map Prod.snd).count place = if closure.hasAdded marks place then 1 else 0
  owners : ∀ entry ∈ history, entry.1 ∈ plan.store.closure root
  distinct : closure.scene.reported.toList.Nodup
  reported : ∀ place, place ∈ closure.scene.reported.toList ↔
    closure.hasAdded marks place = true ∧
      (plan.heap.object place).Matches plan.options.needle
  objects : closure.objects = (Finset.univ.filter fun place => closure.hasAdded marks place).card
  finished : (closure.log.map Event.objects).sum = closure.objects

namespace State

variable {state : State size} {plan : Plan size} {root : NodeKey} {session : Bool}
variable {marks : Marks size} {history : List (NodeKey × Fin size)}

/-- A complete schedule has attributed what the values of the closure reach. -/
theorem attributed_of_run {closure : Closure size}
    (ran : Run plan (start plan root marks session) history state)
    (returned : state.outcome root = .ok closure) : Attributed plan root marks history closure := by
  obtain ⟨walked, same⟩ := outcome_ok returned
  have scene : closure.scene = state.scene := by rw [same]
  have reached := reaches_of_inside ran.reaches
  have sound := sound_of_reaches reached
  have intact := (sound.complete walked).2.2
  have recorded := recorded_of_run ran
  obtain ⟨counted, seen, reported, found⟩ := accounted_of_run ran intact
  have added : ∀ place, place ∈ history.map Prod.snd ↔ closure.hasAdded marks place = true := by
    intro place
    simp only [Closure.hasAdded, scene, Bool.and_eq_true, Bool.not_eq_true', recorded.marked]
    constructor
    · intro member
      exact ⟨Or.inr member, recorded.fresh place member⟩
    · intro new
      obtain ⟨known | member, unmarked⟩ := new
      · rw [known] at unmarked
        cases unmarked
      · exact member
  have once : ∀ place, (history.map Prod.snd).count place =
      if closure.hasAdded marks place then 1 else 0 := by
    intro place
    rw [recorded.distinct.count]
    exact if_congr (added place) rfl rfl
  -- No walk is under way any more, so what has been seen is what the history tells of.
  have seenPerm : (history.map Prod.snd).Perm seen := by
    rw [List.perm_iff_count]
    intro place
    rw [found, sound.total_complete walked fun _ => rfl, Nat.add_zero]
  constructor
  case marked =>
    rw [scene]
    exact (covered_of_run ran intact).complete sound walked
  case once => exact once
  case owners => exact recorded.owners
  case distinct =>
    rw [scene, reported]
    exact (seenPerm.nodup_iff.mp recorded.distinct).filter _
  case reported =>
    intro place
    have wants : plan.walk.wants place = true ↔
        (plan.heap.object place).Matches plan.options.needle := WalkOptions.isWanted_iff
    rw [scene, reported, List.mem_filter, ← seenPerm.mem_iff, added, wants]
  case objects =>
    rw [sound.total_complete walked fun _ => rfl, Nat.add_zero] at counted
    have members : ∀ place, place ∈ history.map Prod.snd ↔
        place ∈ Finset.univ.filter fun place => closure.hasAdded marks place := by
      intro place
      rw [added, Finset.mem_filter, and_iff_right (Finset.mem_univ place)]
    have length := length_eq_card recorded.distinct members
    rw [List.length_map, counted] at length
    have objects : closure.objects = state.objects := by rw [same]
    rw [objects, length]
  case finished =>
    rw [same]
    exact (logged_of_reaches reached).totalled.symm

/-- Two complete schedules of the same graph over the same marks have reported the same objects,
however many walks they allowed at once and whatever moved when. -/
theorem reported_perm {walks : Nat} {other : State size} {past : List (NodeKey × Fin size)}
    {closure again : Closure size} {later : Bool}
    (ran : Run plan (start plan root marks session) history state)
    (returned : state.outcome root = .ok closure)
    (reran : Run { plan with walks } (start { plan with walks } root marks later) past other)
    (rereturned : other.outcome root = .ok again) :
    closure.scene.reported.toList.Perm again.scene.reported.toList := by
  have first := attributed_of_run ran returned
  have second := attributed_of_run reran rereturned
  have sameMarks : ∀ place,
      closure.scene.marks.contains place = again.scene.marks.contains place := by
    intro place
    rw [Bool.eq_iff_iff]
    exact (first.marked place).trans (second.marked place).symm
  rw [List.perm_ext_iff_of_nodup first.distinct second.distinct]
  intro place
  rw [first.reported, second.reported]
  simp only [Closure.hasAdded, sameMarks]

/-- **A transitive tally is exact, and no schedule changes it.** When the schedule of a closure has
a result, over any marks and whatever moved when, the marks are those of the beginning and what the
values of the closure reach by followed fields along objects that are not marked at the beginning
and that no rule hides. Each new mark was set by one walk, each new object whose class contains the
needle was reported once, and the objects are counted once. Any other complete schedule of the
closure, with any number of walks at once, has the same statistics under any measurers. -/
theorem transitive_exact {plan : Plan size} {root : NodeKey} {marks : Marks size}
    {history : List (NodeKey × Fin size)} {state : State size} {closure : Closure size}
    (ran : Run plan (start plan root marks false) history state)
    (returned : state.outcome root = .ok closure) :
    Attributed plan root marks history closure ∧
      ∀ (walks : Nat) (past : List (NodeKey × Fin size)) (other : State size)
        (again : Closure size),
        Run { plan with walks } (start { plan with walks } root marks false) past other →
        other.outcome root = .ok again →
        ∀ dumper : Dumper size,
          dumper.statsOf again.scene.reported = dumper.statsOf closure.scene.reported := by
  refine ⟨attributed_of_run ran returned, ?_⟩
  intro walks past other again reran rereturned dumper
  have same := reported_perm ran returned reran rereturned
  unfold Dumper.statsOf
  rw [Accountant.recordAll_perm _ (same.map dumper.heap.object)]

/-- The schedule of the diamond attributes what its corners reach. -/
theorem transitive_exact_diamond :
    ∃ history state closure,
      Run Plan.diamond (start Plan.diamond (corner "top") .none false) history state ∧
        state.outcome (corner "top") = .ok closure ∧
        Attributed Plan.diamond (corner "top") .none history closure := by
  obtain ⟨state, closure, reached, returned⟩ := diamond_returns
  obtain ⟨history, ran⟩ := exists_run reached
  exact ⟨history, state, closure, ran, returned, (transitive_exact ran returned).1⟩

end State

end Retained.Schedule
