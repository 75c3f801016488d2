import Retained.Proofs.Schedule.Attribution
import Retained.Proofs.Schedule.Failure

/-!
# Walks that overlap

A walk that starts finds the walks of all that its node needs finished. That does not make
everything marked which those nodes reach: a walk that meets a marked object leaves what lies below
it to the walk that marked the object, and that one may belong to a node elsewhere in the closure
and still be under way. So at the start of a walk an object that a dependency reaches is unmarked
exactly if it lies ahead of some other walk, of a node that the starting one does not need
(`State.unmarked_iff_ahead`), and a dependent can take it (`State.overlap_takes`). When walks do not
overlap, nothing that a dependency reaches is billed to its dependents.
-/

namespace Retained.Schedule

variable {size : Nat}

/-- An object is inherited by a node if paths over some marks reach it from the value of another
node that the node needs. -/
def Plan.Inherits (plan : Plan size) (marks : Marks size) (key : NodeKey) (place : Fin size) :
    Prop :=
  ∃ dep origin, plan.store.Needs key dep ∧ plan.store.value dep = .ok (some origin) ∧
    plan.walk.Path marks origin place

namespace State

variable {state next : State size} {plan : Plan size} {root key : NodeKey} {session : Bool}
variable {marks : Marks size} {history : List (NodeKey × Fin size)}

/-- The next move of a unit starts its walk. -/
def Starts (state : State size) (key : NodeKey) : Prop :=
  state.cancelled = false ∧ ∃ value, state.units[key]? = some (.admitted value)

/-- An object lies ahead of the walk of a unit: paths over the present marks reach it from an object
that the walk has still to look at. -/
def LiesAhead (plan : Plan size) (state : State size) (key : NodeKey) (place : Fin size) : Prop :=
  ∃ walker origin, state.units[key]? = some (.walking walker) ∧
    origin ∈ walker.pending plan.walk ∧ plan.walk.Path state.scene.marks origin place

/-- The places that a unit has pending are those of its walk. -/
theorem walking_of_pending {place : Fin size}
    (waiting : place ∈ (state.stage key).pending plan.walk) :
    ∃ walker, state.units[key]? = some (.walking walker) ∧ place ∈ walker.pending plan.walk := by
  unfold State.stage at waiting
  cases held : state.units[key]? with
  | none =>
    rw [held] at waiting
    cases waiting
  | some stage =>
    rw [held, Option.getD_some] at waiting
    cases stage with
    | walking walker => exact ⟨walker, rfl, waiting⟩
    | _ => cases waiting

/-- What a unit that starts its walk needs is walked. -/
theorem Starts.needs_walked {dep : NodeKey} (starts : state.Starts key)
    (sound : state.Sound plan root) (needs : plan.store.Needs key dep) :
    state.units[dep]? = some .walked := by
  obtain ⟨_, value, held⟩ := starts
  exact sound.needs_walked_of_prepared (sound.fits key _ held) needs

/-- As long as the schedule is not cancelled, no unit has failed. -/
theorem intact_of_goesOn
    (reached : Reaches (LeadsInside plan) (start plan root marks session) state)
    (goesOn : state.cancelled = false) : state.Intact := by
  intro key cause failed
  have own := ((blamed_of_reaches reached).cancelled key cause failed).2
  rw [State.cancelled, Token.isSet, own, Bool.true_or] at goesOn
  cases goesOn

/-- When a walk starts, an object that its node inherits is unmarked exactly if it lies ahead of the
walk of another node, which the node does not need. -/
theorem unmarked_iff_ahead
    (reached : Reaches (LeadsInside plan) (start plan root marks session) state)
    (starts : state.Starts key) {place : Fin size} (inherits : plan.Inherits marks key place) :
    state.scene.marks.contains place = false ↔
      ∃ other, other ≠ key ∧ ¬ plan.store.Needs key other ∧ state.LiesAhead plan other place := by
  have sound := sound_of_reaches (reaches_of_inside reached)
  constructor
  · intro unmarked
    obtain ⟨dep, origin, needs, fetched, path⟩ := inherits
    obtain ⟨history, ran⟩ := exists_run reached
    have covered := covered_of_run ran (intact_of_goesOn reached starts.1)
    have begun : (state.stage dep).hasBegun = true := by
      rw [stage_of_held (starts.needs_walked sound needs)]
      rfl
    rcases Walk.Covers.marked_or_ahead covered ⟨dep, begun, fetched⟩ path with marked | ahead
    · rw [marked] at unmarked
      cases unmarked
    · obtain ⟨pending, ⟨other, waiting⟩, further⟩ := ahead
      obtain ⟨walker, walking, isPending⟩ := walking_of_pending waiting
      refine ⟨other, ?_, ?_, walker, pending, walking, isPending, further⟩
      -- The unit itself has no walk yet, and the walks of all that it needs are over.
      · intro same
        obtain ⟨value, held⟩ := starts.2
        rw [same, held] at walking
        cases walking
      · intro needed
        rw [starts.needs_walked sound needed] at walking
        cases walking
  · intro ahead
    obtain ⟨_, _, _, _, _, _, _, path⟩ := ahead
    exact path.enters_end.2

/-! ## What walks mark after they have started -/

/-- At an earlier moment of a run the walk of a unit was about to start, and everything marked then
is still marked. -/
def Started (plan : Plan size) (origin : State size) (history : List (NodeKey × Fin size))
    (state : State size) (key : NodeKey) : Prop :=
  ∃ earlier before, Run plan origin earlier before ∧ earlier <+: history ∧ before.Starts key ∧
    ∀ place, before.scene.marks.contains place = true → state.scene.marks.contains place = true

/-- No move loses a mark. -/
theorem Moved.marks_kept (moved : Moved plan state key next) (place : Fin size)
    (marked : state.scene.marks.contains place = true) :
    next.scene.marks.contains place = true := by
  rcases moved.marks_cases with ⟨_, same⟩ | ⟨taken, _, _, grown⟩
  · rw [same]
    exact marked
  · rw [grown, Marks.contains_mark, marked, Bool.or_true]

/-- A walk under way has been started at an earlier moment. -/
theorem started_of_run (ran : Run plan (start plan root marks session) history state)
    {walker : Walker size} (held : state.units[key]? = some (.walking walker)) :
    Started plan (start plan root marks session) history state key := by
  induction ran generalizing key walker with
  | refl =>
    have spawned := (units_start held).2
    cases spawned
  | @step earlier state next move ran inside moved started =>
    obtain ⟨mover, rule, marking⟩ := marking_moved inside moved
    have carried : (∃ walker, state.units[key]? = some (.walking walker)) →
        Started plan (start plan root marks session) (earlier ++ state.marking plan move) next
          key := by
      intro walking
      obtain ⟨walker, before⟩ := walking
      obtain ⟨first, moment, reached, initial, starts, kept⟩ := started before
      exact ⟨first, moment, reached, initial.trans (List.prefix_append _ _), starts,
        fun place marked => rule.marks_kept place (kept place marked)⟩
    by_cases same : key = mover
    · subst same
      cases rule
      case start value before goesOn =>
        exact ⟨earlier, state, ran, List.prefix_append _ _, ⟨goesOn, value, before⟩,
          fun _ marked => marked⟩
      case walk walker further scene before stepped => exact carried ⟨walker, before⟩
      case claim value dep left deps before fresh =>
        have claiming : (((state.put key (.claiming value left deps)).put dep .spawned).note
            (.claimed dep)).stage key = .claiming value left deps := stage_of_claim before fresh
        rw [stage_of_held held] at claiming
        cases claiming
      all_goals simp [units_put, units_fail] at held
    · rcases rule.others same with unchanged | ⟨_, spawned⟩
      · exact carried ⟨walker, unchanged.symm.trans held⟩
      · rw [spawned] at held
        cases held

/-- What a walk marks was unmarked when the walk started. -/
theorem unmarked_at_start (ran : Run plan (start plan root marks session) history state)
    {place : Fin size} (taken : (key, place) ∈ history) :
    ∃ earlier before, Run plan (start plan root marks session) earlier before ∧
      earlier <+: history ∧ before.Starts key ∧ before.scene.marks.contains place = false := by
  induction ran with
  | refl => cases taken
  | @step earlier state next move ran inside moved before =>
    obtain ⟨mover, rule, marking⟩ := marking_moved inside moved
    rcases List.mem_append.mp taken with old | new
    · obtain ⟨first, moment, reached, initial, starts, unmarked⟩ := before old
      exact ⟨first, moment, reached, initial.trans (List.prefix_append _ _), starts, unmarked⟩
    · rw [marking] at new
      obtain ⟨claimed, isClaimed, same⟩ := List.mem_map.mp new
      cases same
      have walking : ∃ walker, state.units[key]? = some (.walking walker) := by
        unfold claims at isClaimed
        split at isClaimed
        · next walker held => exact ⟨walker, held⟩
        · cases isClaimed
      have unmarked : state.scene.marks.contains place = false := by
        rcases rule.marks_cases with ⟨nothing, _⟩ | ⟨one, only, enters, _⟩
        · rw [nothing] at isClaimed
          cases isClaimed
        · rw [only, List.mem_singleton] at isClaimed
          exact isClaimed ▸ enters.2
      obtain ⟨walker, held⟩ := walking
      obtain ⟨first, moment, reached, initial, starts, kept⟩ := started_of_run ran held
      exact ⟨first, moment, reached, initial.trans (List.prefix_append _ _), starts,
        Walk.outside_of_fewer kept unmarked⟩

/-! ## Counts of single nodes -/

end State

/-- How many objects the history may hold for a unit at a stage. -/
def Stage.Owns : Stage size → Nat → Prop
  | walking walker, owned => walker.summary.visited = owned
  | walked, _ => True
  | failed _, _ => True
  | _, owned => owned = 0

/-- The number of objects that the walk of a node has marked. -/
def owned (history : List (NodeKey × Fin size)) (key : NodeKey) : Nat :=
  (history.filter fun entry => entry.1 = key).length

namespace State

variable {state next : State size} {plan : Plan size} {root key : NodeKey} {session : Bool}
variable {marks : Marks size} {history : List (NodeKey × Fin size)}

/-- The history bills each node the objects that its walk counts, and the log tells that count when
the walk has finished. -/
structure Billed (history : List (NodeKey × Fin size)) (state : State size) : Prop where
  owns : ∀ key, (state.stage key).Owns (owned history key)
  told : ∀ key objects, .walkFinished key objects ∈ state.events →
    state.stage key = .walked ∧ objects = owned history key

/-- A later history adds to what a node owns. -/
theorem owned_append (history more : List (NodeKey × Fin size)) (key : NodeKey) :
    owned (history ++ more) key = owned history key + owned more key := by
  rw [owned, List.filter_append, List.length_append]
  rfl

/-- What a move marks is owned by the node that moves. -/
theorem owned_claims (claimed : List (Fin size)) (mover key : NodeKey) :
    owned (claimed.map fun place => (mover, place)) key =
      if key = mover then claimed.length else 0 := by
  unfold owned
  by_cases same : key = mover
  · rw [if_pos same, same, List.filter_eq_self.mpr (by simp), List.length_map]
  · rw [if_neg same, List.length_eq_zero_iff, List.filter_eq_nil_iff]
    intro entry member
    obtain ⟨place, _, rfl⟩ := List.mem_map.mp member
    simpa using Ne.symm same

/-- A move of a unit keeps its own account. -/
theorem Billed.owns_moved (billed : state.Billed history) (moved : Moved plan state key next) :
    (next.stage key).Owns (owned history key + (state.claims plan key).length) := by
  have before := billed.owns key
  have rule := moved
  cases rule
  case walk walker further scene held stepped =>
    obtain ⟨_, _, _, visited, _⟩ := stepped.accounts
    have claimed : state.claims plan key = walker.claims plan.walk state.scene := by
      unfold claims
      rw [held]
    have after : ({ state.put key (.walking further) with scene } : State size).stage key =
        .walking further := stage_put ..
    rw [stage_of_held held] at before
    rw [after, claimed]
    simp only [Stage.Owns] at before ⊢
    omega
  case claim value dep left deps held fresh =>
    have nothing : state.claims plan key = [] := by
      unfold claims
      rw [held]
    rw [stage_of_held held] at before
    rw [stage_of_claim held fresh, nothing]
    exact before
  case finish walker summary held stepped =>
    have after : ({ ((state.put key .walked).note (.walkFinished key summary.visited)).release with
        nodes := state.nodes + 1
        objects := state.objects + summary.visited } : State size).stage key = .walked :=
      stage_put ..
    rw [after]
    trivial
  all_goals
    -- The other moves mark nothing: a unit owns nothing before its walk, and a failed one whatever.
    simp only [State.stage, claims, put, note, fail, release, ‹state.units[key]? = some _›,
      Std.ExtTreeMap.getElem?_insert_self, Option.getD_some, Stage.Owns, List.length_nil,
      Nat.add_zero, Walker.start] at before ⊢ <;> omega

/-- A move tells of a finished walk what the walk counts. -/
theorem Billed.told_moved (billed : state.Billed history) (moved : Moved plan state key next)
    {other : NodeKey} {objects : Nat} (told : .walkFinished other objects ∈ next.events) :
    .walkFinished other objects ∈ state.events ∨
      other = key ∧ next.stage key = .walked ∧ state.claims plan key = [] ∧
        objects = owned history key := by
  have rule := moved
  cases rule
  case finish walker summary held stepped =>
    obtain ⟨_, _, same, unclaimed, _⟩ := stepped.finished
    have grown : ((state.put key .walked).note (.walkFinished key summary.visited)).events =
        state.events ++ [.walkFinished key summary.visited] :=
      events_note (state.put key .walked) (.walkFinished key summary.visited)
    have earlier_or_new := List.mem_append.mp (grown ▸ told)
    rcases earlier_or_new with earlier | new
    · exact Or.inl earlier
    · rw [List.mem_singleton, Event.walkFinished.injEq] at new
      have before := billed.owns key
      rw [stage_of_held held] at before
      have nothing : state.claims plan key = [] := by
        unfold claims
        rw [held]
        exact unclaimed
      refine Or.inr ⟨new.1, stage_put .., nothing, ?_⟩
      rw [new.2, ← same]
      exact before
  all_goals
    left
    simpa [events, put, note, fail, release] using told

/-- Every move keeps the accounts of the nodes. -/
theorem Billed.moved (billed : state.Billed history) (moved : Moved plan state key next) :
    next.Billed (history ++ (state.claims plan key).map fun place => (key, place)) := by
  constructor
  case owns =>
    intro other
    rw [owned_append, owned_claims]
    by_cases same : other = key
    · rw [if_pos same, same]
      exact billed.owns_moved moved
    · rw [if_neg same, moved.stage_others same, Nat.add_zero]
      exact billed.owns other
  case told =>
    intro other objects told
    rw [owned_append, owned_claims]
    rcases billed.told_moved moved told with earlier | ⟨same, walked, nothing, counted⟩
    · obtain ⟨walked, counted⟩ := billed.told other objects earlier
      have apart : other ≠ key := by
        intro same
        obtain ⟨stage, held, unresolved⟩ := moved.held
        rw [same, stage_of_held held] at walked
        rw [walked] at unresolved
        cases unresolved
      rw [if_neg apart, moved.stage_others apart, Nat.add_zero]
      exact ⟨walked, counted⟩
    · rw [if_pos same, same, nothing]
      exact ⟨walked, counted⟩

/-- In every run the accounts of the nodes are kept. -/
theorem billed_of_run (ran : Run plan (start plan root marks session) history state) :
    state.Billed history := by
  induction ran with
  | refl =>
    constructor
    · intro key
      rw [stage_start]
      rfl
    · intro key objects told
      simp [start, events] at told
  | step ran inside moved billed =>
    obtain ⟨key, rule, same⟩ := marking_moved inside moved
    rw [same]
    exact billed.moved rule

/-! ## What dependents take -/

/-- With a single permit no walk is under way when another one starts. -/
theorem alone_of_single (single : plan.permits = 1)
    (reached : Reaches (Leads plan) (start plan root marks session) state)
    (starts : state.Starts key) {other : NodeKey} {walker : Walker size} :
    state.units[other]? ≠ some (.walking walker) := by
  intro walking
  obtain ⟨_, value, held⟩ := starts
  have sound := sound_of_reaches reached
  have permitted := permitted_of_reaches reached
  have apart : other ≠ key := by
    intro same
    rw [same, held] at walking
    cases walking
  have inside : key ∈ plan.store.closure root :=
    sound.confined key (mem_units_iff.mpr ⟨_, held⟩)
  have otherInside : other ∈ (plan.store.closure root).erase key :=
    Finset.mem_erase.mpr ⟨apart, sound.confined other (mem_units_iff.mpr ⟨_, walking⟩)⟩
  have both : 2 ≤ state.total (plan.store.closure root) fun _ => Stage.permits := by
    unfold total
    rw [← Finset.add_sum_erase _ _ inside, ← Finset.add_sum_erase _ _ otherInside,
      stage_of_held held, stage_of_held walking]
    simp only [Stage.permits]
    omega
  unfold Permitted at permitted
  omega

/-- **A walk takes from the nodes below it only what lies ahead of a walk elsewhere.** Whatever
moves when, an object that a node inherits from the nodes it needs is unmarked when the node's walk
starts exactly if it lies ahead of the walk of another node, which the node does not need; every
inherited object that the node's walk marks was ahead of such a walk at that moment; and the count
of a finished walk is the number of objects that it has marked. With a single permit no walk is
under way at that moment, so every inherited object is marked then and no node is billed for one. -/
theorem inherits_only_ahead {plan : Plan size} {root : NodeKey} {marks : Marks size}
    {history : List (NodeKey × Fin size)} {state : State size}
    (ran : Run plan (start plan root marks false) history state) :
    (∀ key, state.Starts key → ∀ place, plan.Inherits marks key place →
      (state.scene.marks.contains place = false ↔
        ∃ other, other ≠ key ∧ ¬ plan.store.Needs key other ∧ state.LiesAhead plan other place)) ∧
    (∀ key place, (key, place) ∈ history → plan.Inherits marks key place →
      ∃ earlier before, Run plan (start plan root marks false) earlier before ∧
        earlier <+: history ∧ before.Starts key ∧
        ∃ other, other ≠ key ∧ ¬ plan.store.Needs key other ∧ before.LiesAhead plan other place) ∧
    (∀ key objects, .walkFinished key objects ∈ state.events → objects = owned history key) ∧
    (plan.permits = 1 →
      (∀ key, state.Starts key → ∀ place, plan.Inherits marks key place →
        state.scene.marks.contains place = true) ∧
      ∀ key place, (key, place) ∈ history → ¬ plan.Inherits marks key place) := by
  have taken : ∀ key place, (key, place) ∈ history → plan.Inherits marks key place →
      ∃ earlier before, Run plan (start plan root marks false) earlier before ∧
        earlier <+: history ∧ before.Starts key ∧
        ∃ other, other ≠ key ∧ ¬ plan.store.Needs key other ∧
          before.LiesAhead plan other place := by
    intro key place member inherits
    obtain ⟨earlier, before, reached, initial, starts, unmarked⟩ := unmarked_at_start ran member
    exact ⟨earlier, before, reached, initial, starts,
      (unmarked_iff_ahead reached.reaches starts inherits).mp unmarked⟩
  refine ⟨fun key starts place => unmarked_iff_ahead ran.reaches starts, taken,
    fun key objects told => ((billed_of_run ran).told key objects told).2, ?_⟩
  intro single
  constructor
  · intro key starts place inherits
    by_contra unmarked
    obtain ⟨other, _, _, walker, _, walking, _⟩ :=
      (unmarked_iff_ahead ran.reaches starts inherits).mp (Bool.eq_false_iff.mpr unmarked)
    exact alone_of_single single (reaches_of_inside ran.reaches) starts walking
  · intro key place member inherits
    obtain ⟨_, before, reached, _, starts, other, _, _, walker, _, walking, _⟩ :=
      taken key place member inherits
    exact alone_of_single single (reaches_of_inside reached.reaches) starts walking

/-! ## An overlap -/

/-- The history and the state after units have had their turns in an order, if each could move. -/
def follow (plan : Plan size) (history : List (NodeKey × Fin size)) (state : State size) :
    List NodeKey → Option (List (NodeKey × Fin size) × State size)
  | [] => some (history, state)
  | key :: others =>
    match state.advance plan key with
    | some next => follow plan (history ++ state.marking plan (.advance key)) next others
    | none => none

/-- Turns that units could take are a run. -/
theorem Run.follow {origin after : State size} {past : List (NodeKey × Fin size)}
    {keys : List NodeKey} (ran : Run plan origin history state)
    (followed : state.follow plan history keys = some (past, after)) :
    Run plan origin past after := by
  induction keys generalizing history state with
  | nil =>
    rw [State.follow, Option.some.injEq, Prod.mk.injEq] at followed
    rw [← followed.1, ← followed.2]
    exact ran
  | cons key others further =>
    rw [State.follow] at followed
    cases moved : state.advance plan key with
    | none =>
      rw [moved] at followed
      cases followed
    | some next =>
      rw [moved] at followed
      have inside : Move.advance key ≠ .cancel := Move.noConfusion
      exact further (ran.step inside moved) followed

/-- Whether the next move of a unit starts its walk. -/
def isStarting (state : State size) (key : NodeKey) : Bool :=
  match state.units[key]? with
  | some (.admitted _) => !state.cancelled
  | _ => false

/-- A unit that is said to start its walk starts it. -/
theorem starts_of_isStarting (starting : state.isStarting key = true) : state.Starts key := by
  unfold isStarting at starting
  split at starting
  · next value held => exact ⟨by simpa using starting, value, held⟩
  · cases starting

/-- Whether the schedule has a result that tells of an event. -/
def tellsOf (state : State size) (root : NodeKey) (event : Event) : Bool :=
  match state.outcome root with
  | .ok closure => decide (event ∈ closure.log)
  | .error _ => false

/-- A schedule that tells of an event has a result with the event in its log. -/
theorem closure_of_tellsOf {event : Event} (told : state.tellsOf root event = true) :
    ∃ closure, state.outcome root = .ok closure ∧ event ∈ closure.log := by
  unfold tellsOf at told
  split at told
  · next closure returned => exact ⟨closure, returned, decide_eq_true_eq.mp told⟩
  · cases told

end State

/-- The object below the shared one. -/
def Plan.leaf : Fin 2 := 0

/-- A root that depends on a slow node and on a top node, which depends on a base. The slow node and
the base share a value; the value of the top is the object below it. -/
def Plan.overlap : Plan 2 where
  store :=
    let nodes := (((Store.empty.addNode (corner "base") 1).addNode (corner "slow") 1).addNode
      (corner "top") Plan.leaf).addNode (corner "root") Plan.leaf
    ((nodes.addDep (corner "root") (corner "slow")).addDep (corner "root") (corner "top")).addDep
      (corner "top") (corner "base")
  heap :=
    { objects := #v[
        { className := "Leaf", category := .plain, shape := .instance 8, fields := [] },
        { className := "Shared", category := .plain, shape := .instance 8
          fields := [{ name := "leaf", target := Plan.leaf, transient := false }] }]
      earlier := by decide }
  options := { rules := [], followTransient := true, needle := none }
  walks := 2

/-- The turns up to the start of the top's walk: the walk of the slow node has marked the shared
object and not yet looked below it, and the base's walk, which finds it marked, is over. -/
def Plan.overlapBefore : List NodeKey :=
  let times := fun (count : Nat) (name : String) => List.replicate count (corner name)
  times 4 "root" ++ times 6 "slow" ++ times 3 "top" ++ times 7 "base" ++ times 2 "top"

/-- The turns that take the schedule on to its end. -/
def Plan.overlapAfter : List NodeKey :=
  let times := fun (count : Nat) (name : String) => List.replicate count (corner name)
  times 4 "top" ++ times 3 "slow" ++ times 5 "root"

namespace State

/-- The base of the overlap reaches the leaf, and the top needs the base. -/
theorem overlap_inherits : Plan.overlap.Inherits .none (corner "top") Plan.leaf := by
  have depends : Plan.overlap.store.DependsOn (corner "top") (corner "base") := by
    unfold Store.DependsOn
    decide +kernel
  have value : Plan.overlap.store.value (corner "base") = .ok (some 1) := by decide +kernel
  have shared : Plan.overlap.walk.Enters .none 1 := Walk.enters_iff.mpr rfl
  have leaf : Plan.overlap.walk.Enters .none Plan.leaf := Walk.enters_iff.mpr rfl
  have followed : Plan.overlap.walk.Follows 1 Plan.leaf :=
    Walk.mem_successors_iff.mp (by decide +kernel)
  exact ⟨corner "base", 1, .single depends, value, .along (.here shared) followed leaf⟩

/-- The turns of the overlap can be taken: when the walk of the top starts the leaf is unmarked, and
in the end the top is billed for it. -/
theorem overlap_run :
    ∃ earlier before history state closure,
      Run .overlap (start .overlap (corner "root") .none false) earlier before ∧
        before.Starts (corner "top") ∧ before.scene.marks.contains Plan.leaf = false ∧
      Run .overlap (start .overlap (corner "root") .none false) history state ∧
        state.outcome (corner "root") = .ok closure ∧ (corner "top", Plan.leaf) ∈ history ∧
        .walkFinished (corner "top") 1 ∈ closure.log := by
  have turns : ((start .overlap (corner "root") .none false).follow .overlap []
      Plan.overlapBefore).any fun first =>
        first.2.isStarting (corner "top") && !first.2.scene.marks.contains Plan.leaf &&
          (first.2.follow .overlap first.1 Plan.overlapAfter).any fun last =>
            decide ((corner "top", Plan.leaf) ∈ last.1) &&
              last.2.tellsOf (corner "root") (.walkFinished (corner "top") 1) := by
    decide +kernel
  obtain ⟨⟨earlier, before⟩, first, checked⟩ := (Option.any_eq_true _ _).mp turns
  simp only [Bool.and_eq_true, Bool.not_eq_true'] at checked
  obtain ⟨⟨starting, unmarked⟩, onwards⟩ := checked
  obtain ⟨⟨history, state⟩, second, ended⟩ := (Option.any_eq_true _ _).mp onwards
  simp only [Bool.and_eq_true, decide_eq_true_eq] at ended
  obtain ⟨closure, returned, told⟩ := closure_of_tellsOf ended.2
  have reached := Run.refl.follow first
  exact ⟨earlier, before, history, state, closure, reached, starts_of_isStarting starting, unmarked,
    reached.follow second, returned, ended.1, told⟩

/-- **A dependent is billed for an object that a node below it reaches.** The overlap is acyclic and
everything in it can be fetched. The base reaches the leaf and the top needs the base, yet in some
order of moves the leaf is unmarked when the walk of the top starts, and the top is billed for
it. -/
theorem overlap_takes :
    Plan.overlap.store.Acyclic (corner "root") ∧
      (∀ key ∈ Plan.overlap.store.closure (corner "root"), Plan.overlap.store.Fetchable key) ∧
      Plan.overlap.Inherits .none (corner "top") Plan.leaf ∧
      ∃ earlier before history state closure,
        Run .overlap (start .overlap (corner "root") .none false) earlier before ∧
          before.Starts (corner "top") ∧ before.scene.marks.contains Plan.leaf = false ∧
        Run .overlap (start .overlap (corner "root") .none false) history state ∧
          state.outcome (corner "root") = .ok closure ∧ (corner "top", Plan.leaf) ∈ history ∧
          .walkFinished (corner "top") 1 ∈ closure.log := by
  have acyclic : Plan.overlap.store.Acyclic (corner "root") := by
    let rank : NodeKey → Nat := fun key =>
      if key = corner "root" then 2 else if key = corner "top" then 1 else 0
    apply Store.acyclic_of_ranked rank
    decide +kernel
  have taken := overlap_run
  obtain ⟨_, _, _, state, closure, _, _, _, ran, returned, _⟩ := overlap_run
  have sound := sound_of_reaches (reaches_of_inside ran.reaches)
  have walked := (outcome_ok returned).1
  have fetchable : ∀ key ∈ Plan.overlap.store.closure (corner "root"),
      Plan.overlap.store.Fetchable key := by
    intro key member
    exact sound.fetchable_of_walked (sound.closure_walked walked member)
  exact ⟨acyclic, fetchable, overlap_inherits, taken⟩

/-- At the moment when the walk of the top starts, the leaf lies ahead of a walk that the top does
not wait for. -/
theorem inherits_only_ahead_overlap :
    ∃ earlier before other,
      Run .overlap (start .overlap (corner "root") .none false) earlier before ∧
        before.Starts (corner "top") ∧ other ≠ corner "top" ∧
        ¬ Plan.overlap.store.Needs (corner "top") other ∧
        before.LiesAhead .overlap other Plan.leaf := by
  obtain ⟨earlier, before, _, _, _, ran, starts, unmarked, _⟩ := overlap_run
  have rule := (inherits_only_ahead ran).1 (corner "top") starts Plan.leaf overlap_inherits
  obtain ⟨other, apart, unneeded, ahead⟩ := rule.mp unmarked
  exact ⟨earlier, before, other, ran, starts, apart, unneeded, ahead⟩

end State

end Retained.Schedule
