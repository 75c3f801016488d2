import Retained.Proofs.Schedule.Drive
import Retained.Proofs.Schedule.Total

/-!
# The protocol of a schedule

The log of a schedule tells how often a node was claimed, joined and walked, and in which order. In
every state that moves can lead to, cancelled or not, no node has been claimed twice or walked
twice, no walk has started before the walks of all that its node needs were finished, and nothing
outside the closure of the root has been claimed (`State.Logged`). Once the root is walked the log
is complete: every node of the closure has been claimed and walked, and every dependency edge of the
closure has led to one claim or join (`State.protocol`).
-/

namespace Retained

/-- The number of objects that an event reports. -/
def Event.objects : Event → Nat
  | walkFinished _ objects => objects
  | _ => 0

namespace Schedule

variable {size : Nat}

/-- How often the walk of a unit's value may have started. -/
def Stage.Started : Stage size → Nat → Prop
  | walking _, times => times = 1
  | walked, times => times = 1
  | failed _, times => times ≤ 1
  | _, times => times = 0

/-- The number of times that a unit has still to reach a dependency. -/
def Stage.unreached (store : Store (Fin size)) (dep key : NodeKey) : Stage size → Nat
  | spawned => (store.depList key).count dep
  | claiming _ left _ => left.count dep
  | _ => 0

namespace State

variable {state next : State size} {plan : Plan size} {root key : NodeKey} {session : Bool}

/-- The nodes whose walks have finished, in order. -/
def finishes (state : State size) : List NodeKey :=
  state.events.filterMap Event.finish?

/-- The log tells what the units have done, and every walk in it is that of a node that was fetched
and started after the walks of all that the node needs were finished. -/
structure Logged (store : Store (Fin size)) (state : State size) : Prop where
  claimed : ∀ key, state.events.count (.claimed key) = if key ∈ state.units then 1 else 0
  started : ∀ key, (state.stage key).Started (state.events.count (.walkStarted key))
  finished : ∀ key, state.finishes.count key = if (state.stage key).isWalked then 1 else 0
  counted : state.nodes = state.finishes.length
  totalled : state.objects = (state.events.map Event.objects).sum
  fetched : ∀ key, .walkStarted key ∈ state.events → store.Fetchable key
  ordered : ∀ before after key dep, state.events = before ++ .walkStarted key :: after →
    store.Needs key dep → dep ∈ before.filterMap Event.finish?

/-- What a move adds to the log: a claim of each node whose unit it makes, and a start or finish of
the walk of the unit that moves. -/
structure Tells (state : State size) (key : NodeKey) (news : List Event) (next : State size) :
    Prop where
  grown : next.events = state.events ++ news
  single : news.length ≤ 1
  made : ∀ other, other ∈ next.units ↔ other ∈ state.units ∨ .claimed other ∈ news
  fresh : ∀ other, .claimed other ∈ news → other ∉ state.units
  started : ∀ other, .walkStarted other ∈ news →
    other = key ∧ ∃ value, state.units[key]? = some (.admitted value)
  finished : ∀ other objects, .walkFinished other objects ∈ news → other = key
  nodes : next.nodes = state.nodes + (news.filterMap Event.finish?).length
  objects : next.objects = state.objects + (news.map Event.objects).sum

/-- A move that reaches no new dependency makes no unit. -/
theorem Moved.makes_nothing (moved : Moved plan state key next)
    (nothing : ∀ value dep left deps,
      state.units[key]? = some (.claiming value (dep :: left) deps) → dep ∈ state.units)
    (other : NodeKey) : other ∈ next.units ↔ other ∈ state.units := by
  constructor
  · intro there
    by_contra fresh
    obtain ⟨value, left, deps, held⟩ := moved.claimer there fresh
    exact fresh (nothing value other left deps held)
  · exact moved.mem_stays

/-- A claim of a dependency tells of the unit that it makes. -/
theorem tells_claim {value : Fin size} {dep : NodeKey} {left deps : List NodeKey}
    (held : state.units[key]? = some (.claiming value (dep :: left) deps))
    (fresh : state.units[dep]? = none)
    (moved : Moved plan state key
      (((state.put key (.claiming value left deps)).put dep .spawned).note (.claimed dep))) :
    state.Tells key [.claimed dep]
      (((state.put key (.claiming value left deps)).put dep .spawned).note (.claimed dep)) where
  grown := by rw [events_note, events_put, events_put]
  single := Nat.le_refl 1
  made other := by
    rw [List.mem_singleton, Event.claimed.injEq]
    by_cases same : other = dep
    · rw [same, mem_units_iff, units_note, units_put, if_pos rfl]
      exact iff_of_true ⟨_, rfl⟩ (Or.inr rfl)
    · rw [or_iff_left same]
      constructor
      · intro there
        by_contra unknown
        obtain ⟨_, _, _, found⟩ := moved.claimer there unknown
        rw [held] at found
        cases found
        exact same rfl
      · exact moved.mem_stays
  fresh other told := by
    rw [List.mem_singleton, Event.claimed.injEq] at told
    intro there
    obtain ⟨stage, found⟩ := mem_units_iff.mp there
    rw [told, fresh] at found
    contradiction
  started := by simp
  finished := by simp
  nodes := rfl
  objects := rfl

/-- A move that makes no unit tells at most one event, which is no claim. -/
theorem tells_of_unmade {news : List Event}
    (unmade : ∀ other, other ∈ next.units ↔ other ∈ state.units)
    (grown : next.events = state.events ++ news) (single : news.length ≤ 1)
    (unclaimed : ∀ other, .claimed other ∉ news)
    (started : ∀ other, .walkStarted other ∈ news →
      other = key ∧ ∃ value, state.units[key]? = some (.admitted value))
    (finished : ∀ other objects, .walkFinished other objects ∈ news → other = key)
    (nodes : next.nodes = state.nodes + (news.filterMap Event.finish?).length)
    (objects : next.objects = state.objects + (news.map Event.objects).sum) :
    state.Tells key news next where
  grown := grown
  single := single
  made other := by rw [unmade, or_iff_left (unclaimed other)]
  fresh other told := absurd told (unclaimed other)
  started := started
  finished := finished
  nodes := nodes
  objects := objects

/-- Every move tells what it does. -/
theorem Moved.tells (moved : Moved plan state key next) : ∃ news, state.Tells key news next := by
  have rule := moved
  cases rule
  case claim value dep left deps held fresh => exact ⟨[.claimed dep], tells_claim held fresh moved⟩
  case join value dep left deps held known =>
    have unmade := moved.makes_nothing fun _ _ _ _ found => by
      rw [held] at found
      cases found
      exact known
    have grown : ((state.put key (.claiming value left deps)).note (.joined dep)).events =
        state.events ++ [.joined dep] := by
      rw [events_note, events_put]
    exact ⟨[.joined dep], tells_of_unmade unmade grown (Nat.le_refl 1) (by simp) (by simp)
      (by simp) rfl rfl⟩
  case start value held goesOn =>
    have unmade := moved.makes_nothing (by simp [held])
    have grown : ((state.put key (.walking (.start value))).note (.walkStarted key)).events =
        state.events ++ [.walkStarted key] := by
      rw [events_note, events_put]
    exact ⟨[.walkStarted key], tells_of_unmade unmade grown (Nat.le_refl 1) (by simp)
      (by simp [held]) (by simp) rfl rfl⟩
  case finish walker summary held stepped =>
    have unmade := moved.makes_nothing (by simp [held])
    have grown := events_note (state.put key .walked) (.walkFinished key summary.visited)
    exact ⟨[.walkFinished key summary.visited], tells_of_unmade unmade grown (Nat.le_refl 1)
      (by simp) (by simp) (by simp) rfl rfl⟩
  all_goals
    have unmade := moved.makes_nothing fun _ _ _ _ found => by simp_all
    have grown := (List.append_nil state.events).symm
    exact ⟨[], tells_of_unmade unmade grown (Nat.zero_le 1) (by simp) (by simp) (by simp) rfl rfl⟩

/-- A unit that moves has started its walk as often as its stage says. -/
theorem Moved.started_self (moved : Moved plan state key next)
    (before : (state.stage key).Started (state.events.count (.walkStarted key))) :
    (next.stage key).Started (next.events.count (.walkStarted key)) := by
  cases moved
  case claim value dep left deps held fresh =>
    rw [stage_of_held held] at before
    rw [stage_of_claim held fresh]
    simpa [Stage.Started] using before
  all_goals
    simp only [State.stage, ‹state.units[key]? = some _›, Option.getD_some, Stage.Started, events,
      put, note, fail, release, Std.ExtTreeMap.getElem?_insert_self, Array.toList_push,
      List.count_append, List.count_singleton] at before ⊢
    simp [before]

/-- A unit that moves has finished its walk as often as its stage says. -/
theorem Moved.finished_self (moved : Moved plan state key next)
    (before : state.finishes.count key = if (state.stage key).isWalked then 1 else 0) :
    next.finishes.count key = if (next.stage key).isWalked then 1 else 0 := by
  cases moved
  case claim value dep left deps held fresh =>
    rw [stage_of_held held] at before
    rw [stage_of_claim held fresh]
    simpa [finishes, List.filterMap_cons, Event.finish?, Stage.isWalked] using before
  all_goals
    simp only [State.stage, ‹state.units[key]? = some _›, Option.getD_some, Stage.isWalked,
      finishes, events, put, note, fail, release, Std.ExtTreeMap.getElem?_insert_self,
      Array.toList_push, List.filterMap_append, List.count_append] at before ⊢
    simp [before, List.filterMap_cons, Event.finish?]

/-- Whatever moves, the log goes on telling what the units have done. -/
theorem Logged.moved (logged : state.Logged plan.store) (sound : state.Sound plan root)
    (moved : Moved plan state key next) : next.Logged plan.store := by
  obtain ⟨news, tells⟩ := moved.tells
  have finishes : next.finishes = state.finishes ++ news.filterMap Event.finish? := by
    rw [State.finishes, tells.grown, List.filterMap_append]
    rfl
  constructor
  case claimed =>
    intro other
    rw [tells.grown, List.count_append, logged.claimed other]
    by_cases told : .claimed other ∈ news
    · have once : news.count (.claimed other) = 1 := by
        have some := List.count_pos_iff.mpr told
        have few := (List.count_le_length (a := Event.claimed other) (l := news)).trans tells.single
        omega
      rw [once, if_neg (tells.fresh other told), if_pos ((tells.made other).mpr (Or.inr told))]
    · have same : other ∈ next.units ↔ other ∈ state.units := by
        rw [tells.made other, or_iff_left told]
      rw [List.count_eq_zero.mpr told, Nat.add_zero]
      exact if_congr same.symm rfl rfl
  case started =>
    intro other
    by_cases same : other = key
    · rw [same]
      exact moved.started_self (logged.started key)
    · have untold : .walkStarted other ∉ news := fun told => same (tells.started other told).1
      rw [moved.stage_others same, tells.grown, List.count_append, List.count_eq_zero.mpr untold]
      exact logged.started other
  case finished =>
    intro other
    by_cases same : other = key
    · rw [same]
      exact moved.finished_self (logged.finished key)
    · have untold : other ∉ news.filterMap Event.finish? := by
        intro told
        obtain ⟨event, member, finish⟩ := List.mem_filterMap.mp told
        cases event with
        | walkFinished walked objects =>
          cases finish
          exact same (tells.finished other objects member)
        | _ => cases finish
      rw [moved.stage_others same, finishes, List.count_append, List.count_eq_zero.mpr untold]
      exact logged.finished other
  case counted => rw [tells.nodes, logged.counted, finishes, List.length_append]
  case totalled =>
    rw [tells.objects, logged.totalled, tells.grown, List.map_append, List.sum_append]
  case fetched =>
    intro other told
    rw [tells.grown, List.mem_append] at told
    rcases told with earlier | new
    · exact logged.fetched other earlier
    · obtain ⟨rfl, value, held⟩ := tells.started other new
      obtain ⟨deps, fetched, _⟩ := sound.fits other _ held
      exact ⟨value, deps, fetched⟩
  case ordered =>
    intro before after starting dep split needs
    have prepared : .walkStarted starting ∈ news → dep ∈ state.finishes := by
      intro told
      obtain ⟨rfl, value, held⟩ := tells.started starting told
      have walked := sound.needs_walked_of_prepared (sound.fits starting _ held) needs
      rw [← List.count_pos_iff, logged.finished, stage_of_held walked]
      exact Nat.one_pos
    -- A start in the news has everything walked before it; an older one has its old place in the
    -- log.
    rw [tells.grown] at split
    rcases List.append_eq_append_iff.mp split with ⟨more, rfl, rest⟩ | ⟨more, rest, later⟩
    · have told : .walkStarted starting ∈ news := by simp [rest]
      rw [List.filterMap_append]
      exact List.mem_append_left _ (prepared told)
    · cases more with
      | nil =>
        have told : .walkStarted starting ∈ news := by
          rw [← List.nil_append news, ← later]
          exact List.mem_cons_self
        rw [List.append_nil] at rest
        rw [← rest]
        exact prepared told
      | cons event others =>
        rw [List.cons_append, List.cons.injEq] at later
        obtain ⟨rfl, _⟩ := later
        exact logged.ordered before others starting dep rest needs

/-- The log of a schedule that has just been started tells that its root is claimed. -/
theorem logged_start (plan : Plan size) (root : NodeKey) (marks : Marks size) (session : Bool) :
    (start plan root marks session).Logged plan.store where
  claimed key := by
    have known : key ∈ (start plan root marks session).units ↔ root = key := by simp [start]
    have events : (start plan root marks session).events = [.claimed root] := rfl
    rw [events, List.count_singleton]
    simp [known]
  started key := by
    rw [stage_start]
    rfl
  finished key := by
    rw [stage_start]
    rfl
  counted := rfl
  totalled := rfl
  fetched key told := by simp [start, events] at told
  ordered before after key dep split needs := by
    have member : .walkStarted key ∈ (start plan root marks session).events := by
      rw [split]
      exact List.mem_append_right _ List.mem_cons_self
    simp [start, events] at member

/-- In every state that a schedule reaches, cancelled from outside or not, its log tells what the
units have done. -/
theorem logged_of_reaches {marks : Marks size}
    (reached : Reaches (Leads plan) (start plan root marks session) state) :
    state.Logged plan.store := by
  induction reached with
  | refl => exact logged_start plan root marks session
  | step reached leads logged =>
    rcases leads_cases leads with rfl | ⟨key, moved⟩
    · exact ⟨logged.claimed, logged.started, logged.finished, logged.counted, logged.totalled,
        logged.fetched, logged.ordered⟩
    · exact logged.moved (sound_of_reaches reached) moved

/-- The whole closure of a node whose walk has started has been fetched. -/
theorem Logged.closure_fetchable (logged : state.Logged plan.store) (sound : state.Sound plan root)
    (told : .walkStarted key ∈ state.events) {dep : NodeKey}
    (member : dep ∈ plan.store.closure key) : plan.store.Fetchable dep := by
  rcases Store.mem_closure_iff_needs.mp member with rfl | needs
  · exact logged.fetched dep told
  · obtain ⟨before, after, split⟩ := List.append_of_mem told
    have finished : dep ∈ state.finishes := by
      rw [finishes, split, List.filterMap_append]
      exact List.mem_append_left _ (logged.ordered before after key dep split needs)
    rw [← List.count_pos_iff, logged.finished] at finished
    apply sound.fetchable_of_walked
    unfold State.stage at finished
    cases held : state.units[dep]? with
    | none => simp [held, Stage.isWalked] at finished
    | some stage => cases stage <;> simp_all [Stage.isWalked]

/-! ## Claims and joins -/

/-- No unit has failed. -/
def Intact (state : State size) : Prop :=
  ∀ (key : NodeKey) (cause : Interruption), state.units[key]? ≠ some (.failed cause)

/-- The claims and joins of a node, and those still to come, are the dependency edges to it. -/
def Joined (store : Store (Fin size)) (root : NodeKey) (state : State size) : Prop :=
  ∀ dep, state.events.count (.claimed dep) + state.events.count (.joined dep) +
      state.total (store.closure root) (Stage.unreached store dep) =
    (∑ key ∈ store.closure root, (store.depList key).count dep) + if root = dep then 1 else 0

/-- A failure is never undone. -/
theorem Moved.intact_before (moved : Moved plan state key next) (intact : next.Intact) :
    state.Intact :=
  fun other cause held => intact other cause (moved.resolved_stays held rfl)

/-- A unit that fails leaves the schedule failed. -/
theorem not_intact_fail (state : State size) (key : NodeKey) (cause : Interruption) :
    ¬ (state.fail key cause).Intact := by
  intro intact
  exact intact key cause (state.units_fail_self key cause)

/-- A move that fails no unit keeps claims and joins in step with the dependency edges. -/
theorem Joined.moved (joined : state.Joined plan.store root) (sound : state.Sound plan root)
    (moved : Moved plan state key next) (intact : next.Intact) :
    next.Joined plan.store root := by
  intro dep
  have balance := moved.total_add (sound.mover_mem moved) (Stage.unreached plan.store dep)
  have earlier := joined dep
  have rule := moved
  cases rule
  case refuse held isCancelled => exact absurd intact (not_intact_fail _ _ _)
  case miss cause held unfetched genuine => exact absurd intact (not_intact_fail _ _ _)
  case fetch value deps held goesOn fetched =>
    have listed := Store.deps_eq_depList fetched.2
    rw [stage_of_held held, stage_put] at balance
    simp only [Stage.unreached, ← listed] at balance
    rw [events_put]
    omega
  case claim value reached left deps held fresh =>
    rw [stage_of_held held, stage_of_claim held fresh] at balance
    simp only [Stage.unreached, List.count_cons, beq_iff_eq] at balance
    simp only [events_note, events_put, List.count_append, List.count_singleton, beq_iff_eq,
      Event.claimed.injEq, reduceCtorEq, if_false]
    omega
  case join value reached left deps held known =>
    have after : ((state.put key (.claiming value left deps)).note (.joined reached)).stage key =
        .claiming value left deps := stage_put ..
    rw [stage_of_held held, after] at balance
    simp only [Stage.unreached, List.count_cons, beq_iff_eq] at balance
    simp only [events_note, events_put, List.count_append, List.count_singleton, beq_iff_eq,
      Event.joined.injEq, reduceCtorEq, if_false]
    omega
  all_goals
    simp only [State.stage, put, note, fail, release, ‹state.units[key]? = some _›, Stage.unreached,
      Std.ExtTreeMap.getElem?_insert_self, Option.getD_some, events, Array.toList_push,
      List.count_append, List.count_nil, List.count_singleton, beq_iff_eq, reduceCtorEq,
      if_false] at balance earlier ⊢
    omega

/-- Claims and joins are in step at first: the root is claimed and nothing else is reached. -/
theorem joined_start (plan : Plan size) (root : NodeKey) (marks : Marks size) (session : Bool) :
    (start plan root marks session).Joined plan.store root := by
  intro dep
  have total : (start plan root marks session).total (plan.store.closure root)
      (Stage.unreached plan.store dep) =
        ∑ key ∈ plan.store.closure root, (plan.store.depList key).count dep := by
    apply Finset.sum_congr rfl
    intro key _
    rw [stage_start]
    rfl
  have events : (start plan root marks session).events = [.claimed root] := rfl
  simp only [total, events, List.count_singleton, beq_iff_eq, Event.claimed.injEq, reduceCtorEq,
    if_false]
  omega

/-- As long as no unit has failed, claims and joins are in step with the dependency edges. -/
theorem joined_of_reaches {marks : Marks size}
    (reached : Reaches (Leads plan) (start plan root marks session) state) (intact : state.Intact) :
    state.Joined plan.store root := by
  induction reached with
  | refl => exact joined_start plan root marks session
  | step reached leads joined =>
    rcases leads_cases leads with rfl | ⟨key, moved⟩
    · exact joined intact
    · exact (joined (moved.intact_before intact)).moved (sound_of_reaches reached) moved intact

/-! ## Complete schedules -/

/-- A list with each member of a set once, and nothing else, is as long as the set is large. -/
theorem length_eq_card {Member : Type} [DecidableEq Member] {list : List Member}
    {set : Finset Member} (distinct : list.Nodup) (same : ∀ member, member ∈ list ↔ member ∈ set) :
    list.length = set.card := by
  have members : list.toFinset = set := by
    ext member
    rw [List.mem_toFinset, same]
  rw [← members, List.toFinset_card_of_nodup distinct]

/-- What a complete schedule has to show: the nodes of the closure, and no others, claimed once and
walked once, a claim or join for each dependency edge and one for the root, walks after the walks of
what they need, and counts that agree. -/
structure Complete (store : Store (Fin size)) (root : NodeKey) (closure : Closure size) : Prop where
  claimed : ∀ key, closure.log.count (.claimed key) = if key ∈ store.closure root then 1 else 0
  started : ∀ key, closure.log.count (.walkStarted key) = if key ∈ store.closure root then 1 else 0
  finished : ∀ key, (closure.log.filterMap Event.finish?).count key =
    if key ∈ store.closure root then 1 else 0
  reached : ∀ key, closure.log.count (.claimed key) + closure.log.count (.joined key) =
    (∑ dependent ∈ store.closure root, (store.depList dependent).count key) +
      if root = key then 1 else 0
  ordered : ∀ before after key dep, closure.log = before ++ .walkStarted key :: after →
    store.Needs key dep → dep ∈ before.filterMap Event.finish?
  nodes : closure.nodes = (store.closure root).card
  units : closure.claimed = (store.closure root).card

/-- A schedule has a result exactly if its root is walked. -/
theorem outcome_ok {closure : Closure size} (returned : state.outcome root = .ok closure) :
    state.units[root]? = some .walked ∧ closure =
      { scene := state.scene, nodes := state.nodes, objects := state.objects
        claimed := state.units.size, log := state.events } := by
  unfold outcome at returned
  split at returned
  · next walked =>
    cases returned
    exact ⟨walked, rfl⟩
  · cases returned
  · cases returned

/-- When the root is walked, the units are those of the closure, all of them walked. -/
theorem Sound.complete (sound : state.Sound plan root)
    (walked : state.units[root]? = some .walked) :
    (∀ key ∈ plan.store.closure root, state.units[key]? = some .walked) ∧
      (∀ key, key ∈ state.units ↔ key ∈ plan.store.closure root) ∧ state.Intact := by
  have done : ∀ key ∈ plan.store.closure root, state.units[key]? = some .walked :=
    fun key member => sound.closure_walked walked member
  have units : ∀ key, key ∈ state.units ↔ key ∈ plan.store.closure root := fun key =>
    ⟨sound.confined key, fun member => mem_units_iff.mpr ⟨_, done key member⟩⟩
  refine ⟨done, units, ?_⟩
  intro key cause failed
  have member := (units key).mp (mem_units_iff.mpr ⟨_, failed⟩)
  rw [done key member] at failed
  cases failed

/-- When the root is walked, the nodes of the closure are walked and no other node has begun. -/
theorem Sound.stage_complete (sound : state.Sound plan root)
    (walked : state.units[root]? = some .walked) (key : NodeKey) :
    state.stage key = if key ∈ plan.store.closure root then .walked else .spawned := by
  obtain ⟨done, units, _⟩ := sound.complete walked
  by_cases member : key ∈ plan.store.closure root
  · rw [if_pos member, stage_of_held (done key member)]
  · have unmade : state.units[key]? = none :=
      Std.ExtTreeMap.getElem?_eq_none fun known => member ((units key).mp known)
    rw [if_neg member, stage, unmade, Option.getD_none]

/-- When the root is walked, sums of what is still to be done are empty. -/
theorem Sound.total_complete (sound : state.Sound plan root)
    (walked : state.units[root]? = some .walked) {weight : NodeKey → Stage size → Nat}
    (nothing : ∀ key, weight key .walked = 0) :
    state.total (plan.store.closure root) weight = 0 := by
  apply Finset.sum_eq_zero
  intro key member
  rw [sound.stage_complete walked, if_pos member, nothing]

/-- No node is claimed, started or finished twice, and none outside the closure is claimed. -/
theorem Logged.once (logged : state.Logged plan.store) (sound : state.Sound plan root)
    (key : NodeKey) :
    state.events.count (.claimed key) ≤ 1 ∧ state.events.count (.walkStarted key) ≤ 1 ∧
      state.finishes.count key ≤ 1 ∧
      (.claimed key ∈ state.events → key ∈ plan.store.closure root) := by
  refine ⟨?_, ?_, ?_, ?_⟩
  · rw [logged.claimed]
    split <;> omega
  · have started := logged.started key
    cases held : state.stage key <;> rw [held] at started <;>
      simp only [Stage.Started] at started <;> omega
  · rw [logged.finished]
    split <;> omega
  · intro told
    have counted := List.count_pos_iff.mpr told
    rw [logged.claimed] at counted
    apply sound.confined key
    by_contra absent
    rw [if_neg absent] at counted
    omega

/-- When the root is walked, each node of the closure has finished its walk once, and no other
has. -/
theorem Logged.finishes_complete (logged : state.Logged plan.store) (sound : state.Sound plan root)
    (walked : state.units[root]? = some .walked) (key : NodeKey) :
    state.finishes.count key = if key ∈ plan.store.closure root then 1 else 0 := by
  rw [logged.finished, sound.stage_complete walked]
  by_cases member : key ∈ plan.store.closure root
  · simp only [if_pos member, Stage.isWalked, if_true]
  · simp only [if_neg member, Stage.isWalked, Bool.false_eq_true, if_false]

/-- When the root is walked, the nodes walked are as many as the closure has. -/
theorem Logged.nodes_complete (logged : state.Logged plan.store) (sound : state.Sound plan root)
    (walked : state.units[root]? = some .walked) :
    state.nodes = (plan.store.closure root).card := by
  have finished := logged.finishes_complete sound walked
  have distinct : state.finishes.Nodup := by
    rw [List.nodup_iff_count_le_one]
    intro key
    rw [finished]
    split <;> omega
  have members : ∀ key, key ∈ state.finishes ↔ key ∈ plan.store.closure root := by
    intro key
    rw [← List.count_pos_iff, finished]
    by_cases member : key ∈ plan.store.closure root
    · rw [if_pos member]
      exact iff_of_true Nat.one_pos member
    · rw [if_neg member]
      exact iff_of_false (Nat.lt_irrefl 0) member
  rw [logged.counted]
  exact length_eq_card distinct members

/-- **Whatever order the units move in, a schedule keeps to its protocol.** In every state that
moves lead to, also after a failure or a cancellation, no node has been claimed, started or finished
twice, and nothing outside the closure of the root has been claimed. When the schedule has a result,
it is complete: each node of the closure has been claimed and walked once, each dependency edge of
the closure has led to one claim or join, and every walk has started after the walks of all that its
node needs were finished. -/
theorem protocol {plan : Plan size} {root : NodeKey} {marks : Marks size} {session : Bool}
    {state : State size} (reached : Reaches (Leads plan) (start plan root marks session) state) :
    (∀ key, state.events.count (.claimed key) ≤ 1 ∧ state.events.count (.walkStarted key) ≤ 1 ∧
      state.finishes.count key ≤ 1 ∧
      (.claimed key ∈ state.events → key ∈ plan.store.closure root)) ∧
    ∀ closure, state.outcome root = .ok closure → Complete plan.store root closure := by
  have sound := sound_of_reaches reached
  have logged := logged_of_reaches reached
  constructor
  · exact logged.once sound
  · intro closure returned
    obtain ⟨walked, rfl⟩ := outcome_ok returned
    obtain ⟨_, units, intact⟩ := sound.complete walked
    constructor
    case claimed =>
      intro key
      rw [logged.claimed]
      exact if_congr (units key) rfl rfl
    case started =>
      intro key
      have started := logged.started key
      rw [sound.stage_complete walked] at started
      by_cases member : key ∈ plan.store.closure root
      · rw [if_pos member] at started ⊢
        exact started
      · rw [if_neg member] at started ⊢
        exact started
    case finished => exact logged.finishes_complete sound walked
    case reached =>
      intro key
      have joined := joined_of_reaches reached intact key
      rw [sound.total_complete walked fun _ => rfl] at joined
      exact joined
    case ordered => exact logged.ordered
    case nodes => exact logged.nodes_complete sound walked
    case units =>
      have members : ∀ key, key ∈ state.units.keys ↔ key ∈ plan.store.closure root := by
        intro key
        rw [Std.ExtTreeMap.mem_keys, units]
      have counted := length_eq_card Std.ExtTreeMap.nodup_keys members
      rw [Std.ExtTreeMap.length_keys] at counted
      exact counted

/-- The schedule of the diamond has a result, and keeps to its protocol on the way. -/
theorem protocol_diamond :
    ∃ state closure,
      Reaches (Leads Plan.diamond) (start Plan.diamond (corner "top") .none false) state ∧
        state.outcome (corner "top") = .ok closure ∧
        Complete Plan.diamond.store (corner "top") closure := by
  obtain ⟨state, closure, reached, returned⟩ := diamond_returns
  have moved := reaches_of_inside reached
  exact ⟨state, closure, moved, returned, (protocol moved).2 closure returned⟩

end State

end Schedule

end Retained
