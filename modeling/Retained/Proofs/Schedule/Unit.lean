import Retained.Proofs.Schedule.Move

/-!
# Units and their dependencies

Whatever moves in whatever order, the units of a schedule stay within the closure of its root, and
the stage of a unit says how far its dependencies are: those reached so far have units, and a unit
that has queued for a permit has all of its dependencies walked. So a unit that is walked has
everything it needs walked before it, down to the bottom of its closure, and all of that has been
fetched.
-/

namespace Retained.Schedule

variable {size : Nat}

/-- Both fetches of a node have succeeded and all of its dependencies are walked. -/
def State.Prepared (state : State size) (store : Store (Fin size)) (key : NodeKey)
    (value : Fin size) : Prop :=
  ∃ deps, store.Fetches key value deps ∧ ∀ dep ∈ deps, state.units[dep]? = some .walked

/-- What the stage of a unit says about its node and the units of its dependencies. -/
def Stage.Fits (store : Store (Fin size)) (state : State size) (key : NodeKey) :
    Stage size → Prop
  | spawned => True
  | claiming value left deps =>
    store.Fetches key value deps ∧
      ∃ done, deps = done ++ left ∧ ∀ dep ∈ done, dep ∈ state.units
  | waiting value deps => store.Fetches key value deps ∧ ∀ dep ∈ deps, dep ∈ state.units
  | queued value => state.Prepared store key value
  | admitted value => state.Prepared store key value
  | walking _ => ∃ value, state.Prepared store key value
  | walked => ∃ value, state.Prepared store key value
  | failed _ => True

namespace State

variable {state next : State size} {plan : Plan size} {root key : NodeKey} {session : Bool}

/-- The units of a schedule make sense: the root has one, all of them belong to the closure of the
root, and their stages fit. -/
structure Sound (plan : Plan size) (root : NodeKey) (state : State size) : Prop where
  rooted : root ∈ state.units
  confined : ∀ key ∈ state.units, key ∈ plan.store.closure root
  fits : ∀ key (stage : Stage size), state.units[key]? = some stage →
    stage.Fits plan.store state key

/-- A schedule that has just been started has one unit, which has not begun. -/
theorem units_start {marks : Marks size} {stage : Stage size}
    (held : (start plan root marks session).units[key]? = some stage) :
    key = root ∧ stage = .spawned := by
  by_cases same : root = key
  · have spawned : stage = .spawned := by simpa [start, same, eq_comm] using held
    exact ⟨same.symm, spawned⟩
  · simp [start, same] at held

/-- A schedule that has just been started is sound. -/
theorem sound_start (plan : Plan size) (root : NodeKey) (marks : Marks size) (session : Bool) :
    (start plan root marks session).Sound plan root := by
  constructor
  case rooted => simp [start]
  case confined =>
    intro key known
    obtain ⟨stage, held⟩ := mem_units_iff.mp known
    rw [(units_start held).1]
    exact plan.store.self_mem_closure root
  case fits =>
    intro key stage held
    rw [(units_start held).2]
    trivial

/-- The dependencies of a unit stay walked. -/
theorem Prepared.stays {other : NodeKey} {value : Fin size}
    (prepared : state.Prepared plan.store other value) (moved : Moved plan state key next) :
    next.Prepared plan.store other value := by
  obtain ⟨deps, fetched, done⟩ := prepared
  exact ⟨deps, fetched, fun dep member => moved.resolved_stays (done dep member) rfl⟩

/-- A stage that fits still fits after a move of any unit. -/
theorem fits_stays {other : NodeKey} {stage : Stage size}
    (fits : stage.Fits plan.store state other) (moved : Moved plan state key next) :
    stage.Fits plan.store next other := by
  cases stage with
  | spawned => trivial
  | claiming value left deps =>
    obtain ⟨fetched, done, split, reached⟩ := fits
    exact ⟨fetched, done, split, fun dep member => moved.mem_stays (reached dep member)⟩
  | waiting value deps =>
    obtain ⟨fetched, reached⟩ := fits
    exact ⟨fetched, fun dep member => moved.mem_stays (reached dep member)⟩
  | queued value => exact fits.stays moved
  | admitted value => exact fits.stays moved
  | walking walker =>
    obtain ⟨value, prepared⟩ := fits
    exact ⟨value, prepared.stays moved⟩
  | walked =>
    obtain ⟨value, prepared⟩ := fits
    exact ⟨value, prepared.stays moved⟩
  | failed cause => trivial

/-- A unit that has reached its next dependency fits the rest of its list, if that has a unit. -/
theorem fits_reach {value : Fin size} {dep : NodeKey} {left deps : List NodeKey}
    (fits : (Stage.claiming value (dep :: left) deps).Fits plan.store state key)
    (known : dep ∈ state.units) :
    (Stage.claiming value left deps).Fits plan.store state key := by
  obtain ⟨fetched, done, split, reached⟩ := fits
  refine ⟨fetched, done ++ [dep], by simp [split], ?_⟩
  intro other member
  rcases List.mem_append.mp member with earlier | new
  · exact reached other earlier
  · rw [List.mem_singleton.mp new]
    exact known

/-- A unit that moves gets to a stage that fits. -/
theorem Sound.fits_moved (sound : state.Sound plan root) (moved : Moved plan state key next)
    {stage : Stage size} (held : next.units[key]? = some stage) :
    stage.Fits plan.store next key := by
  have carried : ∀ before, state.units[key]? = some before → before.Fits plan.store next key :=
    fun before found => fits_stays (sound.fits key before found) moved
  have rule := moved
  cases rule
  case fetch value deps found goesOn fetched =>
    rw [units_put, if_pos rfl] at held
    cases held
    exact ⟨fetched, [], rfl, by simp⟩
  case claim value dep left deps found fresh =>
    have apart : key ≠ dep := by
      intro same
      rw [← same, found] at fresh
      contradiction
    have known : dep ∈ (((state.put key (.claiming value left deps)).put dep .spawned).note
        (.claimed dep)).units := by
      rw [mem_units_iff, units_note, units_put, if_pos rfl]
      exact ⟨_, rfl⟩
    have fits := carried _ found
    rw [units_note, units_put, if_neg apart, units_put, if_pos rfl] at held
    cases held
    exact fits_reach fits known
  case join value dep left deps found known =>
    have fits := carried _ found
    rw [units_note, units_put, if_pos rfl] at held
    cases held
    exact fits_reach fits (moved.mem_stays known)
  case await value deps found =>
    obtain ⟨fetched, done, split, reached⟩ := carried _ found
    rw [units_put, if_pos rfl] at held
    cases held
    rw [List.append_nil] at split
    exact ⟨fetched, split ▸ reached⟩
  case ready value deps found done =>
    obtain ⟨fetched, _⟩ := carried _ found
    rw [units_put, if_pos rfl] at held
    cases held
    exact ⟨deps, fetched, fun dep member => moved.resolved_stays (done dep member) rfl⟩
  case permit value found available =>
    have prepared := carried _ found
    simp only [units_put, if_pos] at held
    cases held
    exact prepared
  case start value found goesOn =>
    have prepared := carried _ found
    rw [units_note, units_put, if_pos rfl] at held
    cases held
    exact ⟨value, prepared⟩
  case walk walker further scene found stepped =>
    have prepared := carried _ found
    simp only [units_put, if_pos] at held
    cases held
    exact prepared
  case finish walker summary found stepped =>
    have prepared := carried _ found
    simp only [units_release, units_note, units_put, if_pos] at held
    cases held
    exact prepared
  all_goals
    simp only [units_release, units_fail, if_pos] at held
    cases held
    trivial

/-- Every move keeps a schedule sound. -/
theorem Sound.moved (sound : state.Sound plan root) (moved : Moved plan state key next) :
    next.Sound plan root := by
  constructor
  case rooted => exact moved.mem_stays sound.rooted
  case confined =>
    intro other known
    by_cases before : other ∈ state.units
    · exact sound.confined other before
    · obtain ⟨value, left, deps, found⟩ := moved.claimer known before
      obtain ⟨fetched, done, split, _⟩ := sound.fits key _ found
      have member : other ∈ deps := by simp [split]
      exact Store.dep_mem_closure (sound.confined key (mem_units_iff.mpr ⟨_, found⟩))
        (fetched.dependsOn.mpr member)
  case fits =>
    intro other stage held
    by_cases same : other = key
    · subst same
      exact sound.fits_moved moved held
    · rcases moved.others same with unchanged | ⟨_, spawned⟩
      · exact fits_stays (sound.fits other stage (unchanged.symm.trans held)) moved
      · rw [spawned] at held
        cases held
        trivial

/-- A unit that moves belongs to the closure. -/
theorem Sound.mover_mem (sound : state.Sound plan root) (moved : Moved plan state key next) :
    key ∈ plan.store.closure root := by
  obtain ⟨stage, held, _⟩ := moved.held
  exact sound.confined key (mem_units_iff.mpr ⟨stage, held⟩)

/-- Every state that a schedule reaches is sound, whether or not it is cancelled from outside. -/
theorem sound_of_reaches {marks : Marks size}
    (reached : Reaches (Leads plan) (start plan root marks session) state) :
    state.Sound plan root := by
  refine reached.induct (sound_start plan root marks session) ?_
  intro state next leads sound
  rcases leads_cases leads with rfl | ⟨key, moved⟩
  · exact ⟨sound.rooted, sound.confined, sound.fits⟩
  · exact sound.moved moved

/-! ## What walked units need -/

/-- What a unit needs is walked once its direct dependencies are. -/
theorem Sound.needs_walked {dep : NodeKey} (sound : state.Sound plan root)
    (direct : ∀ dep, plan.store.DependsOn key dep → state.units[dep]? = some .walked)
    (needs : plan.store.Needs key dep) : state.units[dep]? = some .walked := by
  induction needs with
  | single depends => exact direct _ depends
  | tail _ depends walked =>
    obtain ⟨value, deps, fetched, done⟩ := sound.fits _ _ walked
    exact done _ (fetched.dependsOn.mp depends)

/-- What a prepared unit needs is walked. -/
theorem Sound.needs_walked_of_prepared {value : Fin size} {dep : NodeKey}
    (sound : state.Sound plan root) (prepared : state.Prepared plan.store key value)
    (needs : plan.store.Needs key dep) : state.units[dep]? = some .walked := by
  obtain ⟨deps, fetched, done⟩ := prepared
  exact sound.needs_walked (fun dep depends => done dep (fetched.dependsOn.mp depends)) needs

/-- The whole closure of a walked unit is walked. -/
theorem Sound.closure_walked {dep : NodeKey} (sound : state.Sound plan root)
    (walked : state.units[key]? = some .walked) (member : dep ∈ plan.store.closure key) :
    state.units[dep]? = some .walked := by
  rcases Store.mem_closure_iff_needs.mp member with rfl | needs
  · exact walked
  · obtain ⟨value, prepared⟩ := sound.fits key _ walked
    exact sound.needs_walked_of_prepared prepared needs

/-- A walked unit has been fetched. -/
theorem Sound.fetchable_of_walked (sound : state.Sound plan root)
    (walked : state.units[key]? = some .walked) : plan.store.Fetchable key := by
  obtain ⟨value, deps, fetched, _⟩ := sound.fits key _ walked
  exact ⟨value, deps, fetched⟩

end State

end Retained.Schedule
