import Retained.Proofs.Schedule.Finish

/-!
# Schedules neither stop halfway nor go on forever

Whatever moves when, and whenever the session is cancelled from outside, a schedule of an acyclic
closure can go on until its root is resolved, and it cannot go on for long: every move of a unit
takes something from the supply of effort, a sum over the nodes of the closure and the objects that
are not marked yet, and the session can be cancelled once. No more values are walked at once than
there are permits.
-/

namespace Retained.Schedule

variable {size : Nat}

/-- Whether a unit is walking its value. -/
def Stage.isWalking : Stage size → Bool
  | walking _ => true
  | _ => false

/-- Whether a move is one of a unit, as opposed to a cancellation from outside. -/
def Move.isInside : Move → Bool
  | cancel => false
  | _ => true

namespace State

variable {state next last : State size} {plan : Plan size} {root : NodeKey} {session : Bool}
variable {marks : Marks size} {move : Move} {moves : List Move}

/-- The state after some moves, one after the other, if each is possible when it is made. -/
def afterAll (plan : Plan size) (moves : List Move) (state : State size) : Option (State size) :=
  moves.foldlM (fun state move => state.after plan move) state

/-- The nodes whose values are being walked. -/
def walking (state : State size) : List NodeKey :=
  state.units.keys.filter fun key => (state.stage key).isWalking

/-- A bound on the moves still to come that change anything: those of the units, and the
cancellation of a session that goes on. -/
def remaining (plan : Plan size) (scope : Finset NodeKey) (state : State size) : Nat :=
  state.effort plan scope + if state.token.session then 0 else 1

/-! ## Moves are bounded -/

/-- No move of a unit touches the session. -/
theorem Moved.session_stays {key : NodeKey} (moved : Moved plan state key next) :
    next.token.session = state.token.session := by
  cases moved <;> rfl

/-- A session that is cancelled already is not changed by being cancelled again. -/
theorem cancel_cancelled (cancelled : state.token.session = true) :
    { state with token := state.token.cancelSession } = state := by
  have same : state.token.cancelSession = state.token := by
    rw [Token.cancelSession, ← cancelled]
  rw [same]

/-- Every move leaves fewer moves to come, unless it cancels a session that is cancelled already. -/
theorem remaining_after (sound : state.Sound plan root)
    (moved : state.after plan move = some next) :
    next.remaining plan (plan.store.closure root) < state.remaining plan (plan.store.closure root) ∨
      move = .cancel ∧ next = state := by
  have inside : ∀ key, Moved plan state key next →
      next.remaining plan (plan.store.closure root) <
        state.remaining plan (plan.store.closure root) := by
    intro key unitMoved
    have less := unitMoved.effort_lt (sound.mover_mem unitMoved)
    rw [remaining, remaining, unitMoved.session_stays]
    omega
  cases move with
  | advance key => exact Or.inl (inside key (advance_moved moved))
  | abandon key => exact Or.inl (inside key (abandon_moved moved))
  | cancel =>
    cases moved
    cases cancelled : state.token.session with
    | true => exact Or.inr ⟨rfl, cancel_cancelled cancelled⟩
    | false =>
      left
      show state.effort plan _ + 0 < state.remaining plan _
      rw [remaining, cancelled]
      exact Nat.lt_succ_self _

/-- So many moves of units are made in a row as there were moves to come. -/
theorem remaining_afterAll (reached : Reaches (Leads plan) (start plan root marks session) state)
    (possible : state.afterAll plan moves = some last) :
    Reaches (Leads plan) (start plan root marks session) last ∧
      moves.countP Move.isInside + last.remaining plan (plan.store.closure root) ≤
        state.remaining plan (plan.store.closure root) := by
  -- The induction is on the moves; every state on the way is one that the schedule reaches.
  induction moves generalizing state with
  | nil =>
    cases possible
    exact ⟨reached, by simp⟩
  | cons move moves further =>
    rw [afterAll, List.foldlM_cons] at possible
    obtain ⟨next, moved, onwards⟩ := Option.bind_eq_some_iff.mp possible
    obtain ⟨reachedLast, rest⟩ := further (reached.step ⟨move, moved⟩) onwards
    refine ⟨reachedLast, ?_⟩
    rw [List.countP_cons]
    rcases remaining_after (sound_of_reaches reached) moved with less | ⟨outside, same⟩
    · have single : (if move.isInside then 1 else 0) ≤ 1 := by split <;> omega
      omega
    · have uncounted : (if move.isInside then 1 else 0) = 0 := by rw [outside]; rfl
      rw [same] at rest
      omega

/-! ## Walks -/

/-- No more values are walked at once than there are permits. -/
theorem walking_length_le (sound : state.Sound plan root)
    (permitted : state.Permitted plan (plan.store.closure root)) :
    state.walking.length ≤ plan.permits := by
  have distinct : state.walking.Nodup := Std.ExtTreeMap.nodup_keys.filter _
  have inside : state.walking.toFinset ⊆ plan.store.closure root := by
    intro key member
    have held := List.mem_of_mem_filter (List.mem_toFinset.mp member)
    exact sound.confined key (Std.ExtTreeMap.mem_keys.mp held)
  have permit : ∀ key ∈ state.walking.toFinset, 1 = (state.stage key).permits := by
    intro key member
    have isWalking : (state.stage key).isWalking = true :=
      (List.mem_filter.mp (List.mem_toFinset.mp member)).2
    cases stage : state.stage key with
    | walking walker => rfl
    | _ =>
      rw [stage] at isWalking
      cases isWalking
  calc
    state.walking.length = ∑ key ∈ state.walking.toFinset, 1 := by
      rw [← Finset.card_eq_sum_ones, List.toFinset_card_of_nodup distinct]
    _ = ∑ key ∈ state.walking.toFinset, (state.stage key).permits :=
      Finset.sum_congr rfl permit
    _ ≤ state.total (plan.store.closure root) (fun _ => Stage.permits) :=
      Finset.sum_le_sum_of_subset inside
    _ ≤ plan.permits := by
      unfold Permitted at permitted
      omega

/-! ## Liveness -/

/-- **A schedule neither stops halfway nor goes on forever, and keeps to its permits.** In every
state that moves lead to, with failures and cancellations among them: if the root of an acyclic
closure is not resolved, some unit can move; every move that changes anything leaves fewer moves to
come, as counted by a sum over the nodes of the closure and the objects not marked yet, which is
within a bound fixed beforehand; and no more values are being walked at once than the plan asks for,
or than one if it asks for none. -/
theorem goes_on_within_bounds (acyclic : plan.store.Acyclic root)
    (possible : (start plan root marks session).afterAll plan moves = some state) :
    (state.isResolved root = false → ∃ next, LeadsInside plan state next) ∧
      (∀ move next, state.after plan move = some next →
        next.remaining plan (plan.store.closure root) <
            state.remaining plan (plan.store.closure root) ∨
          move = .cancel ∧ next = state) ∧
      moves.countP Move.isInside + state.remaining plan (plan.store.closure root) ≤
        plan.moveBound + 1 ∧
      state.walking.length ≤ max 1 plan.walks := by
  obtain ⟨reached, spent⟩ := remaining_afterAll .refl possible
  have sound := sound_of_reaches reached
  have permitted := permitted_of_reaches reached
  refine ⟨?_, fun _ _ => remaining_after sound, ?_, ?_⟩
  · intro pending
    obtain ⟨stage, held⟩ := mem_units_iff.mp sound.rooted
    rw [isResolved_of_held held] at pending
    exact exists_move acyclic sound permitted held pending
  · have effort := effort_start_le plan root marks session
    have cancellation : (if (start plan root marks session).token.session then 0 else 1) ≤ 1 := by
      split <;> omega
    unfold remaining at spent ⊢
    omega
  · rw [max_comm]
    exact walking_length_le sound permitted

/-- After the root of the broken diamond has claimed a corner and the session is cancelled, the root
is not resolved, some unit can move, and no two values are walked at once. -/
theorem goes_on_within_bounds_brokenDiamond :
    ∃ state, (start .brokenDiamond (corner "top") .none false).afterAll .brokenDiamond
        [.advance (corner "top"), .advance (corner "top"), .cancel] = some state ∧
      state.isResolved (corner "top") = false ∧ (∃ next, LeadsInside .brokenDiamond state next) ∧
      state.walking.length ≤ 1 := by
  let moves : List Move := [.advance (corner "top"), .advance (corner "top"), .cancel]
  have pending : ((start .brokenDiamond (corner "top") .none false).afterAll .brokenDiamond
      moves).map (fun state => state.isResolved (corner "top")) = some false := by
    decide +kernel
  obtain ⟨state, possible, unresolved⟩ := Option.map_eq_some_iff.mp pending
  have rule := goes_on_within_bounds (Plan.brokenDiamond_acyclic (corner "top")) possible
  exact ⟨state, possible, unresolved, rule.1 unresolved, rule.2.2.2⟩

end State

end Retained.Schedule
