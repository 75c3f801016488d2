import Retained.Proofs.Schedule.Drive
import Retained.Proofs.Schedule.Protocol

/-!
# Who marks what

The history of a schedule says which unit's walk marked which object, in order. Whatever moves when,
no object is marked by two walks, and the marks are those of the beginning and those of the history
(`Recorded`). As long as no unit has failed, nothing of the history is lost: each object in it has
been counted by the walk that marked it, and has been reported if it is wanted, apart from the
objects that walks under way are just about to report (`Accounted`).
-/

namespace Retained.Schedule

variable {size : Nat}

namespace Stage

/-- The objects that a unit's walk under way has marked and not yet counted as found. -/
def visited : Stage size → Nat
  | walking walker => walker.summary.visited
  | _ => 0

/-- The objects that a unit's walk under way has marked and not yet reported. -/
def unreported : Stage size → List (Fin size)
  | walking walker => walker.unreported
  | _ => []

end Stage

namespace State

variable {state next : State size} {plan : Plan size} {root key : NodeKey} {session : Bool}
variable {marks : Marks size} {history : List (NodeKey × Fin size)}

/-- The objects that the walk of a unit marks in its next step. -/
def claims (plan : Plan size) (key : NodeKey) (state : State size) : List (Fin size) :=
  match state.units[key]? with
  | some (.walking walker) => walker.claims plan.walk state.scene
  | _ => []

/-- The marks that a move sets, each with the unit whose walk sets it. -/
def marking (plan : Plan size) (move : Move) (state : State size) : List (NodeKey × Fin size) :=
  match move with
  | .advance key => (state.claims plan key).map fun place => (key, place)
  | _ => []

/-- Moves that are not cancellations from outside lead from a state to another, and set the marks of
a history on the way. -/
inductive Run (plan : Plan size) (origin : State size) :
    List (NodeKey × Fin size) → State size → Prop where
  | refl : Run plan origin [] origin
  | step {history : List (NodeKey × Fin size)} {state next : State size} {move : Move}
      (ran : Run plan origin history state) (inside : move ≠ .cancel)
      (moved : state.after plan move = some next) :
      Run plan origin (history ++ state.marking plan move) next

/-- Whatever a schedule reaches, it reaches with some history. -/
theorem exists_run {origin : State size} (reached : Reaches (LeadsInside plan) origin state) :
    ∃ history, Run plan origin history state := by
  induction reached with
  | refl => exact ⟨[], .refl⟩
  | step _ leads earlier =>
    obtain ⟨history, ran⟩ := earlier
    obtain ⟨move, inside, moved⟩ := leads
    exact ⟨_, ran.step inside moved⟩

/-- What a run leads to is reached. -/
theorem Run.reaches {origin : State size} (ran : Run plan origin history state) :
    Reaches (LeadsInside plan) origin state := by
  induction ran with
  | refl => exact .refl
  | step _ inside moved earlier => exact earlier.step ⟨_, inside, moved⟩

/-- Every step of a run follows a rule, and the unit that moves sets the marks. -/
theorem marking_moved {move : Move} (inside : move ≠ .cancel)
    (moved : state.after plan move = some next) :
    ∃ key, Moved plan state key next ∧
      state.marking plan move = (state.claims plan key).map fun place => (key, place) := by
  cases move with
  | advance key => exact ⟨key, advance_moved moved, rfl⟩
  | abandon key =>
    refine ⟨key, abandon_moved moved, ?_⟩
    have nothing : state.claims plan key = [] := by
      simp only [after, State.abandon] at moved
      unfold claims
      split at moved
      · next held => rw [held]
      · cases moved
    rw [nothing]
    rfl
  | cancel => exact absurd rfl inside

/-- A move sets no mark, or that of one object which the walk of its unit enters. -/
theorem Moved.marks_cases (moved : Moved plan state key next) :
    (state.claims plan key = [] ∧ next.scene.marks = state.scene.marks) ∨
      ∃ place, state.claims plan key = [place] ∧ plan.walk.Enters state.scene.marks place ∧
        next.scene.marks = state.scene.marks.mark place := by
  unfold claims
  cases moved
  case walk walker further scene held stepped =>
    rw [held]
    exact stepped.marks_cases
  case interrupt walker held isCancelled nothing =>
    rw [held]
    exact Or.inl ⟨nothing, rfl⟩
  case finish walker summary held stepped =>
    rw [held]
    exact Or.inl ⟨stepped.finished.2.2.2.1, rfl⟩
  all_goals
    rw [‹state.units[key]? = some _›]
    exact Or.inl ⟨rfl, rfl⟩

/-- The history tells the marks: no object is marked twice, none that was marked at first, and what
is marked was marked at first or is in the history. -/
structure Recorded (plan : Plan size) (root : NodeKey) (marks : Marks size)
    (history : List (NodeKey × Fin size)) (state : State size) : Prop where
  distinct : (history.map Prod.snd).Nodup
  fresh : ∀ place ∈ history.map Prod.snd, marks.contains place = false
  marked : ∀ place, state.scene.marks.contains place = true ↔
    marks.contains place = true ∨ place ∈ history.map Prod.snd
  owners : ∀ entry ∈ history, entry.1 ∈ plan.store.closure root

/-- Every move is recorded. -/
theorem Recorded.moved (recorded : state.Recorded plan root marks history)
    (sound : state.Sound plan root) (moved : Moved plan state key next) :
    next.Recorded plan root marks
      (history ++ (state.claims plan key).map fun place => (key, place)) := by
  rcases moved.marks_cases with ⟨nothing, same⟩ | ⟨place, one, enters, grown⟩
  · rw [nothing, List.map_nil, List.append_nil]
    exact ⟨recorded.distinct, recorded.fresh, by rw [same]; exact recorded.marked, recorded.owners⟩
  · have places : (history ++ (state.claims plan key).map fun place => (key, place)).map Prod.snd =
        history.map Prod.snd ++ [place] := by
      rw [one, List.map_append]
      rfl
    have unknown : ¬ (marks.contains place = true ∨ place ∈ history.map Prod.snd) := by
      rw [← recorded.marked, enters.2]
      exact Bool.false_ne_true
    constructor
    case distinct =>
      rw [places, List.nodup_append_comm, List.singleton_append, List.nodup_cons]
      exact ⟨fun old => unknown (Or.inr old), recorded.distinct⟩
    case fresh =>
      intro other member
      rw [places, List.mem_append, List.mem_singleton] at member
      rcases member with old | rfl
      · exact recorded.fresh other old
      · exact Bool.eq_false_iff.mpr fun known => unknown (Or.inl known)
    case marked =>
      intro other
      rw [grown, Marks.contains_mark, Bool.or_eq_true, decide_eq_true_eq, recorded.marked, places,
        List.mem_append, List.mem_singleton, @eq_comm _ place, or_comm, or_assoc]
    case owners =>
      intro entry member
      rcases List.mem_append.mp member with old | new
      · exact recorded.owners entry old
      · obtain ⟨_, _, rfl⟩ := List.mem_map.mp new
        exact sound.mover_mem moved

/-- Every run is recorded. -/
theorem recorded_of_run (ran : Run plan (start plan root marks session) history state) :
    state.Recorded plan root marks history := by
  induction ran with
  | refl => exact ⟨List.nodup_nil, by simp, by simp [start, Scene.start], by simp⟩
  | step ran inside moved recorded =>
    obtain ⟨key, rule, same⟩ := marking_moved inside moved
    rw [same]
    exact recorded.moved (sound_of_reaches (reaches_of_inside ran.reaches)) rule

/-! ## Nothing is lost -/

/-- What the history tells of has been counted and, if wanted, reported: by walks that are finished,
or by walks under way up to the objects that they are about to report. -/
structure Accounted (plan : Plan size) (root : NodeKey) (history : List (NodeKey × Fin size))
    (state : State size) : Prop where
  counted : history.length =
    state.objects + state.total (plan.store.closure root) fun _ => Stage.visited
  reported : ∃ seen : List (Fin size), state.scene.reported.toList = seen.filter plan.walk.wants ∧
    ∀ place, (history.map Prod.snd).count place = seen.count place +
      state.total (plan.store.closure root) fun _ stage => stage.unreported.count place

/-- A move keeps what is accounted for if what its unit had not reported and what it claims are seen
by the move or not reported after it, the wanted ones of those seen are reported, and what is
claimed is counted. -/
theorem Accounted.of_step (accounted : state.Accounted plan root history)
    (moved : Moved plan state key next) (member : key ∈ plan.store.closure root)
    (more : List (Fin size))
    (conserved : (state.stage key).unreported ++ state.claims plan key =
      more ++ (next.stage key).unreported)
    (told : next.scene.reported.toList =
      state.scene.reported.toList ++ more.filter plan.walk.wants)
    (visited : next.objects + (next.stage key).visited =
      state.objects + (state.stage key).visited + (state.claims plan key).length) :
    next.Accounted plan root
      (history ++ (state.claims plan key).map fun place => (key, place)) := by
  obtain ⟨counted, seen, reported, found⟩ := accounted
  constructor
  · have balance := moved.total_add member fun _ => Stage.visited
    rw [List.length_append, List.length_map]
    omega
  · refine ⟨seen ++ more, by rw [told, reported, List.filter_append], ?_⟩
    intro place
    have balance := moved.total_add member fun _ stage => stage.unreported.count place
    have shared := congrArg (List.count place) conserved
    have places : ((state.claims plan key).map fun place => (key, place)).map Prod.snd =
        state.claims plan key := by
      simp
    rw [List.count_append, List.count_append] at shared
    rw [List.map_append, List.count_append, List.count_append, places, found place]
    omega

/-- A move that fails no unit loses nothing. -/
theorem Accounted.moved (accounted : state.Accounted plan root history)
    (sound : state.Sound plan root) (moved : Moved plan state key next) (intact : next.Intact) :
    next.Accounted plan root
      (history ++ (state.claims plan key).map fun place => (key, place)) := by
  have member := sound.mover_mem moved
  have rule := moved
  cases rule
  case walk walker further scene held stepped =>
    obtain ⟨more, conserved, told, visited, _⟩ := stepped.accounts
    have claimed : state.claims plan key = walker.claims plan.walk state.scene := by
      unfold claims
      rw [held]
    have after : ({ state.put key (.walking further) with scene } : State size).stage key =
        .walking further := stage_put ..
    refine accounted.of_step moved member more ?_ told ?_
    · rw [stage_of_held held, after, claimed]
      exact conserved
    · rw [stage_of_held held, after, claimed]
      simp only [Stage.visited, put]
      omega
  case claim value dep left deps held fresh =>
    have nothing : state.claims plan key = [] := by
      unfold claims
      rw [held]
    refine accounted.of_step moved member [] ?_ (List.append_nil _).symm ?_
    · rw [stage_of_held held, stage_of_claim held fresh, nothing]
      rfl
    · rw [stage_of_held held, stage_of_claim held fresh, nothing]
      rfl
  case finish walker summary held stepped =>
    obtain ⟨_, unreported, same, unclaimed, _⟩ := stepped.finished
    have nothing : state.claims plan key = [] := by
      unfold claims
      rw [held]
      exact unclaimed
    have after : ({ ((state.put key .walked).note (.walkFinished key summary.visited)).release with
        nodes := state.nodes + 1
        objects := state.objects + summary.visited } : State size).stage key = .walked :=
      stage_put ..
    refine accounted.of_step moved member [] ?_ (List.append_nil _).symm ?_
    · rw [stage_of_held held, after, nothing]
      simp only [Stage.unreported, unreported, List.append_nil]
    · rw [stage_of_held held, after, nothing]
      simp only [Stage.visited, same]
      rfl
  case interrupt walker held isCancelled nothing =>
    exact absurd intact (not_intact_fail _ _ _)
  all_goals
    have nothing : state.claims plan key = [] := by
      unfold claims
      rw [‹state.units[key]? = some _›]
    refine accounted.of_step moved member [] ?_ (List.append_nil _).symm ?_
    · simp [nothing, State.stage, put, note, fail, release, ‹state.units[key]? = some _›,
        Stage.unreported, Walker.start, Walker.unreported]
    · simp [nothing, State.stage, put, note, fail, release, ‹state.units[key]? = some _›,
        Stage.visited, Walker.start]

/-- As long as no unit has failed, nothing of a run is lost. -/
theorem accounted_of_run (ran : Run plan (start plan root marks session) history state)
    (intact : state.Intact) : state.Accounted plan root history := by
  induction ran with
  | refl =>
    have none : ∀ weight : NodeKey → Stage size → Nat, (∀ key, weight key .spawned = 0) →
        (start plan root marks session).total (plan.store.closure root) weight = 0 := by
      intro weight nothing
      apply Finset.sum_eq_zero
      intro key _
      rw [stage_start, nothing]
    constructor
    · rw [none _ fun _ => rfl]
      rfl
    · refine ⟨[], rfl, ?_⟩
      intro place
      rw [none _ fun _ => rfl]
      rfl
  | step ran inside moved accounted =>
    obtain ⟨key, rule, same⟩ := marking_moved inside moved
    rw [same]
    exact (accounted (rule.intact_before intact)).moved
      (sound_of_reaches (reaches_of_inside ran.reaches)) rule intact

end State

end Retained.Schedule
