import Retained.Proofs.Dump.Bill
import Retained.Proofs.Schedule.Protocol
import Retained.Proofs.Schedule.Return

/-!
# Failing schedules

A schedule that nobody cancels from outside fails exactly if some node of its closure cannot be
fetched, whatever moves when. A unit fails because it cannot fetch its node, because a dependency
has failed, or because the schedule has cancelled itself, which only a failure makes it do; and a
unit is never walked while something below it cannot be fetched. A failure cancels the schedule and
never the session it runs in.
-/

namespace Retained.Schedule

variable {size : Nat}

namespace State

variable {state next : State size} {plan : Plan size} {root key : NodeKey} {session : Bool}

/-- A move leaves the token alone and fails no unit, or it fails its unit and cancels the schedule,
because of a cancellation, a failing fetch, or the failure of another unit. -/
theorem Moved.fails (moved : Moved plan state key next) :
    (next.token = state.token ∧
        ∀ cause : Interruption, next.units[key]? ≠ some (Stage.failed cause)) ∨
      ∃ cause : Interruption, next.token = state.token.cancel ∧
        next.units[key]? = some (.failed cause) ∧
        ((cause ≠ .stalled ∧ (state.cancelled = true ∨ ¬ plan.store.Fetchable key)) ∨
          ∃ dep : NodeKey, state.units[dep]? = some (.failed cause)) := by
  cases moved
  case refuse held isCancelled =>
    exact Or.inr ⟨_, rfl, units_fail_self _ _ _, Or.inl ⟨nofun, Or.inl isCancelled⟩⟩
  case miss cause held unfetched genuine =>
    exact Or.inr ⟨_, rfl, units_fail_self _ _ _, Or.inl ⟨genuine, Or.inr unfetched⟩⟩
  case inherit value dep deps cause held member failure =>
    exact Or.inr ⟨_, rfl, units_fail_self _ _ _, Or.inr ⟨dep, failure⟩⟩
  case abandon value deps held isCancelled =>
    exact Or.inr ⟨_, rfl, units_fail_self _ _ _, Or.inl ⟨nofun, Or.inl isCancelled⟩⟩
  case dismiss value held isCancelled =>
    exact Or.inr ⟨_, rfl, units_fail_self _ _ _, Or.inl ⟨nofun, Or.inl isCancelled⟩⟩
  case interrupt walker held isCancelled nothing =>
    exact Or.inr ⟨_, rfl, units_fail_self _ _ _, Or.inl ⟨nofun, Or.inl isCancelled⟩⟩
  case claim value dep left deps held fresh =>
    refine Or.inl ⟨rfl, ?_⟩
    intro cause failure
    have claiming : (((state.put key (.claiming value left deps)).put dep .spawned).note
        (.claimed dep)).stage key = .claiming value left deps := stage_of_claim held fresh
    rw [stage_of_held failure] at claiming
    cases claiming
  all_goals
    refine Or.inl ⟨rfl, ?_⟩
    intro cause failure
    simp [units_put] at failure

/-- Who is to blame for failures: a failed unit has cancelled the schedule, the session is as it
was, and a schedule of a session that goes on is cancelled only if some node cannot be fetched. -/
structure Blamed (plan : Plan size) (root : NodeKey) (session : Bool) (state : State size) :
    Prop where
  apart : state.token.session = session
  cancelled : ∀ (key : NodeKey) (cause : Interruption),
    state.units[key]? = some (.failed cause) → cause ≠ .stalled ∧ state.token.own = true
  blame : session = false → state.token.own = true →
    ∃ key ∈ plan.store.closure root, ¬ plan.store.Fetchable key

/-- No move of a unit touches the session, and blame is kept. -/
theorem Blamed.moved (blamed : state.Blamed plan root session) (sound : state.Sound plan root)
    (moved : Moved plan state key next) : next.Blamed plan root session := by
  have member := sound.mover_mem moved
  have others : ∀ (other : NodeKey) (cause : Interruption), other ≠ key →
      next.units[other]? = some (.failed cause) → state.units[other]? = some (.failed cause) := by
    intro other cause apart failed
    rcases moved.others apart with same | ⟨_, spawned⟩
    · exact same.symm.trans failed
    · rw [spawned] at failed
      cases failed
  rcases moved.fails with ⟨same, sound⟩ | ⟨cause, cancel, failed, reason⟩
  · constructor
    case apart => rw [same, blamed.apart]
    case cancelled =>
      intro other cause failed
      have apart : other ≠ key := by
        intro isKey
        rw [isKey] at failed
        exact sound cause failed
      rw [same]
      exact blamed.cancelled other cause (others other cause apart failed)
    case blame =>
      intro goesOn own
      rw [same] at own
      exact blamed.blame goesOn own
  · have own : next.token.own = true := by rw [cancel]; rfl
    constructor
    case apart => rw [cancel]; exact blamed.apart
    case cancelled =>
      intro other why failure
      refine ⟨?_, own⟩
      by_cases same : other = key
      · rw [same, failed] at failure
        cases failure
        rcases reason with ⟨genuine, _⟩ | ⟨dep, earlier⟩
        · exact genuine
        · exact (blamed.cancelled dep _ earlier).1
      · exact (blamed.cancelled other why (others other why same failure)).1
    case blame =>
      -- A cancellation seen by a unit comes from an earlier failure, as the session goes on.
      intro goesOn _
      rcases reason with ⟨_, isCancelled | unfetched⟩ | ⟨dep, earlier⟩
      · rw [State.cancelled, Token.isSet, blamed.apart, goesOn, Bool.or_false] at isCancelled
        exact blamed.blame goesOn isCancelled
      · exact ⟨key, member, unfetched⟩
      · exact blamed.blame goesOn (blamed.cancelled dep _ earlier).2

/-- In every state that a schedule reaches without a cancellation from outside, blame is kept. -/
theorem blamed_of_reaches {marks : Marks size}
    (reached : Reaches (LeadsInside plan) (start plan root marks session) state) :
    state.Blamed plan root session := by
  induction reached with
  | refl =>
    refine ⟨rfl, ?_, nofun⟩
    intro key cause failed
    have spawned := (units_start failed).2
    cases spawned
  | step reached leads blamed =>
    obtain ⟨key, moved⟩ := leadsInside_moved leads
    exact blamed.moved (sound_of_reaches (reaches_of_inside reached)) moved

/-- When the root is resolved, the schedule has a result exactly if it is walked. -/
theorem outcome_ok_iff (resolved : state.isResolved root = true) (known : root ∈ state.units) :
    (∃ closure, state.outcome root = .ok closure) ↔ state.units[root]? = some .walked := by
  obtain ⟨stage, held⟩ := mem_units_iff.mp known
  rw [isResolved_of_held held] at resolved
  unfold outcome
  rw [held]
  cases stage with
  | walked => exact ⟨fun _ => rfl, fun _ => ⟨_, rfl⟩⟩
  | failed cause => simp
  | _ => cases resolved

/-- When the root is resolved and the schedule has no result, the root has failed for the reason
that the schedule gives. -/
theorem outcome_error (resolved : state.isResolved root = true) (known : root ∈ state.units)
    {cause : Interruption} (returned : state.outcome root = .error cause) :
    state.units[root]? = some (.failed cause) := by
  obtain ⟨stage, held⟩ := mem_units_iff.mp known
  rw [isResolved_of_held held] at resolved
  unfold outcome at returned
  rw [held] at returned ⊢
  cases stage with
  | walked => cases returned
  | failed why =>
    cases returned
    rfl
  | _ => cases resolved

/-- If every node of the closure can be fetched, no unit fails. -/
theorem Blamed.not_failed (blamed : state.Blamed plan root false)
    (fetchable : ∀ key ∈ plan.store.closure root, plan.store.Fetchable key) (key : NodeKey)
    (cause : Interruption) : state.units[key]? ≠ some (.failed cause) := by
  intro failed
  obtain ⟨other, member, unfetched⟩ := blamed.blame rfl (blamed.cancelled key cause failed).2
  exact unfetched (fetchable other member)

/-- When the root is resolved, it is walked exactly if every node of the closure can be fetched. -/
theorem Blamed.walked_iff (blamed : state.Blamed plan root false) (sound : state.Sound plan root)
    (resolved : state.isResolved root = true) :
    state.units[root]? = some .walked ↔
      ∀ key ∈ plan.store.closure root, plan.store.Fetchable key := by
  constructor
  · intro walked key member
    exact sound.fetchable_of_walked (sound.closure_walked walked member)
  · intro fetchable
    obtain ⟨stage, held⟩ := mem_units_iff.mp sound.rooted
    rw [isResolved_of_held held] at resolved
    cases stage with
    | walked => exact held
    | failed cause => exact absurd held (blamed.not_failed fetchable root cause)
    | _ => cases resolved

end State

/-- The token that a run leaves is that of the session it was given. -/
theorem run_session (plan : Plan size) (root : NodeKey) (marks : Marks size) (session : Bool) :
    (run plan root marks session).2.session = session := by
  rcases run_cases plan root marks session with ⟨cause, failed⟩ | ⟨state, reached, ended⟩
  · rw [failed]
    rfl
  · rw [ended]
    exact (State.blamed_of_reaches reached).apart

end Retained.Schedule

namespace Retained.Dumper

variable {size : Nat}

/-- A bill leaves the dumper as it was: no failure cancels its session. -/
theorem bill_dumper (dumper : Dumper size) (key : NodeKey) (policy : Policy)
    (report : ReportOptions) (needle : Option String) :
    (dumper.bill key policy report needle).2 = dumper := by
  cases marked : dumper.builtinsMarks (report.walkOptions needle) with
  | error error => rw [bill_of_error policy marked]
  | ok marks =>
    rw [bill_of_marks policy marked]
    cases policy with
    | isolated => rfl
    | reachable => rfl
    | transitive =>
      have kept := Schedule.run_session (dumper.plan (report.walkOptions needle)) key marks
        dumper.cancelled
      simp only [billTransitive, kept]

/-- A transitive tally that fails is interrupted. -/
theorem collect_transitive_error {dumper : Dumper size} {key : NodeKey} {report : ReportOptions}
    {needle : Option String} {error : DumpError}
    (failed : dumper.collect key .transitive report needle = .error error) :
    ∃ cause, error = .interrupted cause := by
  unfold collect at failed
  cases marked : dumper.builtinsMarks (report.walkOptions needle) with
  | error first =>
    rw [bill_of_error .transitive marked] at failed
    cases failed
    exact builtinsMarks_error marked
  | ok marks =>
    rw [bill_of_marks .transitive marked] at failed
    simp only [billTransitive] at failed
    cases result : (Schedule.run (dumper.plan (report.walkOptions needle)) key marks
        dumper.cancelled).1 with
    | error cause =>
      rw [result] at failed
      cases failed
      exact ⟨cause, rfl⟩
    | ok closure =>
      rw [result] at failed
      cases failed

end Retained.Dumper

namespace Retained.Schedule.State

variable {size : Nat}

/-- **A schedule fails fast and fails alone.** In an acyclic closure, whatever moves when, the root
is resolved in the end. It then has a result exactly if every node of the closure can be fetched;
otherwise it is interrupted, and has cancelled its own token. In no state on the way has the walk of
a node started that needs a node which cannot be fetched, nor is the session cancelled. A dumper is
left as it was by its bills, and a transitive tally that fails is interrupted. -/
theorem fail_fast {plan : Plan size} {root : NodeKey} (acyclic : plan.store.Acyclic root)
    (marks : Marks size) :
    Returns plan root (start plan root marks false) ∧
    (∀ state, Reaches (LeadsInside plan) (start plan root marks false) state →
      (state.isResolved root = true →
        ((∃ closure, state.outcome root = .ok closure) ↔
          ∀ key ∈ plan.store.closure root, plan.store.Fetchable key) ∧
        ∀ cause, state.outcome root = .error cause →
          cause ≠ .stalled ∧ state.token.own = true) ∧
      (∀ key, .walkStarted key ∈ state.events →
        ∀ dep ∈ plan.store.closure key, plan.store.Fetchable dep) ∧
      state.token.session = false) ∧
    ∀ (dumper : Dumper size) (key : NodeKey) (policy : Policy) (report : ReportOptions)
      (needle : Option String),
      (∀ options marks state, Reaches (LeadsInside (dumper.plan options))
          (start (dumper.plan options) key marks dumper.cancelled) state →
        state.token.session = dumper.cancelled) ∧
      (dumper.bill key policy report needle).2 = dumper ∧
        ∀ error, dumper.collect key .transitive report needle = .error error →
          ∃ cause, error = .interrupted cause := by
  refine ⟨returns acyclic .refl, ?_, ?_⟩
  · intro state reached
    have sound := sound_of_reaches (reaches_of_inside reached)
    have logged := logged_of_reaches (reaches_of_inside reached)
    have blamed := blamed_of_reaches reached
    refine ⟨?_, fun key told dep member => logged.closure_fetchable sound told member,
      blamed.apart⟩
    intro resolved
    constructor
    · rw [outcome_ok_iff resolved sound.rooted]
      exact blamed.walked_iff sound resolved
    · intro cause returned
      exact blamed.cancelled root cause (outcome_error resolved sound.rooted returned)
  · intro dumper key policy report needle
    exact ⟨fun options marks state reached => (blamed_of_reaches reached).apart,
      dumper.bill_dumper key policy report needle,
      fun error failed => Dumper.collect_transitive_error failed⟩

/-- The schedule of a diamond whose bottom cannot be fetched resolves its root whatever moves when,
and never has a result. -/
theorem fail_fast_diamond :
    Returns .brokenDiamond (corner "top") (start .brokenDiamond (corner "top") .none false) ∧
      ∀ state, Reaches (LeadsInside .brokenDiamond)
          (start .brokenDiamond (corner "top") .none false) state →
        state.isResolved (corner "top") = true →
          ∀ closure, state.outcome (corner "top") ≠ .ok closure := by
  have rule := fail_fast (Plan.brokenDiamond_acyclic (corner "top")) .none
  refine ⟨rule.1, ?_⟩
  intro state reached resolved closure returned
  have fetchable := ((rule.2.1 state reached).1 resolved).1.mp ⟨closure, returned⟩
  have left : Plan.brokenDiamond.store.DependsOn (corner "top") (corner "left") := by
    unfold Store.DependsOn
    decide +kernel
  have bottom : Plan.brokenDiamond.store.DependsOn (corner "left") (corner "bottom") := by
    unfold Store.DependsOn
    decide +kernel
  have member :=
    Store.dep_mem_closure (Store.dep_mem_closure (Store.self_mem_closure _ _) left) bottom
  obtain ⟨value, deps, fetched, _⟩ := fetchable _ member
  have interrupted : Plan.brokenDiamond.store.value (corner "bottom") =
      .error (.interrupted (corner "bottom")) := by
    decide +kernel
  rw [interrupted] at fetched
  cases fetched

end Retained.Schedule.State
