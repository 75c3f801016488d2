import Retained.Proofs.Walk.Step

/-!
# A walk alone

A walk that has the scene to itself and is not cancelled ends, whatever was marked before. It claims
exactly the places that paths from its root reach along unmarked objects, each once, and reports the
wanted ones of them in the order in which it claimed them (`Walk.traverse_traversed`).
-/

namespace Retained

variable {size : Nat}

namespace Walk

/-- What a complete walk has done to the scene: it has claimed these objects, in this order. -/
structure Traversed (walk : Walk size) (root : Fin size) (before : Scene size)
    (claimed : List (Fin size)) (summary : WalkSummary) (after : Scene size) : Prop where
  /-- No object is claimed twice. -/
  distinct : claimed.Nodup
  /-- The claimed objects are those that paths reach along objects unmarked before. -/
  reach : ∀ place, place ∈ claimed ↔ walk.Path before.marks root place
  /-- They are marked, and nothing else is. -/
  marks : ∀ place, after.marks.contains place = true ↔
    before.marks.contains place = true ∨ place ∈ claimed
  /-- The wanted ones of them are reported. -/
  reported : after.reported.toList = before.reported.toList ++ claimed.filter walk.wants
  /-- The summary counts the claimed objects. -/
  visited : summary.visited = claimed.length
  /-- The summary counts the reported objects. -/
  counted : summary.reported = (claimed.filter walk.wants).length

end Walk

namespace Walker

variable {walk : Walk size}

/-- How far a walk is that has claimed these objects since it started alone on a scene. -/
structure Underway (walk : Walk size) (root : Fin size) (before : Scene size)
    (claimed : List (Fin size)) (walker : Walker size) (scene : Scene size) : Prop where
  /-- The marks cover the root as far as the walk has come. -/
  covers : walk.Covers before.marks scene.marks (fun place => place = root)
    fun place => place ∈ walker.pending walk ∨ False
  /-- No object is claimed twice. -/
  distinct : claimed.Nodup
  /-- What is newly marked has been claimed. -/
  fresh : ∀ place, place ∈ claimed ↔
    scene.marks.contains place = true ∧ before.marks.contains place = false
  /-- All that was claimed has been seen, apart from an object about to be reported. -/
  seen : ∃ seen, claimed = seen ++ walker.unreported ∧
    scene.reported.toList = before.reported.toList ++ seen.filter walk.wants ∧
    walker.summary.reported = (seen.filter walk.wants).length
  /-- The summary counts what was claimed. -/
  visited : walker.summary.visited = claimed.length

/-- A walk that starts has claimed nothing and has its root pending. -/
theorem underway_start (walk : Walk size) (root : Fin size) (scene : Scene size) :
    Underway walk root scene [] (.start root) scene where
  covers := (Walk.Covers.start walk scene.marks).addRoot root (fun _ => by simp)
    (fun _ => by simp [pending, start])
  distinct := List.nodup_nil
  fresh place := by
    simp only [List.not_mem_nil, false_iff, not_and]
    intro marked unmarked
    rw [marked] at unmarked
    contradiction
  seen := ⟨[], rfl, by simp, rfl⟩
  visited := rfl

/-- A step takes a walk under way further. -/
theorem Underway.step {root : Fin size} {before scene after : Scene size}
    {claimed more : List (Fin size)} {walker next : Walker size} {cancelled : Bool}
    (underway : Underway walk root before claimed walker scene)
    (stepped : Stepped walk cancelled scene walker more (.running next) after) :
    Underway walk root before (claimed ++ more) next after := by
  obtain ⟨seen, conserved, reported, visited, counted⟩ := stepped.accounts
  obtain ⟨earlier, split, reportedBefore, countedBefore⟩ := underway.seen
  have unmarkedBefore : ∀ place ∈ more, before.marks.contains place = false := by
    intro place isMore
    exact Walk.outside_of_fewer underway.covers.kept (stepped.unmarked_of_claimed isMore)
  constructor
  case covers => exact stepped.covers underway.covers
  case distinct =>
    refine List.nodup_append.mpr ⟨underway.distinct, stepped.claimed_nodup, ?_⟩
    intro place isClaimed other isMore same
    have marked := ((underway.fresh place).mp isClaimed).1
    rw [same, stepped.unmarked_of_claimed isMore] at marked
    contradiction
  case fresh =>
    intro place
    rw [List.mem_append, stepped.contains_iff, underway.fresh, or_and_right]
    apply or_congr_right
    constructor
    · intro isMore
      exact ⟨isMore, unmarkedBefore place isMore⟩
    · exact And.left
  case seen =>
    refine ⟨earlier ++ seen, ?_, ?_, ?_⟩
    · rw [split, List.append_assoc, conserved, List.append_assoc]
    · rw [reported, reportedBefore, List.filter_append, List.append_assoc]
    · rw [counted, countedBefore, List.filter_append, List.length_append]
  case visited => rw [visited, underway.visited, List.length_append]

/-- A walk under way that completes has done what a whole walk does. -/
theorem Underway.finish {root : Fin size} {before scene after : Scene size}
    {claimed more : List (Fin size)} {walker : Walker size} {summary : WalkSummary}
    {cancelled : Bool} (underway : Underway walk root before claimed walker scene)
    (stepped : Stepped walk cancelled scene walker more (.finished summary) after) :
    walk.Traversed root before claimed summary after := by
  obtain ⟨noPending, noUnreported, same, _, rfl⟩ := stepped.finished
  obtain ⟨seen, split, reported, counted⟩ := underway.seen
  rw [noUnreported, List.append_nil] at split
  subst split
  have marks := underway.covers.exact (by simp [noPending])
  constructor
  case distinct => exact underway.distinct
  case reach =>
    intro place
    rw [underway.fresh, marks]
    constructor
    · intro claimed
      obtain ⟨known_or_reached, unmarked⟩ := claimed
      rcases known_or_reached with known | ⟨origin, same, path⟩
      · rw [known] at unmarked
        contradiction
      · rw [same] at path
        exact path
    · intro path
      exact ⟨Or.inr ⟨root, rfl, path⟩, path.enters_end.2⟩
  case marks =>
    intro place
    rw [underway.fresh]
    constructor
    · intro marked
      cases known : before.marks.contains place with
      | true => exact Or.inl rfl
      | false => exact Or.inr ⟨marked, rfl⟩
    · intro known_or_claimed
      rcases known_or_claimed with known | claimed
      · exact underway.covers.kept place known
      · exact claimed.1
  case reported => exact reported
  case visited => rw [← same, underway.visited]
  case counted => rw [← same, counted]

end Walker

namespace Walk

/-- A walk under way that is never cancelled completes. -/
theorem run_traversed (walk : Walk size) (root : Fin size) (before : Scene size) (steps : Nat)
    (walker : Walker size) (scene : Scene size) (claimed : List (Fin size))
    (underway : Walker.Underway walk root before claimed walker scene) :
    ∃ all summary after, walk.run .never steps walker scene = (some summary, after) ∧
      walk.Traversed root before all summary after := by
  induction steps, walker, scene using Walk.run.induct walk .never generalizing claimed with
  | case1 steps walker scene next after stepped continues =>
    have rule := Walker.stepped_of_step stepped
    obtain ⟨all, summary, last, ran, traversed⟩ := continues _ (underway.step rule)
    refine ⟨all, summary, last, ?_, traversed⟩
    rw [Walk.run, stepped]
    exact ran
  | case2 steps walker scene summary after stepped =>
    have rule := Walker.stepped_of_step stepped
    refine ⟨claimed, summary, after, ?_, underway.finish rule⟩
    rw [Walk.run, stepped]
  | case3 steps walker scene after stepped =>
    have rule := Walker.stepped_of_step stepped
    have cancelled := rule.interrupted.1
    simp [Cancellation.isSet] at cancelled

/-- A whole walk that is never cancelled completes and claims what it can reach. -/
theorem traverse_traversed (walk : Walk size) (root : Fin size) (scene : Scene size) :
    ∃ claimed summary after, walk.traverse .never root scene = (some summary, after) ∧
      walk.Traversed root scene claimed summary after :=
  walk.run_traversed root scene 0 (.start root) scene [] (Walker.underway_start walk root scene)

end Walk

end Retained
