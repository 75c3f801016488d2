import Mathlib.Data.List.Chain
import Mathlib.Data.List.Induction
import Mathlib.Data.Set.Card
import Retained.Proofs.Walk.Alone

/-!
# What one walk marks

A walk from a root marks what it can reach without meeting an object that is marked already or that
a rule hides, and nothing else, whatever was marked before (`Walk.traverse_exact`). Such objects are
at the end of a trail of followed fields that is free of marked and of hidden objects, both ends
included (`Walk.path_iff_trail`); an object that every trail reaches through one of those stays as
it is.
-/

namespace Retained

variable {size : Nat}

namespace Walk

variable {walk : Walk size} {marks : Marks size} {origin place : Fin size}

/-- Some objects form a trail from an origin to a place: a followed field leads from each to the
next, marked and hidden objects included. -/
structure Trail (walk : Walk size) (origin place : Fin size) (trail : List (Fin size)) : Prop where
  /-- The trail starts at the origin. -/
  first : trail.head? = some origin
  /-- It ends at the place. -/
  last : trail.getLast? = some place
  /-- A field that the walk follows leads from each object on it to the next. -/
  followed : trail.IsChain walk.Follows

/-- A trail may go one field further. -/
theorem Trail.concat {trail : List (Fin size)} {next : Fin size}
    (isTrail : walk.Trail origin place trail) (followed : walk.Follows place next) :
    walk.Trail origin next (trail ++ [next]) where
  first := by rw [List.head?_append, isTrail.first, Option.some_or]
  last := List.getLast?_concat
  followed := by
    refine List.isChain_append.mpr ⟨isTrail.followed, List.isChain_singleton next, ?_⟩
    intro last isLast head isHead
    rw [isTrail.last, Option.mem_some] at isLast
    rw [List.head?_cons, Option.mem_some] at isHead
    rw [← isLast, ← isHead]
    exact followed

/-- A trail of objects that the walk enters leads along a path. -/
theorem Trail.path {trail : List (Fin size)} (isTrail : walk.Trail origin place trail)
    (entered : ∀ object ∈ trail, walk.Enters marks object) : walk.Path marks origin place := by
  induction trail using List.reverseRecOn generalizing place with
  | nil => cases isTrail.first
  | append_singleton before last shorter =>
    have isLast : last = place := by
      have ends := isTrail.last
      rw [List.getLast?_concat] at ends
      exact Option.some.inj ends
    have entersLast : walk.Enters marks place := by
      rw [← isLast]
      exact entered last (List.mem_append_right _ List.mem_cons_self)
    cases ends : before.getLast? with
    | none =>
      have start := isTrail.first
      rw [List.getLast?_eq_none_iff.mp ends, List.nil_append, List.head?_cons, Option.some.injEq,
        isLast] at start
      rw [← start]
      exact .here entersLast
    | some previous =>
      obtain ⟨chain, _, linked⟩ := List.isChain_append.mp isTrail.followed
      have start : before.head? = some origin := by
        have whole := isTrail.first
        obtain ⟨others, rfl⟩ := List.getLast?_eq_some_iff.mp ends
        cases others <;> exact whole
      have earlier : walk.Path marks origin previous :=
        shorter ⟨start, ends, chain⟩ fun object member =>
          entered object (List.mem_append_left _ member)
      refine .along earlier ?_ entersLast
      rw [← isLast]
      exact linked previous ends last (by simp)

/-- A path is a trail of objects that the walk enters. -/
theorem path_iff_trail : walk.Path marks origin place ↔
    ∃ trail, walk.Trail origin place trail ∧ ∀ object ∈ trail, walk.Enters marks object := by
  constructor
  · intro path
    induction path with
    | here entered =>
      exact ⟨[origin], ⟨rfl, rfl, List.isChain_singleton origin⟩, by simpa using entered⟩
    | @along previous next _ followed entered earlier =>
      obtain ⟨trail, isTrail, enteredBefore⟩ := earlier
      refine ⟨trail ++ [next], isTrail.concat followed, ?_⟩
      intro object member
      rcases List.mem_append.mp member with before | last
      · exact enteredBefore object before
      · rw [List.mem_singleton.mp last]
        exact entered
  · intro exists_trail
    obtain ⟨trail, isTrail, entered⟩ := exists_trail
    exact isTrail.path entered

/-- No path leads to a place if each trail to it meets a marked or a hidden object. -/
theorem not_path_of_cut (cut : ∀ trail, walk.Trail origin place trail →
    ∃ object ∈ trail, walk.Settled marks object) : ¬ walk.Path marks origin place := by
  intro path
  obtain ⟨trail, isTrail, entered⟩ := path_iff_trail.mp path
  obtain ⟨object, member, settled⟩ := cut trail isTrail
  exact (entered object member).not_settled settled

/-- The number of objects at the end of a path is that of a list of them without repetition. -/
theorem ncard_path {claimed : List (Fin size)} (distinct : claimed.Nodup)
    (reach : ∀ place, place ∈ claimed ↔ walk.Path marks origin place) :
    {place | walk.Path marks origin place}.ncard = claimed.length := by
  have same : {place | walk.Path marks origin place} = (claimed.toFinset : Set (Fin size)) := by
    ext place
    simp only [List.coe_toFinset, Set.mem_ofPred_eq, reach]
  rw [same, Set.ncard_coe_finset, List.toFinset_card_of_nodup distinct]

/-- **One walk marks exactly what it reaches along unmarked objects.** A walk that is never
cancelled completes, over any heap and any marks and with any rules, needle and choice of fields.
The marks afterwards are those before and the places at the end of a path, that is of a trail along
objects that are neither marked before nor hidden. What is reported besides the earlier reports are,
each once, the objects of those places whose class contains the needle, or nothing if the walk does
not report. The summary counts both. A hidden object is never marked, nor is one that each trail
reaches through a marked or a hidden object. -/
theorem traverse_exact (walk : Walk size) (root : Fin size) (scene : Scene size) :
    ∃ summary after received, walk.traverse .never root scene = (some summary, after) ∧
      (∀ place, after.marks.contains place = true ↔
        scene.marks.contains place = true ∨ walk.Path scene.marks root place) ∧
      after.reported.toList = scene.reported.toList ++ received ∧ received.Nodup ∧
      (∀ place, place ∈ received ↔ walk.reports = true ∧ walk.Path scene.marks root place ∧
        ∀ needle, walk.options.needle = some needle →
          needle.toList <:+: (walk.heap.object place).className.toList) ∧
      summary.visited = {place | walk.Path scene.marks root place}.ncard ∧
      summary.reported = received.length ∧
      (∀ place, walk.Hides place →
        after.marks.contains place = scene.marks.contains place) ∧
      ∀ place, scene.marks.contains place = false →
        (∀ trail, walk.Trail root place trail →
          ∃ object ∈ trail, walk.Settled scene.marks object) →
          after.marks.contains place = false := by
  obtain ⟨claimed, summary, after, walked, traversed⟩ := walk.traverse_traversed root scene
  have marks : ∀ place, after.marks.contains place = true ↔
      scene.marks.contains place = true ∨ walk.Path scene.marks root place := by
    intro place
    rw [traversed.marks, traversed.reach]
  have unreached : ∀ place, ¬ walk.Path scene.marks root place →
      after.marks.contains place = scene.marks.contains place := by
    intro place none
    rw [Bool.eq_iff_iff, marks, or_iff_left none]
  refine ⟨summary, after, claimed.filter walk.wants, walked, marks, traversed.reported,
    traversed.distinct.filter _, ?_, ?_, traversed.counted, ?_, ?_⟩
  · intro place
    rw [List.mem_filter, traversed.reach, wants, Bool.and_eq_true, WalkOptions.isWanted_iff,
      and_left_comm]
    rfl
  · rw [traversed.visited, ncard_path traversed.distinct traversed.reach]
  · intro place hidden
    apply unreached
    intro path
    exact path.enters_end.1 hidden
  · intro place unmarked cut
    rw [unreached place (not_path_of_cut cut), unmarked]

end Walk

end Retained
