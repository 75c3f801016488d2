import Retained.Walk.Walker

/-!
# Paths that walks can take

A walk enters an object unless a rule hides it or it is marked, and goes on along the fields that
the object holds, cache fields only on request. What a walk can reach are the places at the end of
paths of such fields along objects that it enters. `Walk.Covers` says how far a set of marks has
grown towards everything that can be reached from some roots: every new mark is at the end of a
path, and every successor of a new mark is settled or still pending. When nothing is pending any
more, the new marks are exactly the places that paths reach (`Covers.exact`).
-/

namespace Retained

variable {size : Nat}

/-- The class of an object contains a text, if one is asked for. -/
def HeapObject.Matches {Ref : Type} (object : HeapObject Ref) (needle : Option String) : Prop :=
  ∀ text, needle = some text → text.toList <:+: object.className.toList

/-- An object is wanted exactly if its class contains the needle, should there be one. -/
theorem WalkOptions.isWanted_iff {Ref : Type} {options : WalkOptions Ref}
    {object : HeapObject Ref} : options.isWanted object = true ↔ object.Matches options.needle := by
  unfold isWanted HeapObject.Matches
  cases options.needle with
  | none => simp
  | some needle =>
    simp only [Text.occursIn_iff, Option.some.injEq, forall_eq', List.IsInfix, @eq_comm _ (_ ++ _)]

namespace Walk

variable {walk : Walk size}

/-- Some rule keeps a walk out of the object at a place. -/
def Hides (walk : Walk size) (place : Fin size) : Prop :=
  ∃ rule ∈ walk.options.rules, rule.skips (walk.heap.object place) = true

/-- The object at a place holds a field that leads a walk to another place. A cache field does so
only if the walk is to follow those. -/
def Follows (walk : Walk size) (place next : Fin size) : Prop :=
  ∃ field ∈ (walk.heap.object place).fields,
    (walk.options.followTransient = true ∨ field.transient = false) ∧ field.target = next

/-- What a walk skips is what its rules hide. -/
theorem skips_iff {place : Fin size} : walk.skips place = true ↔ walk.Hides place :=
  List.any_eq_true

/-- The successors of a place are where the fields lead that the walk follows. -/
theorem mem_successors_iff {place next : Fin size} :
    next ∈ walk.successors place ↔ walk.Follows place next := by
  simp only [successors, WalkOptions.successors, List.mem_map, List.mem_filter, WalkOptions.follows,
    Bool.or_eq_true, Bool.not_eq_true', Follows, and_assoc]

/-- A walk over some marks enters an object: no rule hides it and it is not marked. -/
def Enters (walk : Walk size) (marks : Marks size) (place : Fin size) : Prop :=
  ¬ walk.Hides place ∧ marks.contains place = false

/-- A walk over some marks does not enter an object. -/
def Settled (walk : Walk size) (marks : Marks size) (place : Fin size) : Prop :=
  walk.Hides place ∨ marks.contains place = true

/-- What is not settled is entered. -/
theorem not_settled_iff {marks : Marks size} {place : Fin size} :
    ¬ walk.Settled marks place ↔ walk.Enters marks place := by
  rw [Settled, not_or, Bool.not_eq_true, Enters]

/-- The test of a walk for objects that it passes by. -/
theorem settled_iff {marks : Marks size} {place : Fin size} :
    walk.Settled marks place ↔ (walk.skips place || marks.contains place) = true := by
  rw [Bool.or_eq_true, skips_iff, Settled]

/-- The same test for objects that it enters. -/
theorem enters_iff {marks : Marks size} {place : Fin size} :
    walk.Enters marks place ↔ (walk.skips place || marks.contains place) = false := by
  rw [← not_settled_iff, settled_iff, Bool.not_eq_true]

/-- No place is both entered and settled. -/
theorem Enters.not_settled {marks : Marks size} {place : Fin size}
    (enters : walk.Enters marks place) : ¬ walk.Settled marks place :=
  not_settled_iff.mpr enters

/-- What is outside some marks is outside fewer of them. -/
theorem outside_of_fewer {marks fewer : Marks size} {place : Fin size}
    (kept : ∀ place, fewer.contains place = true → marks.contains place = true)
    (outside : marks.contains place = false) : fewer.contains place = false := by
  apply Bool.eq_false_iff.mpr
  intro known
  have still := kept place known
  rw [outside] at still
  contradiction

/-- What is entered over some marks is entered over fewer of them. -/
theorem Enters.of_fewer {marks fewer : Marks size} {place : Fin size}
    (kept : ∀ place, fewer.contains place = true → marks.contains place = true)
    (enters : walk.Enters marks place) : walk.Enters fewer place :=
  ⟨enters.1, outside_of_fewer kept enters.2⟩

/-- Followed fields lead from an origin to a place along objects that the walk enters, the origin
and the place among them. -/
inductive Path (walk : Walk size) (marks : Marks size) (origin : Fin size) : Fin size → Prop where
  /-- The path that stays at the origin. -/
  | here (enters : walk.Enters marks origin) : Path walk marks origin origin
  /-- One field further. -/
  | along {place next : Fin size} (path : Path walk marks origin place)
      (followed : walk.Follows place next) (enters : walk.Enters marks next) :
      Path walk marks origin next

namespace Path

variable {marks : Marks size} {origin place : Fin size}

/-- The end of a path is entered. -/
theorem enters_end (path : walk.Path marks origin place) : walk.Enters marks place := by
  cases path with
  | here enters => exact enters
  | along _ _ enters => exact enters

/-- Over fewer marks there are no fewer paths. -/
theorem of_fewer {fewer : Marks size}
    (kept : ∀ place, fewer.contains place = true → marks.contains place = true)
    (path : walk.Path marks origin place) : walk.Path fewer origin place := by
  induction path with
  | here entered => exact .here (entered.of_fewer kept)
  | along _ followed entered earlier => exact .along earlier followed (entered.of_fewer kept)

/-- Along marks that keep the successors of their places, a path that ends outside them has never
been inside them. -/
theorem of_closed {fewer : Marks size}
    (closed : ∀ place next, marks.contains place = true → walk.Follows place next →
      walk.Settled marks next)
    (path : walk.Path fewer origin place) (outside : marks.contains place = false) :
    walk.Path marks origin place := by
  induction path with
  | here entered => exact .here ⟨entered.1, outside⟩
  | @along previous next _ followed entered earlier =>
    have enters : walk.Enters marks next := ⟨entered.1, outside⟩
    have previousOutside : marks.contains previous = false := by
      apply Bool.eq_false_iff.mpr
      intro inside
      exact enters.not_settled (closed previous next inside followed)
    exact .along (earlier previousOutside) followed enters

end Path

/-! ## Growing marks -/

/-- Marks that have grown from the first ones by walks from some roots, with some places still to be
looked at. -/
structure Covers (walk : Walk size) (first marks : Marks size) (roots pending : Fin size → Prop) :
    Prop where
  /-- No mark is lost. -/
  kept : ∀ place, first.contains place = true → marks.contains place = true
  /-- A new mark is at the end of a path from a root. -/
  reached : ∀ place, marks.contains place = true → first.contains place = false →
    ∃ root, roots root ∧ walk.Path first root place
  /-- A pending place that could be entered at first is at the end of a path from a root. -/
  sourced : ∀ place, pending place → walk.Enters first place →
    ∃ root, roots root ∧ walk.Path first root place
  /-- A successor of a new mark is settled unless it is pending. -/
  closed : ∀ place next, marks.contains place = true → first.contains place = false →
    walk.Follows place next → walk.Settled marks next ∨ pending next
  /-- A root is settled unless it is pending. -/
  begun : ∀ root, roots root → walk.Settled marks root ∨ pending root

namespace Covers

variable {first marks : Marks size} {roots pending : Fin size → Prop}

/-- Marks without walks cover no roots. -/
theorem start (walk : Walk size) (first : Marks size) :
    walk.Covers first first (fun _ => False) (fun _ => False) where
  kept _ marked := marked
  reached place marked unmarked := by
    rw [marked] at unmarked
    contradiction
  sourced _ absurdity := absurdity.elim
  closed place _ marked unmarked := by
    rw [marked] at unmarked
    contradiction
  begun _ absurdity := absurdity.elim

/-- Roots and pending places may be described in other words. -/
theorem congr (covers : walk.Covers first marks roots pending) {others left : Fin size → Prop}
    (sameRoots : ∀ place, others place ↔ roots place)
    (samePending : ∀ place, left place ↔ pending place) :
    walk.Covers first marks others left := by
  have equalRoots : others = roots := funext fun place => propext (sameRoots place)
  have equalPending : left = pending := funext fun place => propext (samePending place)
  rw [equalRoots, equalPending]
  exact covers

/-- When nothing is pending, the new marks are exactly the ends of paths from the roots. -/
theorem exact (covers : walk.Covers first marks roots pending) (done : ∀ place, ¬ pending place)
    (place : Fin size) :
    marks.contains place = true ↔
      first.contains place = true ∨ ∃ root, roots root ∧ walk.Path first root place := by
  constructor
  · intro marked
    cases known : first.contains place with
    | true => exact Or.inl rfl
    | false => exact Or.inr (covers.reached place marked known)
  · intro known_or_reached
    rcases known_or_reached with known | ⟨root, isRoot, path⟩
    · exact covers.kept place known
    · have marked_of_settled : ∀ place, walk.Enters first place → walk.Settled marks place →
          marks.contains place = true := by
        intro place entered settled
        exact settled.resolve_left entered.1
      -- Along the path: what is marked newly has settled successors, as nothing is pending any
      -- more.
      induction path with
      | here entered =>
        have settled := (covers.begun root isRoot).resolve_right (done root)
        exact marked_of_settled root entered settled
      | @along previous next path followed entered marked =>
        have fresh : first.contains previous = false := path.enters_end.2
        have settled :=
          (covers.closed previous next marked fresh followed).resolve_right (done next)
        exact marked_of_settled next entered settled

/-- What paths from the roots reach is marked, or it is at the end of a path over the present marks
from a pending place. -/
theorem marked_or_ahead (covers : walk.Covers first marks roots pending) {root place : Fin size}
    (isRoot : roots root) (path : walk.Path first root place) :
    marks.contains place = true ∨ ∃ origin, pending origin ∧ walk.Path marks origin place := by
  have ahead : ∀ next, walk.Enters first next → walk.Settled marks next ∨ pending next →
      marks.contains next = true ∨ ∃ origin, pending origin ∧ walk.Path marks origin next := by
    intro next entered settled_or_pending
    cases known : marks.contains next with
    | true => exact Or.inl rfl
    | false =>
      have enters : walk.Enters marks next := ⟨entered.1, known⟩
      have waiting := settled_or_pending.resolve_left enters.not_settled
      exact Or.inr ⟨next, waiting, .here enters⟩
  induction path with
  | here entered => exact ahead root entered (covers.begun root isRoot)
  | @along previous next path followed entered earlier =>
    rcases earlier with marked | ⟨origin, waiting, further⟩
    · have fresh : first.contains previous = false := path.enters_end.2
      exact ahead next entered (covers.closed previous next marked fresh followed)
    · cases known : marks.contains next with
      | true => exact Or.inl rfl
      | false => exact Or.inr ⟨origin, waiting, .along further followed ⟨entered.1, known⟩⟩

/-- One more root may be looked at later. -/
theorem addRoot (covers : walk.Covers first marks roots pending) (root : Fin size)
    {more left : Fin size → Prop} (grown : ∀ place, more place ↔ roots place ∨ place = root)
    (waiting : ∀ place, left place ↔ pending place ∨ place = root) :
    walk.Covers first marks more left where
  kept := covers.kept
  reached place marked unmarked := by
    obtain ⟨origin, isRoot, path⟩ := covers.reached place marked unmarked
    exact ⟨origin, (grown origin).mpr (Or.inl isRoot), path⟩
  sourced place isLeft entered := by
    rcases (waiting place).mp isLeft with isPending | same
    · obtain ⟨origin, isRoot, path⟩ := covers.sourced place isPending entered
      exact ⟨origin, (grown origin).mpr (Or.inl isRoot), path⟩
    · refine ⟨root, (grown root).mpr (Or.inr rfl), ?_⟩
      rw [same] at entered ⊢
      exact .here entered
  closed place next marked unmarked followed :=
    (covers.closed place next marked unmarked followed).imp_right
      fun isPending => (waiting next).mpr (Or.inl isPending)
  begun origin isMore := by
    rcases (grown origin).mp isMore with isRoot | same
    · exact (covers.begun origin isRoot).imp_right
        fun isPending => (waiting origin).mpr (Or.inl isPending)
    · exact Or.inr ((waiting origin).mpr (Or.inr same))

/-- Settled places need not stay pending. -/
theorem settle (covers : walk.Covers first marks roots pending) {left : Fin size → Prop}
    (fewer : ∀ place, left place → pending place)
    (settled : ∀ place, pending place → walk.Settled marks place ∨ left place) :
    walk.Covers first marks roots left where
  kept := covers.kept
  reached := covers.reached
  sourced place isLeft := covers.sourced place (fewer place isLeft)
  closed place next marked unmarked followed :=
    (covers.closed place next marked unmarked followed).elim Or.inl (settled next)
  begun root isRoot := (covers.begun root isRoot).elim Or.inl (settled root)

/-- Marking a pending place makes its successors pending. -/
theorem mark (covers : walk.Covers first marks roots pending) {left : Fin size → Prop}
    {place : Fin size} (entered : walk.Enters marks place) (isPending : pending place)
    (fewer : ∀ other, left other → pending other ∨ walk.Follows place other)
    (others : ∀ other, pending other → other = place ∨ left other)
    (followed : ∀ next, walk.Follows place next → left next) :
    walk.Covers first (marks.mark place) roots left := by
  have enteredFirst : walk.Enters first place := entered.of_fewer covers.kept
  obtain ⟨origin, isRoot, path⟩ := covers.sourced place isPending enteredFirst
  have grown : ∀ other, (marks.mark place).contains other = true ↔
      place = other ∨ marks.contains other = true := by
    intro other
    rw [Marks.contains_mark, Bool.or_eq_true, decide_eq_true_eq]
  have still : ∀ other, walk.Settled marks other ∨ pending other →
      walk.Settled (marks.mark place) other ∨ left other := by
    intro other settled_or_waiting
    rcases settled_or_waiting with (hidden | marked) | waiting
    · exact Or.inl (Or.inl hidden)
    · exact Or.inl (Or.inr ((grown other).mpr (Or.inr marked)))
    · rcases others other waiting with same | isLeft
      · exact Or.inl (Or.inr ((grown other).mpr (Or.inl same.symm)))
      · exact Or.inr isLeft
  constructor
  case kept =>
    intro other known
    exact (grown other).mpr (Or.inr (covers.kept other known))
  case reached =>
    intro other marked unmarked
    rcases (grown other).mp marked with same | before
    · exact ⟨origin, isRoot, same ▸ path⟩
    · exact covers.reached other before unmarked
  case sourced =>
    intro other isLeft enters
    rcases fewer other isLeft with waiting | next
    · exact covers.sourced other waiting enters
    · exact ⟨origin, isRoot, .along path next enters⟩
  case closed =>
    intro other next marked unmarked goes
    rcases (grown other).mp marked with same | before
    · rw [← same] at goes
      exact Or.inr (followed next goes)
    · exact still next (covers.closed other next before unmarked goes)
  case begun =>
    intro root isRoot
    exact still root (covers.begun root isRoot)

end Covers

end Walk

end Retained
