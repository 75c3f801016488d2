import Retained.Proofs.Dump.Ordered

/-!
# Reports that show less

A report that shows less lets every walk of a dump reach less: the walk that bills, and also the
walks that only mark what is not to be billed. A reachable or transitive bill has no walk of the
second kind but that of the builtins, so a restricted report adds nothing to it, builtins apart. An
isolated bill leaves out what the values of the direct dependencies reach under the report; a
restricted report adds to it what those values reach under the full report only
(`Dumper.restricted_adds_nothing`). A cache field of a dependency is enough for that
(`Dumper.restricted_isolated_adds`).
-/

namespace Retained

variable {size : Nat}

/-- A report shows no more than another. -/
structure ReportOptions.Within (restricted full : ReportOptions) : Prop where
  /-- It follows cache fields only if the other does. -/
  transient : restricted.transient = true → full.transient = true
  /-- It shows configurations only if the other does. -/
  configuration : restricted.configuration = true → full.configuration = true
  /-- It shows values computed ahead only if the other does. -/
  precomputed : restricted.precomputed = true → full.precomputed = true
  /-- It shows the status of the workspace only if the other does. -/
  workspaceStatus : restricted.workspaceStatus = true → full.workspaceStatus = true

namespace ReportOptions.Within

variable {Ref : Type} {restricted full : ReportOptions}

/-- What a restricted report shows, the full report shows. -/
theorem shows (within : restricted.Within full) {object : HeapObject Ref}
    (shown : restricted.Shows object) : full.Shows object where
  configuration same := within.configuration (shown.configuration same)
  precomputed same := within.precomputed (shown.precomputed same)
  workspaceStatus same := within.workspaceStatus (shown.workspaceStatus same)

/-- The fields that a restricted report follows, the full report follows. -/
theorem follows (within : restricted.Within full) {field : Field Ref}
    (followed : restricted.Follows field) : full.Follows field :=
  followed.imp_left within.transient

end ReportOptions.Within

/-- What is reached is reached if no less is shown and followed. -/
theorem Heap.Reaches.widen {heap : Heap size} {shown more : HeapObject (Fin size) → Prop}
    {followed further : Field (Fin size) → Prop} {origin place : Fin size}
    (reached : heap.Reaches shown followed origin place)
    (shows : ∀ object, shown object → more object)
    (follows : ∀ field, followed field → further field) :
    heap.Reaches more further origin place := by
  induction reached with
  | here isShown => exact .here (shows _ isShown)
  | along _ led isShown earlier =>
    obtain ⟨field, held, isFollowed, target⟩ := led
    exact .along earlier ⟨field, held, follows field isFollowed, target⟩ (shows _ isShown)

namespace Dumper

open Schedule

variable {dumper : Dumper size} {key : NodeKey} {policy : Policy} {needle : Option String}
variable {restricted full : ReportOptions} {before after : Billing size} {place : Fin size}

/-- What a value reaches under a restricted report it reaches under the full one. -/
theorem Reaches.widen (within : restricted.Within full) {value : Fin size}
    (reached : dumper.Reaches restricted value place) : dumper.Reaches full value place :=
  Heap.Reaches.widen reached (fun _ => within.shows) fun _ => within.follows

/-- The value of a direct dependency reaches an object. -/
def IsShared (dumper : Dumper size) (key : NodeKey) (report : ReportOptions) (place : Fin size) :
    Prop :=
  ∃ deps, dumper.source.store.deps key = .ok deps ∧ ∃ dep ∈ deps, ∃ other,
    dumper.source.store.value dep = .ok (some other) ∧ dumper.Reaches report other place

/-- What is due under a restricted report is due under the full one, unless the policy is to leave
out what dependencies share and the value of one reaches it under the full report. -/
theorem IsDue.widen_iff (within : restricted.Within full)
    (due : dumper.IsDue key restricted place policy) :
    dumper.IsDue key full place policy ↔
      (policy = .isolated → ¬ dumper.IsShared key full place) := by
  -- Only the isolated policy leaves out what other values reach, and they reach more as well.
  cases policy with
  | isolated =>
    obtain ⟨value, deps, fetched, reached, _⟩ := due
    constructor
    · intro isDue _ shared
      obtain ⟨_, others, otherFetched, _, apart⟩ := isDue
      obtain ⟨listed, found, dep, member, other, held, path⟩ := shared
      rw [otherFetched.deps_eq found] at member
      exact apart dep member other held path
    · intro unshared
      refine ⟨value, deps, fetched, reached.widen within, ?_⟩
      intro dep member other held path
      exact unshared rfl ⟨deps, fetched.2, dep, member, other, held, path⟩
  | reachable =>
    obtain ⟨value, fetched, reached⟩ := due
    exact iff_of_true ⟨value, fetched, reached.widen within⟩ nofun
  | transitive =>
    obtain ⟨node, member, value, fetched, reached⟩ := due
    exact iff_of_true ⟨node, member, value, fetched, reached.widen within⟩ nofun

/-- A report leaves out the builtins of each report whose objects it shows. -/
theorem IsBuiltin.widen {report other : ReportOptions}
    (shows : ∀ object : HeapObject (Fin size), report.Shows object → other.Shows object)
    (builtin : dumper.IsBuiltin report place) : dumper.IsBuiltin other place := by
  obtain ⟨excludes, root, found, reached⟩ := builtin
  exact ⟨excludes, root, found, reached.widen shows fun _ => id⟩

/-- **A restricted report adds nothing but what dependencies no longer share.** Take two bills of a
node under the same policy, for a report and for one that shows no more. An object of the restricted
bill that the full report does not leave out as a builtin is on the full bill, unless the policy is
the isolated one and the value of a direct dependency reaches the object under the full report. So
if there are no such objects on the restricted bill, it counts no more of any class than the full
one, the objects of a heap being no more than there are addresses; in particular, under the
reachable and the transitive policy, if builtins are kept or both reports hide the same
categories. -/
theorem restricted_adds_nothing (within : restricted.Within full)
    (beforeBilled : dumper.Concludes key (full.walkOptions needle) policy (.ok before))
    (afterBilled : dumper.Concludes key (restricted.walkOptions needle) policy (.ok after)) :
    (∀ place ∈ after.objects.toList, ¬ dumper.IsBuiltin full place →
      (place ∈ before.objects.toList ↔
        (policy = .isolated → ¬ dumper.IsShared key full place))) ∧
    (size < UInt64.size →
      (∀ place ∈ after.objects.toList, ¬ dumper.IsBuiltin full place ∧
        (policy = .isolated → ¬ dumper.IsShared key full place)) →
      ∀ className, (dumper.tally after).stats.countOf className ≤
        (dumper.tally before).stats.countOf className) ∧
    ((dumper.config.excludeBuiltins = false ∨ dumper.builtins = none ∨
        restricted.configuration = full.configuration ∧ restricted.precomputed = full.precomputed ∧
          restricted.workspaceStatus = full.workspaceStatus) →
      ∀ place ∈ after.objects.toList, ¬ dumper.IsBuiltin full place) := by
  obtain ⟨beforeDistinct, beforeExact⟩ := beforeBilled.exact
  obtain ⟨afterDistinct, afterExact⟩ := afterBilled.exact
  have billed : ∀ place ∈ after.objects.toList, ¬ dumper.IsBuiltin full place →
      (place ∈ before.objects.toList ↔
        (policy = .isolated → ¬ dumper.IsShared key full place)) := by
    intro place member outside
    obtain ⟨due, matching, _⟩ := (afterExact place).mp member
    rw [beforeExact, and_iff_left ⟨matching, outside⟩]
    exact due.widen_iff within
  refine ⟨billed, ?_, ?_⟩
  · intro bounded part
    have subset : ∀ place ∈ after.objects.toList, place ∈ before.objects.toList := by
      intro place member
      have kept := part place member
      exact (billed place member kept.1).mpr kept.2
    exact (ordered_of_subset bounded afterDistinct beforeDistinct subset).countOf
  · intro sameBuiltins place member builtin
    have outside := ((afterExact place).mp member).2.2
    rcases sameBuiltins with kept | absent | ⟨configuration, precomputed, workspaceStatus⟩
    · rw [builtin.1] at kept
      cases kept
    · obtain ⟨_, root, found, _⟩ := builtin
      rw [absent] at found
      cases found
    · have shows :
          ∀ object : HeapObject (Fin size), full.Shows object → restricted.Shows object := by
        intro object shown
        constructor
        · exact fun same => configuration.trans (shown.configuration same)
        · exact fun same => precomputed.trans (shown.precomputed same)
        · exact fun same => workspaceStatus.trans (shown.workspaceStatus same)
      exact outside (builtin.widen shows)

/-- A report that shows everything but follows no cache fields. -/
def withoutTransient : ReportOptions :=
  { ReportOptions.all with transient := false }

/-- A report without cache fields shows no more than one with them. -/
theorem withoutTransient_within : withoutTransient.Within .all where
  transient := nofun
  configuration := id
  precomputed := id
  workspaceStatus := id

/-- **A restricted report adds to an isolated bill.** The block is on the isolated bill of the
caching node if cache fields are not followed, and not if they are, so the class has one object
more. -/
theorem restricted_isolated_adds :
    withoutTransient.Within .all ∧ ∃ before after,
      caching.collect (corner "whole") .isolated .all none = .ok (caching.tally before) ∧
      caching.collect (corner "whole") .isolated withoutTransient none = .ok (caching.tally after) ∧
      0 ∈ after.objects.toList ∧ 0 ∉ before.objects.toList ∧
      (caching.tally before).stats.countOf "Block" = 1 ∧
      (caching.tally after).stats.countOf "Block" = 2 := by
  obtain ⟨before, beforeTally, beforeBilled⟩ := caching_tallied .isolated .all
  obtain ⟨after, afterTally, afterBilled⟩ := caching_tallied .isolated withoutTransient
  have one : ∀ place, place ∈ before.objects.toList ↔ place ∈ [2] := by
    intro place
    rw [caching_isolated beforeBilled.exact]
    simp [ReportOptions.all]
  have two : ∀ place, place ∈ after.objects.toList ↔ place ∈ [2, 0] := by
    intro place
    rw [caching_isolated afterBilled.exact]
    simp [withoutTransient]
  have beforePerm := caching.billed_perm beforeBilled.exact.1 (by decide) one
  have afterPerm := caching.billed_perm afterBilled.exact.1 (by decide) two
  refine ⟨withoutTransient_within, before, after, beforeTally, afterTally, ?_, ?_, ?_, ?_⟩
  · rw [two]
    decide
  · rw [one]
    decide
  · rw [((caching.stats_tally before).2.2 "Block").1, ofClass, (beforePerm.filter _).length_eq]
    decide +kernel
  · rw [((caching.stats_tally after).2.2 "Block").1, ofClass, (afterPerm.filter _).length_eq]
    decide +kernel

/-- Without cache fields the reachable bill of the caching node counts no more of any class. -/
theorem restricted_adds_nothing_caching :
    ∃ before after,
      caching.Concludes (corner "whole") (ReportOptions.all.walkOptions none) .reachable
        (.ok before) ∧
      caching.Concludes (corner "whole") (withoutTransient.walkOptions none) .reachable
          (.ok after) ∧
      ∀ className, (caching.tally after).stats.countOf className ≤
        (caching.tally before).stats.countOf className := by
  obtain ⟨before, _, beforeBilled⟩ := caching_tallied .reachable .all
  obtain ⟨after, _, afterBilled⟩ := caching_tallied .reachable withoutTransient
  obtain ⟨_, counts, outside⟩ :=
    restricted_adds_nothing withoutTransient_within beforeBilled afterBilled
  refine ⟨before, after, beforeBilled, afterBilled, counts (by decide) ?_⟩
  intro place member
  exact ⟨outside (Or.inr (Or.inl rfl)) place member, nofun⟩

end Dumper

end Retained
