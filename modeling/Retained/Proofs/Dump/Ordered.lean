import Mathlib.Data.Fintype.Card
import Retained.Proofs.Dump.Builtins
import Retained.Proofs.Tally.Totals

/-!
# Totals in the order of the policies

What an isolated dump bills for a node is billed by a reachable dump of it, and what that bills by a
transitive one. So the number of objects and the exact bytes are ordered, in all and for each class
(`Dumper.totals_ordered`). The bytes that are reported are those sums modulo `2 ^ 64`: they are
ordered where the larger sum fits into a word, and where it does not, a larger bill may report fewer
bytes than a smaller one (`Dumper.caching`).
-/

namespace Retained.Dumper

open Schedule

variable {size : Nat} {dumper : Dumper size} {key : NodeKey} {report : ReportOptions}
variable {needle : Option String} {smaller larger : Billing size}

/-- The objects of a bill. -/
def billed (dumper : Dumper size) (billing : Billing size) : List (HeapObject (Fin size)) :=
  billing.objects.toList.map dumper.heap.object

/-- The reported totals of two bills are ordered as far as the exact ones fit into words. -/
structure Ordered (dumper : Dumper size) (smaller larger : Billing size) : Prop where
  /-- The numbers of objects are ordered. -/
  objectCount : (dumper.tally smaller).stats.objectCount ≤ (dumper.tally larger).stats.objectCount
  /-- The numbers of objects of each class are ordered. -/
  countOf : ∀ className, (dumper.tally smaller).stats.countOf className ≤
    (dumper.tally larger).stats.countOf className
  /-- The exact bytes are ordered. -/
  bytes : exactBytes dumper.measurers (dumper.billed smaller) ≤
    exactBytes dumper.measurers (dumper.billed larger)
  /-- The exact bytes of each class are ordered. -/
  classBytes : ∀ className,
    exactBytes dumper.measurers (ofClass className (dumper.billed smaller)) ≤
      exactBytes dumper.measurers (ofClass className (dumper.billed larger))
  /-- The reported bytes are ordered if the exact bytes of the larger bill fit into a word. -/
  memoryUse : exactBytes dumper.measurers (dumper.billed larger) < UInt64.size →
    (dumper.tally smaller).stats.memoryUse ≤ (dumper.tally larger).stats.memoryUse
  /-- The reported bytes of a class are ordered if the exact ones of the larger bill fit into a
  word. -/
  bytesOf : ∀ className,
    exactBytes dumper.measurers (ofClass className (dumper.billed larger)) < UInt64.size →
      (dumper.tally smaller).stats.bytesOf className ≤ (dumper.tally larger).stats.bytesOf className

/-- What is reported of a bill is the number and the bytes of its objects modulo `2 ^ 64`. -/
theorem stats_tally (dumper : Dumper size) (billing : Billing size) :
    let stats := (dumper.tally billing).stats
    stats.objectCount = .ofNat (dumper.billed billing).length ∧
      stats.memoryUse = .ofNat (exactBytes dumper.measurers (dumper.billed billing)) ∧
      ∀ className,
        stats.countOf className = .ofNat (ofClass className (dumper.billed billing)).length ∧
          stats.bytesOf className =
            .ofNat (exactBytes dumper.measurers (ofClass className (dumper.billed billing))) :=
  Accountant.stats_recordAll dumper.measurers (dumper.billed billing)

/-- A bill without repetitions lists no more objects than there are. -/
theorem billed_length_le (distinct : larger.objects.toList.Nodup) :
    (dumper.billed larger).length ≤ size := by
  rw [billed, List.length_map]
  exact distinct.length_le_card.trans (Fintype.card_fin size).le

/-- The objects of a bill are those at its places, in any order. -/
theorem billed_perm (dumper : Dumper size) {billing : Billing size} {places : List (Fin size)}
    (distinct : billing.objects.toList.Nodup) (distinctPlaces : places.Nodup)
    (same : ∀ place, place ∈ billing.objects.toList ↔ place ∈ places) :
    (dumper.billed billing).Perm (places.map dumper.heap.object) :=
  ((List.perm_ext_iff_of_nodup distinct distinctPlaces).mpr same).map _

/-- The totals of a bill that is part of another are ordered. -/
theorem ordered_of_subset (bounded : size < UInt64.size) (distinct : smaller.objects.toList.Nodup)
    (distinctLarger : larger.objects.toList.Nodup)
    (part : ∀ place ∈ smaller.objects.toList, place ∈ larger.objects.toList) :
    dumper.Ordered smaller larger := by
  have among : (dumper.billed smaller).Subperm (dumper.billed larger) := by
    obtain ⟨same, perm, sublist⟩ := List.subperm_of_subset distinct part
    exact ⟨same.map dumper.heap.object, perm.map _, sublist.map _⟩
  have number : (dumper.billed larger).length < UInt64.size :=
    (billed_length_le distinctLarger).trans_lt bounded
  obtain ⟨objectCount, memoryUse, classes⟩ := dumper.stats_tally smaller
  obtain ⟨objectCountLarger, memoryUseLarger, classesLarger⟩ := dumper.stats_tally larger
  constructor
  case objectCount =>
    rw [objectCount, objectCountLarger]
    exact ofNat_le_ofNat among.length_le number
  case countOf =>
    intro className
    have ofThese : (ofClass className (dumper.billed larger)).length ≤
        (dumper.billed larger).length := List.length_filter_le _ _
    rw [(classes className).1, (classesLarger className).1]
    exact ofNat_le_ofNat (ofClass_subperm among className).length_le (ofThese.trans_lt number)
  case bytes => exact exactBytes_le among
  case classBytes => exact fun className => exactBytes_le (ofClass_subperm among className)
  case memoryUse =>
    intro fits
    rw [memoryUse, memoryUseLarger]
    exact ofNat_le_ofNat (exactBytes_le among) fits
  case bytesOf =>
    intro className fits
    rw [(classes className).2, (classesLarger className).2]
    exact ofNat_le_ofNat (exactBytes_le (ofClass_subperm among className)) fits

/-! ## Policies -/

/-- What the isolated policy asks to bill the reachable policy does. -/
theorem IsDue.reachable {place : Fin size} (due : dumper.IsDue key report place .isolated) :
    dumper.IsDue key report place .reachable := by
  obtain ⟨value, deps, fetched, reached, _⟩ := due
  exact ⟨value, fetched.1, reached⟩

/-- What the reachable policy asks to bill the transitive policy does. -/
theorem IsDue.transitive {place : Fin size} (due : dumper.IsDue key report place .reachable) :
    dumper.IsDue key report place .transitive := by
  obtain ⟨value, fetched, reached⟩ := due
  exact ⟨key, Store.self_mem_closure _ _, value, fetched, reached⟩

/-- The totals of exact bills are ordered if what is due for one is due for the other. -/
theorem ordered_of_due {lower upper : Policy} (bounded : size < UInt64.size)
    (smallerExact : dumper.IsExact key report needle lower smaller)
    (largerExact : dumper.IsExact key report needle upper larger)
    (due : ∀ place, dumper.IsDue key report place lower → dumper.IsDue key report place upper) :
    dumper.Ordered smaller larger := by
  refine ordered_of_subset bounded smallerExact.1 largerExact.1 ?_
  intro place member
  obtain ⟨dueLower, wanted, outside⟩ := (smallerExact.2 place).mp member
  exact (largerExact.2 place).mpr ⟨due place dueLower, wanted, outside⟩

/-- If the closure of a node is acyclic and can be fetched, the node is tallied under every
policy. -/
theorem exists_tally (live : dumper.cancelled = false) (acyclic : dumper.source.store.Acyclic key)
    (fetchable : ∀ node ∈ dumper.source.store.closure key, dumper.source.store.Fetchable node)
    (fits : max (dumper.config.parallelWalks dumper.processors) 1 ≤ permitLimit) (policy : Policy)
    (report : ReportOptions) (needle : Option String) :
    ∃ billing, dumper.collect key policy report needle = .ok (dumper.tally billing) ∧
      dumper.Concludes key (report.walkOptions needle) policy (.ok billing) := by
  have concludes : dumper.Concludes key (report.walkOptions needle) policy
      (dumper.bill key policy report needle).1 := bill_concludes acyclic
  rcases concludes.cases_of_fetchable live fetchable with ⟨billing, billed⟩ | ⟨_, large, _⟩
  · rw [billed] at concludes
    exact ⟨billing, collect_of_bill billed, concludes⟩
  · exact absurd fits (Nat.not_le.mpr large)

/-- **Totals are ordered by policy as far as sums fit.** If the closure of a node is acyclic and can
be fetched, a dumper that is not cancelled and can make its pool tallies the node under every
policy, and what it reports are the number and the exact bytes of the billed objects modulo
`2 ^ 64`, in all and for each class. From the isolated bill to the reachable one, and from that to
the transitive one of any schedule, the numbers of objects grow, in all and for each class, and so
do the exact bytes. The reported bytes grow where the exact bytes of the larger bill fit into a
word; the numbers of objects always fit, as no heap has more objects than there are addresses. -/
theorem totals_ordered (live : dumper.cancelled = false) (acyclic : dumper.source.store.Acyclic key)
    (fetchable : ∀ node ∈ dumper.source.store.closure key, dumper.source.store.Fetchable node)
    (fits : max (dumper.config.parallelWalks dumper.processors) 1 ≤ permitLimit)
    (bounded : size < UInt64.size) (report : ReportOptions) (needle : Option String) :
    (∀ policy, ∃ billing,
      dumper.collect key policy report needle = .ok (dumper.tally billing) ∧
        dumper.Concludes key (report.walkOptions needle) policy (.ok billing)) ∧
    (∀ billing, let stats := (dumper.tally billing).stats
      stats.objectCount = .ofNat (dumper.billed billing).length ∧
        stats.memoryUse = .ofNat (exactBytes dumper.measurers (dumper.billed billing)) ∧
        ∀ className,
          stats.countOf className = .ofNat (ofClass className (dumper.billed billing)).length ∧
            stats.bytesOf className =
              .ofNat (exactBytes dumper.measurers (ofClass className (dumper.billed billing)))) ∧
    ∀ isolated reachable transitive,
      dumper.Concludes key (report.walkOptions needle) .isolated (.ok isolated) →
      dumper.Concludes key (report.walkOptions needle) .reachable (.ok reachable) →
      dumper.Concludes key (report.walkOptions needle) .transitive (.ok transitive) →
        dumper.Ordered isolated reachable ∧ dumper.Ordered reachable transitive := by
  refine ⟨fun policy => exists_tally live acyclic fetchable fits policy report needle,
    dumper.stats_tally, ?_⟩
  intro isolated reachable transitive isolatedBilled reachableBilled transitiveBilled
  constructor
  · exact ordered_of_due bounded isolatedBilled.exact reachableBilled.exact
      fun _ due => due.reachable
  · exact ordered_of_due bounded reachableBilled.exact transitiveBilled.exact
      fun _ due => due.transitive

/-! ## Sums that do not fit -/

/-- A block, a cache of it, and an object that fills a word and has the block. -/
def cachingObjects : Vector (HeapObject (Fin 3)) 3 := #v[
  { className := "Block", category := .plain, shape := .instance 8, fields := [] },
  { className := "Cache", category := .plain, shape := .instance 8
    fields := [{ name := "cached", target := Plan.shared, transient := true }] },
  { className := "Block", category := .plain, shape := .instance Word.largest
    fields := [{ name := "shared", target := Plan.shared, transient := false }] }]

/-- Both fields refer to the block, which comes first. -/
theorem cachingObjects_earlier :
    ∀ place : Fin 3, ∀ field ∈ cachingObjects[place].fields, field.target < place := by
  decide

/-- A node whose value fills a word, but for a block that the value of a dependency caches. -/
def caching : Dumper 3 where
  heap := { objects := cachingObjects, earlier := cachingObjects_earlier }
  source :=
    let nodes : Store (Fin 3) := (Store.empty.addNode (corner "part") (Fin.last 1).castSucc).addNode
      (corner "whole") (Fin.last 2)
    .ofStore (nodes.addDep (corner "whole") (corner "part"))
  builtins := none
  config := .standard
  measurers := Measurer.standard
  cancelled := false

/-- Nothing is amiss with the store of the caching node. -/
theorem caching_whole : caching.source.store.Whole := by
  have ranked : ∀ root, caching.source.store.Acyclic root := by
    apply Store.acyclic_of_ranked fun key => if key = corner "part" then 0 else 1
    decide +kernel
  constructor
  case free => rfl
  case closed =>
    intro key dep depends
    have listed : caching.source.store.listed = [corner "part"] := by decide +kernel
    have member := Store.mem_listed depends
    rw [listed, List.mem_singleton] at member
    rw [member]
    decide +kernel
  case acyclic => exact fun key => ranked key key (Store.self_mem_closure _ key)

/-- The caching node is tallied under every policy. -/
theorem caching_tallied (policy : Policy) (report : ReportOptions) :
    ∃ billing, caching.collect (corner "whole") policy report none = .ok (caching.tally billing) ∧
      caching.Concludes (corner "whole") (report.walkOptions none) policy (.ok billing) := by
  have held : caching.source.store.contains (corner "whole") = true := by decide +kernel
  exact exists_tally rfl (caching_whole.acyclic_closure _)
    (caching_whole.closure_fetchable held) Config.standard_fits policy report none

/-- Every report shows all of the objects. -/
theorem caching_shown (report : ReportOptions) (place : Fin 3) :
    report.Shows (caching.heap.object place) := by
  apply ReportOptions.Shows.of_plain
  revert place
  decide

/-- Every field leads to the block, and the one of the cache does so only if the report follows
cache fields. -/
theorem caching_led (report : ReportOptions) (place next : Fin 3) :
    (∃ field ∈ (caching.heap.object place).fields, report.Follows field ∧ field.target = next) ↔
      next = 0 ∧ (place = 2 ∨ place = 1 ∧ report.transient = true) := by
  have target : (0 : Fin 3) = next ↔ next = 0 := eq_comm
  match place with
  | 0 | 1 | 2 =>
    simp [ReportOptions.Follows, caching, cachingObjects, Plan.shared, Heap.object, target,
      and_comm]

/-- The value of the node reaches itself and the block. -/
theorem caching_own (report : ReportOptions) (place : Fin 3) :
    caching.Reaches report 2 place ↔ place ≠ 1 := by
  have here : caching.Reaches report 2 2 := .here (caching_shown report 2)
  constructor
  · intro reached
    induction reached with
    | here => decide
    | along _ led =>
      rw [((caching_led report _ _).mp led).1]
      decide
  · intro apart
    match place with
    | 0 =>
      exact .along here ((caching_led report 2 0).mpr ⟨rfl, Or.inl rfl⟩) (caching_shown report 0)
    | 1 => contradiction
    | 2 => exact here

/-- The value of the dependency reaches itself, and the block if the report follows cache fields. -/
theorem caching_dependency (report : ReportOptions) (place : Fin 3) :
    caching.Reaches report 1 place ↔ place = 1 ∨ place = 0 ∧ report.transient = true := by
  have here : caching.Reaches report 1 1 := .here (caching_shown report 1)
  constructor
  · intro reached
    induction reached with
    | here => exact Or.inl rfl
    | along _ led _ earlier =>
      obtain ⟨isBlock, isOwn | isCache⟩ := (caching_led report _ _).mp led
      · rw [isOwn] at earlier
        have impossible : ¬ ((2 : Fin 3) = 1 ∨ (2 : Fin 3) = 0 ∧ report.transient = true) := by simp
        contradiction
      · exact Or.inr ⟨isBlock, isCache.2⟩
  · intro either
    rcases either with isCache | ⟨isBlock, isFollowed⟩
    · rw [isCache]
      exact here
    · rw [isBlock]
      exact .along here ((caching_led report 1 0).mpr ⟨rfl, Or.inr ⟨rfl, isFollowed⟩⟩)
        (caching_shown report 0)

/-- Nothing is left out as a builtin. -/
theorem caching_unbuilt (report : ReportOptions) (place : Fin 3) :
    ¬ caching.IsBuiltin report place := by
  intro builtin
  obtain ⟨_, root, found, _⟩ := builtin
  cases found

/-- The node has its value, and depends on the part. -/
theorem caching_fetched : caching.source.store.Fetches (corner "whole") 2 [corner "part"] := by
  unfold Store.Fetches
  decide +kernel

/-- An isolated bill has the value of the node, and the block unless the report follows cache
fields. -/
theorem caching_isolated {billing : Billing 3}
    (exactly : caching.IsExact (corner "whole") report none .isolated billing)
    (place : Fin 3) : place ∈ billing.objects.toList ↔
      place = 2 ∨ place = 0 ∧ report.transient = false := by
  have part : caching.source.store.value (corner "part") = .ok (some 1) := by decide +kernel
  have due : caching.IsDue (corner "whole") report place .isolated ↔
      place ≠ 1 ∧ ¬ (place = 1 ∨ place = 0 ∧ report.transient = true) := by
    rw [← caching_own report place, ← caching_dependency report place]
    constructor
    · intro isDue
      obtain ⟨value, deps, fetched, reached, apart⟩ := isDue
      have sameValue := caching_fetched.value_eq fetched.1
      have sameDeps := caching_fetched.deps_eq fetched.2
      rw [sameValue] at reached
      rw [sameDeps] at apart
      exact ⟨reached, apart (corner "part") List.mem_cons_self 1 part⟩
    · intro own
      refine ⟨2, [corner "part"], caching_fetched, own.1, ?_⟩
      intro dep member other held
      rw [List.mem_singleton.mp member, part] at held
      cases held
      exact own.2
  have wanted : (caching.heap.object place).Matches none := nofun
  rw [exactly.2, due, and_iff_left ⟨wanted, caching_unbuilt report place⟩]
  match place with
  | 0 | 1 | 2 => simp

/-- A reachable bill has the value of the node and the block. -/
theorem caching_reachable {billing : Billing 3}
    (exactly : caching.IsExact (corner "whole") report none .reachable billing)
    (place : Fin 3) : place ∈ billing.objects.toList ↔ place ≠ 1 := by
  have due : caching.IsDue (corner "whole") report place .reachable ↔ place ≠ 1 := by
    rw [← caching_own report place]
    constructor
    · intro isDue
      obtain ⟨value, fetched, reached⟩ := isDue
      rw [caching_fetched.value_eq fetched] at reached
      exact reached
    · intro own
      exact ⟨2, caching_fetched.1, own⟩
  have wanted : (caching.heap.object place).Matches none := nofun
  rw [exactly.2, due, and_iff_left ⟨wanted, caching_unbuilt report place⟩]

/-- **A larger bill reports fewer bytes.** The isolated bill of the caching node has one object,
whose bytes fill a word; the reachable bill has the block besides, and reports seven bytes. -/
theorem totals_wrap :
    ∃ isolated reachable,
      caching.collect (corner "whole") .isolated .all none = .ok isolated ∧
      caching.collect (corner "whole") .reachable .all none = .ok reachable ∧
      isolated.stats.memoryUse = Word.largest ∧ reachable.stats.memoryUse = 7 := by
  obtain ⟨isolated, isolatedTally, isolatedBilled⟩ := caching_tallied .isolated .all
  obtain ⟨reachable, reachableTally, reachableBilled⟩ := caching_tallied .reachable .all
  have one : ∀ place, place ∈ isolated.objects.toList ↔ place ∈ [2] := by
    intro place
    rw [caching_isolated isolatedBilled.exact]
    simp [ReportOptions.all]
  have two : ∀ place, place ∈ reachable.objects.toList ↔ place ∈ [0, 2] := by
    intro place
    rw [caching_reachable reachableBilled.exact]
    revert place
    decide
  refine ⟨_, _, isolatedTally, reachableTally, ?_, ?_⟩
  · rw [(caching.stats_tally isolated).2.1,
      exactBytes_perm (caching.billed_perm isolatedBilled.exact.1 (by decide) one)]
    decide +kernel
  · rw [(caching.stats_tally reachable).2.1,
      exactBytes_perm (caching.billed_perm reachableBilled.exact.1 (by decide) two)]
    decide +kernel

/-- The totals of the caching node are ordered in exact numbers. -/
theorem totals_ordered_caching :
    ∃ isolated reachable transitive,
      caching.Concludes (corner "whole") (ReportOptions.all.walkOptions none) .isolated
        (.ok isolated) ∧
      caching.Concludes (corner "whole") (ReportOptions.all.walkOptions none) .reachable
        (.ok reachable) ∧
      caching.Concludes (corner "whole") (ReportOptions.all.walkOptions none) .transitive
        (.ok transitive) ∧
      caching.Ordered isolated reachable ∧ caching.Ordered reachable transitive := by
  have acyclic := caching_whole.acyclic_closure (corner "whole")
  have held : caching.source.store.contains (corner "whole") = true := by decide +kernel
  have fetchable := caching_whole.closure_fetchable held
  obtain ⟨tallied, _, ordered⟩ :=
    totals_ordered rfl acyclic fetchable Config.standard_fits (by decide) ReportOptions.all none
  obtain ⟨isolated, _, isolatedBilled⟩ := tallied .isolated
  obtain ⟨reachable, _, reachableBilled⟩ := tallied .reachable
  obtain ⟨transitive, _, transitiveBilled⟩ := tallied .transitive
  exact ⟨isolated, reachable, transitive, isolatedBilled, reachableBilled, transitiveBilled,
    ordered isolated reachable transitive isolatedBilled reachableBilled transitiveBilled⟩

end Retained.Dumper
