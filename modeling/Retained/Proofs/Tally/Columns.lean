import Mathlib.Data.UInt
import Retained.Proofs.Tally.Totals

/-!
# Totals and columns

Statistics list the classes of the recorded objects and no others. Every recorded object is of one
listed class (`perm_flatMap_ofClass`), so the counters over all classes are what the counters of the
classes add up to, in words that start again from zero as in unbounded numbers
(`Accountant.stats_accounts`).
-/

namespace Retained

variable {Ref : Type} {measurers : List (Measurer Ref)} {objects : List (HeapObject Ref)}
variable {classNames : List String}

/-- Objects of some classes are the objects of the first class, those of the second, and so on. -/
theorem perm_flatMap_ofClass (distinct : classNames.Nodup)
    (listed : ∀ object ∈ objects, object.className ∈ classNames) :
    objects.Perm (classNames.flatMap fun className => ofClass className objects) := by
  induction classNames generalizing objects with
  | nil =>
    have none : objects = [] := List.eq_nil_iff_forall_not_mem.mpr fun object member =>
      List.not_mem_nil (listed object member)
    rw [none]
    exact List.Perm.refl []
  | cons first others further =>
    obtain ⟨apart, distinctOthers⟩ := List.nodup_cons.mp distinct
    let rest := objects.filter fun object => !(object.className == first)
    have restListed : ∀ object ∈ rest, object.className ∈ others := by
      intro object member
      obtain ⟨among, different⟩ := List.mem_filter.mp member
      refine (List.mem_cons.mp (listed object among)).resolve_left ?_
      simpa using different
    have sameColumns : others.flatMap (fun className => ofClass className rest) =
        others.flatMap fun className => ofClass className objects := by
      refine List.flatMap_congr ?_
      intro className member
      rw [ofClass, ofClass, List.filter_filter]
      refine List.filter_congr ?_
      intro object _
      by_cases same : object.className = className
      · have other : className ≠ first := fun equal => apart (equal ▸ member)
        simp [same, other]
      · simp [same]
    rw [List.flatMap_cons, ← sameColumns]
    exact (List.filter_append_perm _ objects).symm.trans
      ((further distinctOthers restListed).append_left _)

/-- The bytes of the objects of some lists are those of each list together. -/
theorem exactBytes_flatMap (lists : String → List (HeapObject Ref)) :
    exactBytes measurers (classNames.flatMap lists) =
      (classNames.map fun className => exactBytes measurers (lists className)).sum := by
  induction classNames with
  | nil => rfl
  | cons first others further =>
    rw [List.flatMap_cons, List.map_cons, List.sum_cons, ← further]
    simp [exactBytes]

/-- Words of numbers add up to the word of what the numbers add up to. -/
theorem sum_ofNat (weight : String → Nat) :
    (classNames.map fun className => UInt64.ofNat (weight className)).sum =
      .ofNat (classNames.map weight).sum := by
  induction classNames with
  | nil => rfl
  | cons first others further =>
    rw [List.map_cons, List.sum_cons, further, List.map_cons, List.sum_cons, UInt64.ofNat_add]

/-- What statistics say about the objects they account for. -/
structure MemoryStats.Accounts (measurers : List (Measurer Ref)) (objects : List (HeapObject Ref))
    (stats : MemoryStats) : Prop where
  /-- The classes of the objects are counted, and no others. -/
  counted : ∀ className, className ∈ stats.countByClass ↔
    ∃ object ∈ objects, object.className = className
  /-- The same classes are measured. -/
  measured : ∀ className, className ∈ stats.bytesByClass ↔
    ∃ object ∈ objects, object.className = className
  /-- The number of the objects of a class, modulo `2 ^ 64`. -/
  countOf : ∀ className, stats.countOf className = .ofNat (ofClass className objects).length
  /-- The bytes of the objects of a class, modulo `2 ^ 64`. -/
  bytesOf : ∀ className, stats.bytesOf className =
    .ofNat (exactBytes measurers (ofClass className objects))
  /-- The number of all objects, modulo `2 ^ 64`. -/
  objectCount : stats.objectCount = .ofNat objects.length
  /-- The bytes of all objects, modulo `2 ^ 64`. -/
  memoryUse : stats.memoryUse = .ofNat (exactBytes measurers objects)
  /-- The numbers of the classes add up to the number of all objects. -/
  countColumn : (stats.countByClass.toList.map Prod.snd).sum = stats.objectCount
  /-- The bytes of the classes add up to the bytes of all objects. -/
  bytesColumn : (stats.bytesByClass.toList.map Prod.snd).sum = stats.memoryUse

namespace Accountant

/-- An accountant has counters for the classes of the objects that it has recorded, and for no
others. -/
theorem mem_classes_recordAll (measurers : List (Measurer Ref)) (objects : List (HeapObject Ref))
    (className : String) :
    className ∈ ((start measurers).recordAll objects).classes ↔
      ∃ object ∈ objects, object.className = className := by
  induction objects using List.reverseRecOn with
  | nil => simp [recordAll, start]
  | append_singleton objects object further =>
    rw [recordAll_concat]
    simp only [record, Std.ExtTreeMap.mem_alter, Std.LawfulEqCmp.compare_eq_iff_eq, further,
      List.mem_append, List.mem_singleton, or_and_right, exists_or, exists_eq_left,
      Option.isSome_some]
    by_cases same : object.className = className
    · simp [same]
    · simp [same]

/-- The counters that are kept for a class are those of its objects. -/
theorem getElem?_classes_recordAll (measurers : List (Measurer Ref))
    (objects : List (HeapObject Ref)) (className : String) :
    ((start measurers).recordAll objects).classes[className]? =
      if className ∈ ((start measurers).recordAll objects).classes then
        some (.ofObjects measurers (ofClass className objects))
      else none := by
  have counters := classes_recordAll measurers objects className
  split
  · next met =>
    obtain ⟨totals, held⟩ :=
      Option.isSome_iff_exists.mp (Std.ExtTreeMap.mem_iff_isSome_getElem?.mp met)
    rw [held, Option.getD_some] at counters
    rw [held, counters]
  · next unmet => exact Std.ExtTreeMap.getElem?_eq_none unmet

/-- A column of the table of classes has one entry for each class. -/
theorem column_recordAll (measurers : List (Measurer Ref)) (objects : List (HeapObject Ref))
    (column : ClassTotals → UInt64) :
    (((start measurers).recordAll objects).classes.map
        fun _ totals => column totals).toList.map Prod.snd =
      ((start measurers).recordAll objects).classes.keys.map fun className =>
        column (.ofObjects measurers (ofClass className objects)) := by
  rw [Std.ExtTreeMap.toList_map, ← Std.ExtTreeMap.map_fst_toList_eq_keys, List.map_map,
    List.map_map]
  refine List.map_congr_left ?_
  intro entry member
  have held := Std.ExtTreeMap.mem_toList_iff_getElem?_eq_some.mp member
  have counters := classes_recordAll measurers objects entry.1
  rw [held, Option.getD_some] at counters
  simp only [Function.comp, counters]

/-- The statistics of an accountant account for the objects that it has recorded. -/
theorem stats_accounts (measurers : List (Measurer Ref)) (objects : List (HeapObject Ref)) :
    ((start measurers).recordAll objects).stats.Accounts measurers objects := by
  obtain ⟨number, bytes, classes⟩ := stats_recordAll measurers objects
  let met := ((start measurers).recordAll objects).classes.keys
  have columns : objects.Perm (met.flatMap fun className => ofClass className objects) := by
    refine perm_flatMap_ofClass Std.ExtTreeMap.nodup_keys ?_
    intro object member
    rw [Std.ExtTreeMap.mem_keys, mem_classes_recordAll]
    exact ⟨object, member, rfl⟩
  constructor
  case counted =>
    intro className
    rw [stats, Std.ExtTreeMap.mem_map, mem_classes_recordAll]
  case measured =>
    intro className
    rw [stats, Std.ExtTreeMap.mem_map, mem_classes_recordAll]
  case countOf => exact fun className => (classes className).1
  case bytesOf => exact fun className => (classes className).2
  case objectCount => exact number
  case memoryUse => exact bytes
  case countColumn =>
    calc
      _ = (met.map fun className => UInt64.ofNat (ofClass className objects).length).sum :=
        congrArg List.sum (column_recordAll measurers objects ClassTotals.count)
      _ = .ofNat objects.length := by rw [sum_ofNat, ← List.length_flatMap, ← columns.length_eq]
      _ = _ := number.symm
  case bytesColumn =>
    calc
      _ = (met.map fun className =>
        UInt64.ofNat (exactBytes measurers (ofClass className objects))).sum :=
        congrArg List.sum (column_recordAll measurers objects ClassTotals.bytes)
      _ = .ofNat (exactBytes measurers objects) := by
        rw [sum_ofNat, ← exactBytes_flatMap, ← exactBytes_perm columns]
      _ = _ := bytes.symm

end Accountant

end Retained
