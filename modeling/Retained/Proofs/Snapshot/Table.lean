import Mathlib.Data.List.Induction
import Mathlib.Data.List.Nodup
import Std.Data.ExtTreeMap

/-!
# Tables of items

A table tabulates some items if it holds exactly their values, each under the key of its item.
Distinct keys are what lets a table of items be made by inserting one after another.
-/

namespace Retained.Snapshot

variable {Key Value Item : Type} [Ord Key] [Std.TransOrd Key]
variable {keyOf : Item → Key} {valueOf : Item → Value} {items : List Item} {item : Item}
variable {table : Std.ExtTreeMap Key Value compare} {key : Key}

/-- A table holds the values of some items under their keys, and nothing else. -/
def Tabulates (keyOf : Item → Key) (valueOf : Item → Value) (items : List Item)
    (table : Std.ExtTreeMap Key Value compare) : Prop :=
  ∀ key value, table[key]? = some value ↔ ∃ item ∈ items, keyOf item = key ∧ valueOf item = value

/-- The empty table is that of no items. -/
theorem tabulates_nil : Tabulates keyOf valueOf [] (∅ : Std.ExtTreeMap Key Value compare) := by
  intro key value
  simp

namespace Tabulates

/-- The keys of a table are those of its items. -/
theorem mem_iff (tabulates : Tabulates keyOf valueOf items table) :
    key ∈ table ↔ key ∈ items.map keyOf := by
  rw [Std.ExtTreeMap.mem_iff_isSome_getElem?, Option.isSome_iff_exists, List.mem_map]
  constructor
  · intro found
    obtain ⟨value, held⟩ := found
    obtain ⟨item, member, same, _⟩ := (tabulates key value).mp held
    exact ⟨item, member, same⟩
  · intro found
    obtain ⟨item, member, same⟩ := found
    exact ⟨valueOf item, (tabulates key (valueOf item)).mpr ⟨item, member, same, rfl⟩⟩

/-- The table of one more item, whose key is new. -/
theorem insert [Std.LawfulEqOrd Key] (tabulates : Tabulates keyOf valueOf items table)
    (fresh : keyOf item ∉ items.map keyOf) :
    Tabulates keyOf valueOf (items ++ [item]) (table.insert (keyOf item) (valueOf item)) := by
  intro key value
  rw [Std.ExtTreeMap.getElem?_insert]
  by_cases same : keyOf item = key
  · rw [if_pos (Std.compare_eq_iff_eq.mpr same)]
    constructor
    · intro held
      cases held
      exact ⟨item, List.mem_append_right _ List.mem_cons_self, same, rfl⟩
    · intro found
      obtain ⟨other, member, sameKey, sameValue⟩ := found
      rcases List.mem_append.mp member with old | new
      · exact absurd (List.mem_map.mpr ⟨other, old, sameKey.trans same.symm⟩) fresh
      · rw [List.mem_singleton.mp new] at sameValue
        rw [sameValue]
  · rw [if_neg fun equal => same (Std.compare_eq_iff_eq.mp equal), tabulates]
    constructor
    · intro found
      obtain ⟨other, member, rest⟩ := found
      exact ⟨other, List.mem_append_left _ member, rest⟩
    · intro found
      obtain ⟨other, member, sameKey, sameValue⟩ := found
      rcases List.mem_append.mp member with old | new
      · exact ⟨other, old, sameKey, sameValue⟩
      · rw [List.mem_singleton.mp new] at sameKey
        exact absurd sameKey same

end Tabulates

/-- Items with distinct keys are tabulated by inserting one after another. -/
theorem tabulates_foldl [Std.LawfulEqOrd Key] (distinct : (items.map keyOf).Nodup) :
    Tabulates keyOf valueOf items (items.foldl
      (fun table item => table.insert (keyOf item) (valueOf item))
      (∅ : Std.ExtTreeMap Key Value compare)) := by
  induction items using List.reverseRecOn with
  | nil => exact tabulates_nil
  | append_singleton items item further =>
    rw [List.map_append, List.map_singleton, ← List.concat_eq_append, List.nodup_concat] at distinct
    rw [List.foldl_append]
    exact (further distinct.2).insert distinct.1

end Retained.Snapshot
