import Mathlib.Algebra.Order.Floor.Div
import Mathlib.GroupTheory.GroupAction.Ring
import Mathlib.Order.Bounds.Basic
import Retained.Tally.Accountant

/-!
# What sizes come to

The size of an object is computed in words, and each operation on the way is clamped. Still the size
is the one that unbounded numbers give, cut off once: a block at the largest multiple of its
alignment that fits into a word (`toNat_align`, `toNat_arrayBytes`), and a hash table at the largest
word (`Shape.toNat_ownedBytes`). As cutting off keeps the order, so does measuring: an object of
which no parameter is larger than another's has no larger size (`Shape.AtMost.ownedBytes_le`).
-/

namespace Retained

variable {Ref : Type}

/-! ## Blocks -/

/-- The block of some bytes is the least aligned one for them, unless that does not fit into a
word. -/
theorem toNat_align (bytes : UInt64) :
    (align bytes).toNat = min (8 * (bytes.toNat ⌈/⌉ 8)) (2 ^ 64 - 8) := by
  have bound := bytes.toNat_lt
  have alignment : blockAlignment.toNat = 8 := by decide
  have slack : (blockAlignment - 1).toNat = 7 := by decide
  have top : UInt64.size - 1 = 2 ^ 64 - 1 := by decide
  rw [align, UInt64.toNat_mul, UInt64.toNat_div, Word.toNat_addClamped, alignment, slack, top,
    Nat.ceilDiv_eq_add_pred_div]
  omega

/-- Up to the largest aligned number that fits into a word, a block has the least aligned number of
bytes that is not below the bytes in it. -/
theorem align_isLeast {bytes : UInt64} (fits : bytes.toNat ≤ 2 ^ 64 - 8) :
    IsLeast {size | 8 ∣ size ∧ bytes.toNat ≤ size} (align bytes).toNat := by
  have unclamped : (align bytes).toNat = 8 * ((bytes.toNat + 7) / 8) := by
    rw [toNat_align, Nat.ceilDiv_eq_add_pred_div]
    omega
  rw [unclamped]
  constructor
  · exact ⟨Nat.dvd_mul_right 8 _, by omega⟩
  · intro size candidate
    obtain ⟨⟨blocks, rfl⟩, enough⟩ := candidate
    omega

/-- Beyond that number a block has that number of bytes. -/
theorem align_of_lt {bytes : UInt64} (exceeds : 2 ^ 64 - 8 < bytes.toNat) :
    (align bytes).toNat = 2 ^ 64 - 8 := by
  rw [toNat_align, Nat.ceilDiv_eq_add_pred_div]
  omega

/-- An array has the block of its header and its elements, computed without bounds and cut off
once. -/
theorem toNat_arrayBytes (elementBytes length : UInt64) :
    (arrayBytes elementBytes length).toNat =
      min (8 * ((16 + elementBytes.toNat * length.toNat) ⌈/⌉ 8)) (2 ^ 64 - 8) := by
  have header : arrayHeaderBytes.toNat = 16 := by decide
  have top : UInt64.size - 1 = 2 ^ 64 - 1 := by decide
  rw [arrayBytes, toNat_align, Word.toNat_addClamped, Word.toNat_mulClamped, header, top,
    Nat.ceilDiv_eq_add_pred_div, Nat.ceilDiv_eq_add_pred_div]
  omega

/-- The table of references is that of no capacity, or an array. -/
theorem Shape.toNat_tableBytes (capacity : UInt64) :
    (Shape.tableBytes capacity).toNat =
      if capacity = 0 then 0 else (arrayBytes 4 capacity).toNat := by
  unfold Shape.tableBytes referenceBytes
  split <;> rfl

/-- A hash table has its header, its table and its entries, added up without bounds and cut off
once. -/
theorem Shape.toNat_ownedBytes (headerBytes : UInt32) (capacity entries : UInt64)
    (entryBytes : UInt32) :
    (Shape.collection headerBytes capacity entries entryBytes).ownedBytes.toNat =
      min (headerBytes.toNat + (if capacity = 0 then 0 else (arrayBytes 4 capacity).toNat) +
        entries.toNat * entryBytes.toNat) (2 ^ 64 - 1) := by
  have top : UInt64.size - 1 = 2 ^ 64 - 1 := by decide
  rw [Shape.ownedBytes, Word.toNat_addClamped, Word.toNat_addClamped, Word.toNat_mulClamped,
    Shape.toNat_tableBytes, UInt32.toNat_toUInt64, UInt32.toNat_toUInt64, top]
  omega

/-! ## Order -/

/-- A larger array of larger elements has no fewer bytes. -/
theorem arrayBytes_mono {elementBytes largerBytes length longer : UInt64}
    (elements : elementBytes ≤ largerBytes) (lengths : length ≤ longer) :
    arrayBytes elementBytes length ≤ arrayBytes largerBytes longer := by
  have payload : elementBytes.toNat * length.toNat ≤ largerBytes.toNat * longer.toNat :=
    Nat.mul_le_mul (UInt64.le_iff_toNat_le.mp elements) (UInt64.le_iff_toNat_le.mp lengths)
  rw [UInt64.le_iff_toNat_le, toNat_arrayBytes, toNat_arrayBytes, Nat.ceilDiv_eq_add_pred_div,
    Nat.ceilDiv_eq_add_pred_div]
  omega

/-- A table of a larger capacity has no fewer bytes, the missing table of no capacity included. -/
theorem Shape.tableBytes_mono {capacity larger : UInt64} (ordered : capacity ≤ larger) :
    Shape.tableBytes capacity ≤ Shape.tableBytes larger := by
  by_cases empty : capacity = 0
  · rw [Shape.tableBytes, if_pos empty]
    exact UInt64.zero_le
  · have filled : larger ≠ 0 := by
      intro none
      rw [none, UInt64.le_zero_iff] at ordered
      exact empty ordered
    rw [Shape.tableBytes, Shape.tableBytes, if_neg empty, if_neg filled]
    exact arrayBytes_mono UInt64.le_rfl ordered

namespace Shape

/-- A shape is of the same kind as another, and none of its parameters is larger. -/
inductive AtMost : Shape → Shape → Prop where
  /-- Of objects of a fixed size, by their size. -/
  | fixed {less more : UInt64} (bytes : less ≤ more) : AtMost (.instance less) (.instance more)
  /-- Of arrays, by the size of an element and their length. -/
  | array {less more : UInt32} {length longer : UInt64} (elements : less ≤ more)
      (lengths : length ≤ longer) : AtMost (.array less length) (.array more longer)
  /-- Of hash tables, by their header, their capacity, their entries and the size of an entry. -/
  | table {header largerHeader : UInt32} {capacity largerCapacity entries moreEntries : UInt64}
      {entry largerEntry : UInt32} (headers : header ≤ largerHeader)
      (capacities : capacity ≤ largerCapacity) (counts : entries ≤ moreEntries)
      (sizes : entry ≤ largerEntry) :
      AtMost (.collection header capacity entries entry)
        (.collection largerHeader largerCapacity moreEntries largerEntry)

variable {smaller larger : Shape}

/-- An object alone keeps the order of its parameters. -/
theorem AtMost.shallowBytes_le (ordered : smaller.AtMost larger) :
    smaller.shallowBytes ≤ larger.shallowBytes := by
  cases ordered with
  | fixed bytes => exact bytes
  | array elements lengths =>
    refine arrayBytes_mono ?_ lengths
    rw [UInt64.le_iff_toNat_le, UInt32.toNat_toUInt64, UInt32.toNat_toUInt64]
    exact UInt32.le_iff_toNat_le.mp elements
  | table headers _ _ _ =>
    rw [shallowBytes, shallowBytes, UInt64.le_iff_toNat_le, UInt32.toNat_toUInt64,
      UInt32.toNat_toUInt64]
    exact UInt32.le_iff_toNat_le.mp headers

/-- An object with all that it owns keeps the order of its parameters. -/
theorem AtMost.ownedBytes_le (ordered : smaller.AtMost larger) :
    smaller.ownedBytes ≤ larger.ownedBytes := by
  have alone := ordered.shallowBytes_le
  cases ordered with
  | fixed _ => exact alone
  | array _ _ => exact alone
  | @table header largerHeader capacity largerCapacity entries moreEntries entry largerEntry
      headers capacities counts sizes =>
    have header_le := UInt32.le_iff_toNat_le.mp headers
    have table_le := UInt64.le_iff_toNat_le.mp (tableBytes_mono capacities)
    have entries_le : entries.toNat * entry.toNat ≤ moreEntries.toNat * largerEntry.toNat :=
      Nat.mul_le_mul (UInt64.le_iff_toNat_le.mp counts) (UInt32.le_iff_toNat_le.mp sizes)
    rw [toNat_tableBytes, toNat_tableBytes] at table_le
    rw [UInt64.le_iff_toNat_le, toNat_ownedBytes, toNat_ownedBytes]
    omega

end Shape

namespace Measurer

/-- The measurers of a dump that names none give an object the size of all that it owns. -/
theorem measure_eq_ownedBytes (object : HeapObject Ref) :
    Measurer.measure standard object = object.shape.ownedBytes := by
  obtain ⟨className, category, shape, fields⟩ := object
  cases shape <;> rfl

/-- **Sizes are exact up to one cut, and keep the order of the parameters.** Whatever the words, no
computation of a size wraps. A block has the least aligned number of bytes that is not below the
bytes in it, up to the largest aligned number that fits into a word, and that one beyond. An array
has the block of its header and its elements, and a hash table is measured as its header, its table
and its entries together, both computed in unbounded numbers and cut off at their largest size. An
object of which no parameter is larger than another's is not measured larger, and is not larger by
itself. -/
theorem sizes_exact :
    (∀ bytes : UInt64,
      (bytes.toNat ≤ 2 ^ 64 - 8 →
        IsLeast {size | 8 ∣ size ∧ bytes.toNat ≤ size} (align bytes).toNat) ∧
      (2 ^ 64 - 8 < bytes.toNat → (align bytes).toNat = 2 ^ 64 - 8)) ∧
    (∀ elementBytes length : UInt64, (arrayBytes elementBytes length).toNat =
      min (8 * ((16 + elementBytes.toNat * length.toNat) ⌈/⌉ 8)) (2 ^ 64 - 8)) ∧
    (∀ (object : HeapObject Ref) (headerBytes : UInt32) (capacity entries : UInt64)
      (entryBytes : UInt32),
      (Measurer.measure standard
          { object with shape := .collection headerBytes capacity entries entryBytes }).toNat =
        min (headerBytes.toNat + (if capacity = 0 then 0 else (arrayBytes 4 capacity).toNat) +
          entries.toNat * entryBytes.toNat) (2 ^ 64 - 1)) ∧
    ∀ smaller larger : HeapObject Ref, smaller.shape.AtMost larger.shape →
      Measurer.measure standard smaller ≤ Measurer.measure standard larger ∧
        shallow.sizeOf smaller ≤ shallow.sizeOf larger := by
  refine ⟨fun bytes => ⟨align_isLeast, align_of_lt⟩, toNat_arrayBytes, ?_, ?_⟩
  · intro object headerBytes capacity entries entryBytes
    rw [measure_eq_ownedBytes]
    exact Shape.toNat_ownedBytes headerBytes capacity entries entryBytes
  · intro smaller larger ordered
    rw [measure_eq_ownedBytes, measure_eq_ownedBytes]
    exact ⟨ordered.ownedBytes_le, ordered.shallowBytes_le⟩

/-- The last block that fits into a word, the first that does not, and a hash table without a table
beside one whose table alone is cut off. -/
theorem sizes_exact_edges :
    IsLeast {size | 8 ∣ size ∧ (0xFFFFFFFFFFFFFFF8 : UInt64).toNat ≤ size}
        (align 0xFFFFFFFFFFFFFFF8).toNat ∧
      (align 0xFFFFFFFFFFFFFFF9).toNat = 2 ^ 64 - 8 ∧
      ∀ object : HeapObject Unit,
        Measurer.measure standard { object with shape := .collection 48 0 0 32 } ≤
            Measurer.measure standard
              { object with shape := .collection 48 0xFFFFFFFFFFFFFFFF 1 32 } ∧
          shallow.sizeOf { object with shape := .collection 48 0 0 32 } ≤
            shallow.sizeOf { object with shape := .collection 48 0xFFFFFFFFFFFFFFFF 1 32 } := by
  obtain ⟨blocks, _, _, order⟩ := @sizes_exact Unit
  refine ⟨(blocks _).1 (by decide), (blocks _).2 (by decide), ?_⟩
  intro object
  exact order _ _ (.table (by decide) (by decide) (by decide) (by decide))

end Measurer

end Retained
