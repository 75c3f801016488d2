import Mathlib.Data.List.Nodup
import Retained.Proofs.Text.Utf8
import Retained.Tally.Render
import Retained.Text.Split

/-!
# Printed class tables

A printed table has one line for each class, and there is one order of the lines: the larger value
first, classes of equal value by their UTF-8 bytes (`Ranks.unique`). The sort keeps the order of
equal values, in which a table already has its classes, so it comes to that order (`ranks_ranked`).
A line tells its class and its value, whatever colons and digits the class has, since the value has
no colon; so a printed table can be read back unless a class has a line end in it
(`renderTable_injective`).
-/

namespace Retained.MemoryStats

variable {table other : ClassTable} {entries others : List (String × UInt64)}

/-! ## The order of the lines -/

/-- One line of a table comes before another: the larger value first, and of equal values the class
whose UTF-8 bytes are smaller. -/
def Precedes (left right : String × UInt64) : Prop :=
  right.2 < left.2 ∨ left.2 = right.2 ∧ Options.utf8 left.1 < Options.utf8 right.1

/-- Of two lines only one comes before the other. -/
theorem Precedes.asymm {left right : String × UInt64} (before : Precedes left right) :
    ¬ Precedes right left := by
  intro after
  rcases before with larger | ⟨same, bytes⟩ <;> rcases after with smaller | ⟨equal, later⟩
  · exact UInt64.lt_asymm larger smaller
  · exact UInt64.ne_of_lt larger equal
  · exact UInt64.ne_of_lt smaller same
  · exact List.lt_asymm bytes later

/-- Entries are those of a table, each class once, in the order of their lines. -/
structure Ranks (table : ClassTable) (entries : List (String × UInt64)) : Prop where
  /-- The classes of the table are there with their values, and no others. -/
  listed : ∀ className value, (className, value) ∈ entries ↔ table[className]? = some value
  /-- No class is there twice. -/
  distinct : (entries.map Prod.fst).Nodup
  /-- The entries are in order. -/
  ordered : entries.Pairwise Precedes

/-- A table has one order of lines. -/
theorem Ranks.unique (ranks : Ranks table entries) (again : Ranks table others) :
    others = entries := by
  have members : ∀ entry, entry ∈ others ↔ entry ∈ entries := by
    intro entry
    rw [again.listed, ranks.listed]
  have perm : others.Perm entries :=
    (List.perm_ext_iff_of_nodup (.of_map _ again.distinct) (.of_map _ ranks.distinct)).mpr members
  refine perm.eq_of_pairwise ?_ again.ordered ranks.ordered
  intro left right _ _ before after
  exact absurd after before.asymm

/-! ## The sort -/

/-- The sort compares values, so its comparison can be chained. -/
theorem ranked_trans (first second third : String × UInt64)
    (above : decide (second.2 ≤ first.2) = true) (further : decide (third.2 ≤ second.2) = true) :
    decide (third.2 ≤ first.2) = true := by
  rw [decide_eq_true_eq] at above further ⊢
  exact UInt64.le_trans further above

/-- Of two entries one has a value that is not larger. -/
theorem ranked_total (left right : String × UInt64) :
    (decide (right.2 ≤ left.2) || decide (left.2 ≤ right.2)) = true := by
  rw [Bool.or_eq_true, decide_eq_true_eq, decide_eq_true_eq]
  exact UInt64.le_total right.2 left.2

/-- The sort keeps the entries. -/
theorem ranked_perm (table : ClassTable) : (ranked table).Perm table.toList :=
  List.mergeSort_perm _ _

/-- The sort keeps the order of entries with the same value. -/
theorem filter_ranked (table : ClassTable) (value : UInt64) :
    (ranked table).filter (·.2 == value) = table.toList.filter (·.2 == value) := by
  have level : (table.toList.filter (·.2 == value)).Pairwise
      fun left right => decide (right.2 ≤ left.2) = true := by
    apply List.pairwise_of_forall_mem_list
    intro left leftMember right rightMember
    have isLeft : left.2 = value := by simpa using (List.mem_filter.mp leftMember).2
    have isRight : right.2 = value := by simpa using (List.mem_filter.mp rightMember).2
    simp [isLeft, isRight]
  have kept : (table.toList.filter (·.2 == value)).Sublist (ranked table) :=
    List.sublist_mergeSort ranked_trans ranked_total level List.filter_sublist
  have inside := kept.filter (·.2 == value)
  rw [List.filter_filter] at inside
  simp only [Bool.and_self] at inside
  exact (inside.eq_of_length ((ranked_perm table).filter _).length_eq.symm).symm

/-- The sort brings the entries of a table into the order of their lines. -/
theorem ranks_ranked (table : ClassTable) : Ranks table (ranked table) where
  listed className value := by
    rw [(ranked_perm table).mem_iff, Std.ExtTreeMap.mem_toList_iff_getElem?_eq_some]
  distinct := by
    rw [((ranked_perm table).map Prod.fst).nodup_iff]
    refine List.pairwise_map.mpr (Std.ExtTreeMap.distinct_keys_toList.imp ?_)
    intro left right different same
    exact different (Std.compare_eq_iff_eq.mpr same)
  ordered := by
    have descending := List.pairwise_mergeSort ranked_trans ranked_total table.toList
    rw [List.pairwise_iff_forall_sublist] at descending ⊢
    intro left right behind
    have above : right.2 ≤ left.2 := of_decide_eq_true (descending behind)
    rcases UInt64.lt_or_eq_of_le above with smaller | same
    · exact Or.inl smaller
    · -- Both are among the entries of one value, where the order is still that of the table.
      have level := behind.filter (·.2 == left.2)
      have pair : [left, right].filter (·.2 == left.2) = [left, right] := by simp [same]
      rw [filter_ranked, pair] at level
      have ascending := List.pairwise_iff_forall_sublist.mp Std.ExtTreeMap.ordered_keys_toList
        (level.trans List.filter_sublist)
      exact Or.inr ⟨same.symm, Options.utf8_lt_utf8 (compareOfLessAndEq_eq_lt.mp ascending)⟩

/-! ## Reading a table back -/

/-- A line without its end. -/
def lineOf (entry : String × UInt64) : List Char :=
  entry.1.toList ++ ':' :: ' ' :: Nat.toDigits 10 entry.2.toNat

/-- A line tells its class and its value: what stands behind the last colon is the value. -/
theorem lineOf_injective : Function.Injective lineOf := by
  intro left right same
  have cut : ∀ entry, Text.splitLast? ':' (lineOf entry) =
      some (entry.1.toList, ' ' :: Nat.toDigits 10 entry.2.toNat) := by
    intro entry
    apply Text.splitLast?_append
    intro member
    rcases List.mem_cons.mp member with space | digit
    · exact absurd space (by decide)
    · exact absurd (Nat.isDigit_of_mem_toDigits (by decide) (by decide) digit) (by decide)
  have halves := (cut left).symm.trans ((congrArg _ same).trans (cut right))
  simp only [Option.some.injEq, Prod.mk.injEq, String.toList_inj, List.cons.injEq,
    true_and] at halves
  obtain ⟨sameClass, sameDigits⟩ := halves
  have sameNumber := congrArg (fun digits => Nat.ofDigitChars 10 digits 0) sameDigits
  simp only [Nat.ofDigitChars_ten_toDigits] at sameNumber
  exact Prod.ext sameClass (UInt64.toNat_inj.mp sameNumber)

/-- A line has no end inside it if its class has none. -/
theorem not_mem_lineOf {entry : String × UInt64} (clean : '\n' ∉ entry.1.toList) :
    '\n' ∉ lineOf entry := by
  intro member
  rcases List.mem_append.mp member with inClass | behind
  · exact clean inClass
  · simp only [List.mem_cons] at behind
    rcases behind with colon | space | digit
    · exact absurd colon (by decide)
    · exact absurd space (by decide)
    · exact absurd (Nat.isDigit_of_mem_toDigits (by decide) (by decide) digit) (by decide)

/-- The fields of printed lines between their ends are the lines, and nothing is behind the last
end. -/
theorem splitFields_render (clean : ∀ entry ∈ entries, '\n' ∉ entry.1.toList) :
    Text.splitFields '\n' (String.join (entries.map renderEntry)).toList =
      entries.map lineOf ++ [[]] := by
  induction entries with
  | nil => rfl
  | cons entry rest further =>
    have line : (renderEntry entry).toList = lineOf entry ++ ['\n'] := by
      simp [renderEntry, lineOf]
    have whole : (String.join ((entry :: rest).map renderEntry)).toList =
        lineOf entry ++ '\n' :: (String.join (rest.map renderEntry)).toList := by
      rw [List.map_cons, String.join_cons, String.toList_append, line, List.append_assoc,
        List.singleton_append]
    have first := not_mem_lineOf (clean entry List.mem_cons_self)
    have later := further fun other member => clean other (List.mem_cons_of_mem entry member)
    rw [whole, Text.splitFields_append, Text.splitFields_of_not_mem first, later]
    rfl

/-- No class of a table has a line end in it. -/
def IsClean (table : ClassTable) : Prop :=
  ∀ className ∈ table, '\n' ∉ className.toList

/-- The fields of a printed table are the lines of its entries. -/
theorem splitFields_renderTable (clean : IsClean table) :
    Text.splitFields '\n' (renderTable table).toList = (ranked table).map lineOf ++ [[]] := by
  apply splitFields_render
  intro entry member
  have held := ((ranks_ranked table).listed entry.1 entry.2).mp member
  exact clean entry.1 (Std.ExtTreeMap.mem_iff_isSome_getElem?.mpr (by rw [held]; rfl))

/-- Tables without line ends in their classes are the same if they are printed alike. -/
theorem renderTable_injective (clean : IsClean table) (otherClean : IsClean other)
    (same : renderTable table = renderTable other) : table = other := by
  have lines := splitFields_renderTable clean
  rw [same, splitFields_renderTable otherClean] at lines
  have entries : ranked other = ranked table :=
    lineOf_injective.list_map (List.append_cancel_right lines)
  apply Std.ExtTreeMap.ext_getElem?
  intro className
  apply Option.ext
  intro value
  rw [← (ranks_ranked table).listed, ← entries, (ranks_ranked other).listed]

/-! ## Printed tables -/

/-- A text has a line for each class of a table with its value, and no others, in the one order in
which the values do not grow and the classes of equal value ascend by their UTF-8 bytes. -/
def Prints (table : ClassTable) (text : String) : Prop :=
  ∃ entries, Ranks table entries ∧ (∀ others, Ranks table others → others = entries) ∧
    text = String.join (entries.map fun (className, value) =>
      className ++ ": " ++ toString value.toNat ++ "\n")

/-- The text of a table has its lines. -/
theorem prints_renderTable (table : ClassTable) : Prints table (renderTable table) :=
  ⟨ranked table, ranks_ranked table, fun _ => (ranks_ranked table).unique, rfl⟩

/-- **A class table lists every class once, in the one right order, and can be read back.** The text
of statistics by count, and by bytes, has a line for each class of the table with its value and no
others, the largest value first and classes of equal value in the ascending order of their UTF-8
bytes. Two statistics whose classes have no line ends in them, whatever else they have, have the
same table if they have the same text. -/
theorem tables_exact :
    (∀ stats : MemoryStats, Prints stats.countByClass (stats.render .count) ∧
      Prints stats.bytesByClass (stats.render .bytes)) ∧
    ∀ stats other : MemoryStats,
      (IsClean stats.countByClass → IsClean other.countByClass →
        stats.render .count = other.render .count → stats.countByClass = other.countByClass) ∧
      (IsClean stats.bytesByClass → IsClean other.bytesByClass →
        stats.render .bytes = other.render .bytes → stats.bytesByClass = other.bytesByClass) := by
  constructor
  · intro stats
    exact ⟨prints_renderTable stats.countByClass, prints_renderTable stats.bytesByClass⟩
  · intro stats other
    exact ⟨renderTable_injective, renderTable_injective⟩

/-- Statistics of a class and of one that looks like a line of it, set in one order or the other. -/
def lookalike (first second : String) : MemoryStats where
  objectCount := 6
  memoryUse := 48
  countByClass := ((∅ : ClassTable).insert first 3).insert second 3
  bytesByClass := ((∅ : ClassTable).insert first 24).insert second 24

/-- Their tables have two lines, the shorter class first. -/
theorem renderTable_lookalike {value : UInt64}
    (listed : table.toList = [("Foo", value), ("Foo: 3", value)]) :
    renderTable table = renderEntry ("Foo", value) ++ renderEntry ("Foo: 3", value) := by
  have same : ranked table = [("Foo", value), ("Foo: 3", value)] := by
    rw [ranked, listed]
    exact List.mergeSort_of_pairwise (by simp)
  rw [renderTable, same]
  simp

/-- Both orders give the same text, so they give the same tables. -/
theorem tables_exact_lookalike :
    (lookalike "Foo" "Foo: 3").render .count = "Foo: 3\nFoo: 3: 3\n" ∧
      (lookalike "Foo" "Foo: 3").countByClass = (lookalike "Foo: 3" "Foo").countByClass ∧
      (lookalike "Foo" "Foo: 3").bytesByClass = (lookalike "Foo: 3" "Foo").bytesByClass := by
  have count :
      (lookalike "Foo" "Foo: 3").render .count = (lookalike "Foo: 3" "Foo").render .count :=
    (renderTable_lookalike rfl).trans (renderTable_lookalike rfl).symm
  have bytes :
      (lookalike "Foo" "Foo: 3").render .bytes = (lookalike "Foo: 3" "Foo").render .bytes :=
    (renderTable_lookalike rfl).trans (renderTable_lookalike rfl).symm
  have clean : ∀ (first second : String) (value : UInt64),
      '\n' ∉ first.toList → '\n' ∉ second.toList →
      IsClean (((∅ : ClassTable).insert first value).insert second value) := by
    intro first second value firstClean secondClean className member
    simp only [Std.ExtTreeMap.mem_insert, Std.ExtTreeMap.not_mem_empty, or_false,
      Std.compare_eq_iff_eq] at member
    rcases member with rfl | rfl
    · exact secondClean
    · exact firstClean
  obtain ⟨counts, sizes⟩ := tables_exact.2 (lookalike "Foo" "Foo: 3") (lookalike "Foo: 3" "Foo")
  refine ⟨(renderTable_lookalike rfl).trans (by decide), counts ?_ ?_ count, sizes ?_ ?_ bytes⟩
  all_goals exact clean _ _ _ (by decide) (by decide)

end Retained.MemoryStats
