import Mathlib.Data.List.Induction
import Mathlib.Tactic.Ring
import Retained.Configuration.Key
import Retained.Proofs.Text.Utf8

/-!
# Reading the canonical form of options

The canonical form has neither a count nor separators, only lengths in front of texts. It can still
be read from left to right (`ofCanonical?`), and what is read is what was written: a byte sequence
is the canonical form of options exactly if reading it gives them (`ofCanonical?_eq_some_iff`). So
the canonical bytes identify the options (`canonicalBytes_identify`).
-/

namespace Retained.Options

/-! ## Words -/

/-- The number that bytes write with the least significant first. -/
def number : List UInt8 → Nat
  | [] => 0
  | byte :: rest => byte.toNat + 256 * number rest

/-- A last byte counts above all the others. -/
theorem number_concat (bytes : List UInt8) (last : UInt8) :
    number (bytes ++ [last]) = number bytes + 256 ^ bytes.length * last.toNat := by
  induction bytes with
  | nil => simp [number]
  | cons byte rest further =>
    rw [List.cons_append, number, further, number, List.length_cons, Nat.pow_succ]
    ring

/-- Bytes write a number below the power of their count. -/
theorem number_lt (bytes : List UInt8) : number bytes < 256 ^ bytes.length := by
  induction bytes with
  | nil => exact Nat.one_pos
  | cons byte rest further =>
    have bound := byte.toNat_lt
    rw [number, List.length_cons, Nat.pow_succ]
    omega

/-- Bytes of one count that write the same number are the same. -/
theorem number_injective {left right : List UInt8} (count : left.length = right.length)
    (same : number left = number right) : left = right := by
  induction left generalizing right with
  | nil => exact (List.eq_nil_of_length_eq_zero count.symm).symm
  | cons byte rest further =>
    cases right with
    | nil => cases count
    | cons other others =>
      have bound := byte.toNat_lt
      have otherBound := other.toNat_lt
      rw [number, number] at same
      have first : byte = other := UInt8.toNat_inj.mp (by omega)
      have later : rest = others := further (Nat.succ.inj count) (by omega)
      rw [first, later]

/-- The first bytes of a word write what is left of it modulo their power. -/
theorem number_firstBytes (word : UInt64) {count : Nat} (few : count ≤ 8) :
    number ((List.range count).map fun place => (word >>> (8 * UInt64.ofNat place)).toUInt8) =
      word.toNat % 256 ^ count := by
  induction count with
  | zero => simp [number, Nat.mod_one]
  | succ count further =>
    have shift : (8 * UInt64.ofNat count).toNat % 64 = 8 * count := by
      have eight : (8 : UInt64).toNat = 8 := rfl
      rw [UInt64.toNat_mul, UInt64.toNat_ofNat', eight]
      omega
    have power : 2 ^ (8 * count) = 256 ^ count := Nat.pow_mul 2 8 count
    have last : (word >>> (8 * UInt64.ofNat count)).toUInt8.toNat =
        word.toNat / 256 ^ count % 256 := by
      rw [UInt64.toNat_toUInt8, UInt64.toNat_shiftRight, shift, Nat.shiftRight_eq_div_pow, power]
    rw [List.range_succ, List.map_append, List.map_singleton, number_concat, further (by omega),
      last, List.length_map, List.length_range, Nat.pow_succ, Nat.mod_mul]

/-- A word has eight bytes. -/
theorem length_wordBytes (word : UInt64) : (wordBytes word).length = 8 := by
  simp [wordBytes]

/-- The bytes of a word write it. -/
theorem number_wordBytes (word : UInt64) : number (wordBytes word) = word.toNat := by
  rw [wordBytes, number_firstBytes word (Nat.le_refl 8)]
  exact Nat.mod_eq_of_lt word.toNat_lt

/-- Eight bytes are those of the word that they write. -/
theorem wordBytes_number {bytes : List UInt8} (count : bytes.length = 8) :
    wordBytes (UInt64.ofNat (number bytes)) = bytes := by
  have bound := number_lt bytes
  rw [count] at bound
  apply number_injective (by rw [length_wordBytes, count])
  rw [number_wordBytes]
  exact UInt64.toNat_ofNat_of_lt' bound

/-- A checksum has two digits for each byte of a word. -/
theorem length_checksum (options : Options) : options.checksum.length = 16 := by
  have digits : ∀ bytes : List UInt8, (Text.hex bytes).length = 2 * bytes.length := by
    intro bytes
    rw [Text.hex, String.length_ofList]
    induction bytes with
    | nil => rfl
    | cons byte rest further =>
      rw [List.flatMap_cons, List.length_append, further, List.length_cons]
      simp only [Text.hexByte, List.length_cons, List.length_nil]
      omega
  rw [checksum, digits, List.length_reverse, length_wordBytes]

/-! ## Measured texts -/

/-- A text has a length that a word can hold. -/
def IsMeasurable (text : String) : Prop :=
  text.utf8ByteSize < UInt64.size

/-- So many bytes in front, and the bytes behind them. -/
def readChunk? (count : Nat) (bytes : List UInt8) : Option (List UInt8 × List UInt8) :=
  if count ≤ bytes.length then some (bytes.take count, bytes.drop count) else none

/-- A chunk is read exactly if it is as long as it should be and stands in front. -/
theorem readChunk?_eq_some_iff {count : Nat} {bytes chunk rest : List UInt8} :
    readChunk? count bytes = some (chunk, rest) ↔ chunk.length = count ∧ bytes = chunk ++ rest := by
  unfold readChunk?
  constructor
  · intro read
    split at read
    · next room =>
      cases read
      exact ⟨List.length_take_of_le room, (List.take_append_drop count bytes).symm⟩
    · cases read
  · rintro ⟨length, rfl⟩
    rw [if_pos (by rw [List.length_append]; omega), List.take_left' length, List.drop_left' length]

/-- The text led by its length in front of some bytes, and the bytes behind it. -/
def readMeasured? (bytes : List UInt8) : Option (String × List UInt8) := do
  let (length, rest) ← readChunk? 8 bytes
  let (chunk, rest) ← readChunk? (number length) rest
  let text ← String.fromUTF8? chunk.toByteArray
  return (text, rest)

/-- A measured text is read back, and nothing else is read. -/
theorem readMeasured?_eq_some_iff {bytes rest : List UInt8} {text : String} :
    readMeasured? bytes = some (text, rest) ↔
      IsMeasurable text ∧ bytes = measuredBytes text ++ rest := by
  simp only [readMeasured?, Option.bind_eq_bind, Option.bind_eq_some_iff, Prod.exists,
    readChunk?_eq_some_iff, fromUTF8?_eq_some_iff]
  constructor
  · rintro ⟨length, middle, ⟨eight, rfl⟩, chunk, behind, ⟨long, rfl⟩, read, written, made⟩
    cases made
    subst written
    constructor
    · have bound := number_lt length
      rw [eight, ← long, length_utf8] at bound
      exact bound
    · simp only [measuredBytes]
      rw [long, wordBytes_number eight, List.append_assoc]
  · rintro ⟨fits, rfl⟩
    have long : (utf8 text).length = number (wordBytes (UInt64.ofNat (utf8 text).length)) := by
      rw [number_wordBytes, length_utf8]
      exact (UInt64.toNat_ofNat_of_lt' fits).symm
    exact ⟨wordBytes (UInt64.ofNat (utf8 text).length), utf8 text ++ rest,
      ⟨length_wordBytes _, List.append_assoc ..⟩, utf8 text, rest, ⟨long, rfl⟩, text, rfl, rfl⟩

/-! ## Settings -/

/-- The bytes of a setting: its name and its value, each led by its length. -/
def settingBytes (setting : String × String) : List UInt8 :=
  measuredBytes setting.1 ++ measuredBytes setting.2

/-- The canonical bytes are those of the settings in the order of their names. -/
theorem canonicalBytes_eq (options : Options) :
    options.canonicalBytes = options.toList.flatMap settingBytes :=
  rfl

/-- Both texts of a setting have lengths that a word can hold. -/
def IsWritable (setting : String × String) : Prop :=
  IsMeasurable setting.1 ∧ IsMeasurable setting.2

/-- The setting in front of some bytes, and the bytes behind it. -/
def readSetting? (bytes : List UInt8) : Option ((String × String) × List UInt8) := do
  let (name, rest) ← readMeasured? bytes
  let (value, rest) ← readMeasured? rest
  return ((name, value), rest)

/-- A setting is read back, and nothing else is read. -/
theorem readSetting?_eq_some_iff {bytes rest : List UInt8} {setting : String × String} :
    readSetting? bytes = some (setting, rest) ↔
      IsWritable setting ∧ bytes = settingBytes setting ++ rest := by
  simp only [readSetting?, Option.bind_eq_bind, Option.bind_eq_some_iff, Prod.exists,
    readMeasured?_eq_some_iff]
  constructor
  · rintro ⟨name, middle, ⟨nameFits, rfl⟩, value, behind, ⟨valueFits, rfl⟩, made⟩
    cases made
    exact ⟨⟨nameFits, valueFits⟩, (List.append_assoc ..).symm⟩
  · rintro ⟨⟨nameFits, valueFits⟩, rfl⟩
    exact ⟨setting.1, measuredBytes setting.2 ++ rest, ⟨nameFits, List.append_assoc ..⟩, setting.2,
      rest, ⟨valueFits, rfl⟩, rfl⟩

/-- A setting takes bytes away. -/
theorem readSetting?_shorter {bytes rest : List UInt8} {setting : String × String}
    (read : readSetting? bytes = some (setting, rest)) : rest.length < bytes.length := by
  rw [(readSetting?_eq_some_iff.mp read).2, settingBytes, measuredBytes]
  simp only [List.length_append, length_wordBytes]
  omega

/-- The settings that some bytes write one after the other. -/
def readSettings? (bytes : List UInt8) : Option (List (String × String)) :=
  if bytes.isEmpty then
    some []
  else
    match _ : readSetting? bytes with
    | none => none
    | some (setting, rest) => (readSettings? rest).map (setting :: ·)
termination_by bytes.length
decreasing_by exact readSetting?_shorter (by assumption)

/-- Nothing writes no setting. -/
theorem readSettings?_nil : readSettings? [] = some [] := by
  rw [readSettings?]
  rfl

/-- Bytes that start with no setting write no settings. -/
theorem readSettings?_of_none {bytes : List UInt8} (filled : bytes ≠ [])
    (refused : readSetting? bytes = none) : readSettings? bytes = none := by
  rw [readSettings?, if_neg (by simpa using filled)]
  split
  · rfl
  · next setting rest read => simp [refused] at read

/-- Bytes that start with a setting write it in front of what the others write. -/
theorem readSettings?_of_some {bytes rest : List UInt8} {setting : String × String}
    (read : readSetting? bytes = some (setting, rest)) :
    readSettings? bytes = (readSettings? rest).map (setting :: ·) := by
  have filled : bytes ≠ [] := by
    rintro rfl
    exact Nat.not_lt_zero _ (readSetting?_shorter read)
  rw [readSettings?, if_neg (by simpa using filled)]
  split
  · next refused => simp [read] at refused
  · next other others same =>
    rw [read] at same
    cases same
    rfl

/-- Settings are read back, and nothing else is read. -/
theorem readSettings?_eq_some_iff {bytes : List UInt8} {settings : List (String × String)} :
    readSettings? bytes = some settings ↔
      (∀ setting ∈ settings, IsWritable setting) ∧ bytes = settings.flatMap settingBytes := by
  constructor
  · intro read
    induction bytes using readSettings?.induct generalizing settings with
    | case1 bytes empty =>
      rw [List.isEmpty_iff.mp empty, readSettings?_nil] at read
      cases read
      exact ⟨nofun, List.isEmpty_iff.mp empty⟩
    | case2 bytes filled refused =>
      rw [readSettings?_of_none (by simpa using filled) refused] at read
      cases read
    | case3 bytes filled setting rest first further =>
      rw [readSettings?_of_some first, Option.map_eq_some_iff] at read
      obtain ⟨others, later, rfl⟩ := read
      obtain ⟨fits, whole⟩ := readSetting?_eq_some_iff.mp first
      obtain ⟨othersFit, remaining⟩ := further later
      refine ⟨List.forall_mem_cons.mpr ⟨fits, othersFit⟩, ?_⟩
      rw [whole, remaining, List.flatMap_cons]
  · rintro ⟨fit, rfl⟩
    induction settings with
    | nil => exact readSettings?_nil
    | cons setting others further =>
      obtain ⟨fits, othersFit⟩ := List.forall_mem_cons.mp fit
      have first : readSetting? ((setting :: others).flatMap settingBytes) =
          some (setting, others.flatMap settingBytes) :=
        readSetting?_eq_some_iff.mpr ⟨fits, List.flatMap_cons⟩
      rw [readSettings?_of_some first, further othersFit]
      rfl

/-! ## Options -/

/-- The value that settings give to a name last. -/
def lastValue? (settings : List (String × String)) (name : String) : Option String :=
  settings.reverse.lookup name

/-- The options set one after the other give each name its last value. -/
theorem getElem?_ofList (settings : List (String × String)) (name : String) :
    (ofList settings)[name]? = lastValue? settings name := by
  unfold ofList lastValue?
  induction settings using List.reverseRecOn with
  | nil => simp
  | append_singleton earlier last further =>
    rw [List.foldl_append, List.foldl_cons, List.foldl_nil, Std.ExtTreeMap.getElem?_insert,
      further, List.reverse_concat,
      List.lookup_cons]
    by_cases same : last.1 = name
    · simp [same]
    · have apart : compare last.1 name ≠ .eq := fun equal => same (Std.compare_eq_iff_eq.mp equal)
      have other : (name == last.1) = false := beq_false_of_ne (Ne.symm same)
      simp [apart, other]

/-- Settings in the strict order of their names. -/
def Ascending (settings : List (String × String)) : Prop :=
  settings.Pairwise fun first second => compare first.1 second.1 = .lt

instance (settings : List (String × String)) : Decidable (Ascending settings) :=
  inferInstanceAs (Decidable (settings.Pairwise _))

/-- Options list their settings in the strict order of the names. -/
theorem toList_ascending (options : Options) : Ascending options.toList :=
  Std.ExtTreeMap.ordered_keys_toList

/-- What options hold was set. -/
theorem mem_of_mem_ofList {settings : List (String × String)} {setting : String × String}
    (member : setting ∈ (ofList settings).toList) : setting ∈ settings := by
  have found := Std.ExtTreeMap.mem_toList_iff_getElem?_eq_some.mp member
  rw [getElem?_ofList, lastValue?, List.lookup_eq_some_iff] at found
  obtain ⟨before, after, split, _⟩ := found
  rw [← List.mem_reverse, split]
  exact List.mem_append_right before List.mem_cons_self

/-- Settings in strict order are listed as they were set. -/
theorem toList_ofList {settings : List (String × String)} (ascending : Ascending settings) :
    (ofList settings).toList = settings := by
  have apart : settings.Pairwise fun first second => ¬ compare first.1 second.1 = .eq :=
    ascending.imp fun less equal => by simp [equal] at less
  have isStandard : ofList settings = Std.ExtTreeMap.ofList settings compare :=
    Std.ExtTreeMap.ofList_eq_foldl.symm
  have members : ∀ setting, setting ∈ (ofList settings).toList ↔ setting ∈ settings := by
    intro setting
    refine ⟨mem_of_mem_ofList, ?_⟩
    intro member
    rw [Std.ExtTreeMap.mem_toList_iff_getElem?_eq_some, isStandard]
    exact Std.ExtTreeMap.getElem?_ofList_of_mem Std.ReflCmp.compare_self apart member
  have distinct : ∀ {listed : List (String × String)}, Ascending listed → listed.Nodup := by
    intro listed ordered
    exact ordered.imp fun less same => by simp [same, Std.ReflCmp.compare_self] at less
  refine List.Perm.eq_of_pairwise ?_ (toList_ascending _) ascending ?_
  · intro first second _ _ less more
    rw [Std.OrientedCmp.gt_of_lt more] at less
    cases less
  · exact (List.perm_ext_iff_of_nodup (distinct (toList_ascending _))
      (distinct ascending)).mpr members

/-- Options are those set by their own list. -/
theorem ofList_toList (options : Options) : ofList options.toList = options :=
  Std.ExtTreeMap.toList_inj.mp (toList_ofList options.toList_ascending)

/-- The texts of all settings have lengths that a word can hold. -/
def AreWritable (options : Options) : Prop :=
  ∀ setting ∈ options.toList, IsWritable setting

/-- The options whose canonical form some bytes are. -/
def ofCanonical? (bytes : List UInt8) : Option Options := do
  let settings ← readSettings? bytes
  if Ascending settings then some (ofList settings) else none

/-- The canonical bytes of options are read back, and nothing else is read. -/
theorem ofCanonical?_eq_some_iff {bytes : List UInt8} {options : Options} :
    ofCanonical? bytes = some options ↔ options.AreWritable ∧ bytes = options.canonicalBytes := by
  simp only [ofCanonical?, Option.bind_eq_bind, Option.bind_eq_some_iff, readSettings?_eq_some_iff]
  constructor
  · rintro ⟨settings, ⟨fit, whole⟩, made⟩
    split at made
    · next ascending =>
      cases made
      rw [AreWritable, canonicalBytes_eq, toList_ofList ascending]
      exact ⟨fit, whole⟩
    · cases made
  · rintro ⟨fit, whole⟩
    refine ⟨options.toList, ⟨fit, whole⟩, ?_⟩
    rw [if_pos options.toList_ascending, ofList_toList]

/-- Options set by writable settings are writable. -/
theorem areWritable_ofList {settings : List (String × String)}
    (fit : ∀ setting ∈ settings, IsWritable setting) : (ofList settings).AreWritable :=
  fun setting member => fit setting (mem_of_mem_ofList member)

/-- Options list their settings in the order of the bytes of the names. -/
theorem toList_bytes_ascending (options : Options) :
    options.toList.Pairwise fun first second => utf8 first.1 < utf8 second.1 :=
  options.toList_ascending.imp fun less => utf8_lt_utf8 (compareOfLessAndEq_eq_lt.mp less)

/-- The canonical bytes identify options. Settings made one after the other leave each name its last
value; the canonical bytes list what is left in the order of the bytes of the names; reading accepts
the canonical bytes of writable options, each for the options that they are of, and nothing else. So
two sequences of writable settings have the same canonical bytes exactly if they give every name the
same last value. -/
theorem canonicalBytes_identify :
    (∀ settings name, (ofList settings)[name]? = lastValue? settings name) ∧
    (∀ options : Options, options.canonicalBytes = options.toList.flatMap settingBytes ∧
      options.toList.Pairwise fun first second => utf8 first.1 < utf8 second.1) ∧
    (∀ bytes options, ofCanonical? bytes = some options ↔
      options.AreWritable ∧ bytes = options.canonicalBytes) ∧
    ∀ first second, (∀ setting ∈ first, IsWritable setting) →
      (∀ setting ∈ second, IsWritable setting) →
      ofCanonical? (ofList first).canonicalBytes = some (ofList first) ∧
      ((ofList first).canonicalBytes = (ofList second).canonicalBytes ↔
        ∀ name, lastValue? first name = lastValue? second name) := by
  refine ⟨getElem?_ofList,
    fun options => ⟨canonicalBytes_eq options, toList_bytes_ascending options⟩,
    fun _ _ => ofCanonical?_eq_some_iff, ?_⟩
  intro first second firstFit secondFit
  have readFirst : ofCanonical? (ofList first).canonicalBytes = some (ofList first) :=
    ofCanonical?_eq_some_iff.mpr ⟨areWritable_ofList firstFit, rfl⟩
  have readSecond : ofCanonical? (ofList second).canonicalBytes = some (ofList second) :=
    ofCanonical?_eq_some_iff.mpr ⟨areWritable_ofList secondFit, rfl⟩
  refine ⟨readFirst, ?_⟩
  constructor
  · intro same name
    rw [same, readSecond, Option.some.injEq] at readFirst
    rw [← getElem?_ofList, ← getElem?_ofList, readFirst]
  · intro same
    have equal : ofList first = ofList second := by
      apply Std.ExtTreeMap.ext_getElem?
      intro name
      rw [getElem?_ofList, getElem?_ofList, same]
    rw [equal]

/-- An overwritten value and the order of the settings leave no trace in the canonical bytes, but
where a name ends does, and the bytes are read back. -/
theorem canonicalBytes_identify_overwritten :
    (ofList [("b", "old"), ("a", "bc"), ("b", "")]).canonicalBytes =
        (ofList [("a", "bc"), ("b", "")]).canonicalBytes ∧
      (ofList [("a", "bc"), ("b", "")]).canonicalBytes ≠
        (ofList [("ab", "c"), ("b", "")]).canonicalBytes ∧
      ofCanonical? (ofList [("a", "bc"), ("b", "")]).canonicalBytes =
        some (ofList [("a", "bc"), ("b", "")]) := by
  have overwrittenFit : ∀ setting ∈ [("b", "old"), ("a", "bc"), ("b", "")], IsWritable setting := by
    unfold IsWritable IsMeasurable
    decide
  have plainFit : ∀ setting ∈ [("a", "bc"), ("b", "")], IsWritable setting := by
    unfold IsWritable IsMeasurable
    decide
  have shiftedFit : ∀ setting ∈ [("ab", "c"), ("b", "")], IsWritable setting := by
    unfold IsWritable IsMeasurable
    decide
  obtain ⟨_, _, _, identify⟩ := canonicalBytes_identify
  refine ⟨(identify _ _ overwrittenFit plainFit).2.mpr ?_, ?_, (identify _ _ plainFit plainFit).1⟩
  · intro name
    by_cases isA : name = "a"
    · subst isA
      decide
    · by_cases isB : name = "b"
      · subst isB
        decide
      · have notA : (name == "a") = false := beq_false_of_ne isA
        have notB : (name == "b") = false := beq_false_of_ne isB
        simp [lastValue?, List.lookup_cons, notA, notB]
  · intro same
    have value := (identify _ _ plainFit shiftedFit).2.mp same "a"
    revert value
    decide

end Retained.Options
