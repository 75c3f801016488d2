import Mathlib.Tactic.SplitIfs
import Retained.Configuration.Options

/-!
# The bytes of texts

A text is read back from its UTF-8 bytes and from no others (`fromUTF8?_eq_some_iff`). Texts are
compared by the codes of their characters, and their bytes compare alike: where two texts part, the
smaller code has the smaller byte at the place where the two encodings part, and no encoding of a
character is the beginning of another one's (`utf8_lt_utf8`).
-/

namespace Retained.Options

/-- What the bytes from an index on are turned to behind the bytes before it. -/
theorem toList_loop (bytes : ByteArray) (index : Nat) (before : List UInt8) :
    ByteArray.toList.loop bytes index before = before.reverse ++ bytes.data.toList.drop index := by
  induction index, before using ByteArray.toList.loop.induct bytes with
  | case1 index before inside further =>
    have bound : index < bytes.data.toList.length := by simpa using inside
    have byte : bytes.get! index = bytes.data.toList[index] := by
      rw [ByteArray.get!, Array.getElem_toList]
      exact getElem!_pos bytes.data index (by simpa using inside)
    rw [ByteArray.toList.loop, if_pos inside, further, List.drop_eq_getElem_cons bound, byte]
    simp
  | case2 index before outside =>
    have bound : bytes.data.toList.length ≤ index := by simpa using outside
    rw [ByteArray.toList.loop, if_neg outside, List.drop_eq_nil_of_le bound, List.append_nil]

/-- Listing the bytes of an array takes them as they are. -/
theorem toList_eq_data (bytes : ByteArray) : bytes.toList = bytes.data.toList := by
  rw [ByteArray.toList, toList_loop]
  simp

/-- An array is made of the bytes that it lists. -/
theorem toByteArray_toList (bytes : ByteArray) : bytes.toList.toByteArray = bytes := by
  apply ByteArray.ext
  apply Array.toList_inj.mp
  rw [List.toList_data_toByteArray, toList_eq_data]

/-- Bytes are read as a text exactly if they are its bytes. -/
theorem fromUTF8?_eq_some_iff {bytes : List UInt8} {text : String} :
    String.fromUTF8? bytes.toByteArray = some text ↔ utf8 text = bytes := by
  unfold String.fromUTF8?
  constructor
  · intro read
    split at read
    · next valid =>
      cases read
      rw [utf8, String.fromUTF8, toList_eq_data, List.toList_data_toByteArray]
    · cases read
  · intro written
    have array : bytes.toByteArray = text.toByteArray := by
      rw [← written]
      exact toByteArray_toList _
    rw [dif_pos (array ▸ text.isValidUTF8), Option.some.injEq]
    exact String.toByteArray_inj.mp array

/-- The bytes of a text are as many as its length says. -/
theorem length_utf8 (text : String) : (utf8 text).length = text.utf8ByteSize := by
  rw [utf8, toList_eq_data]
  exact String.size_toByteArray

/-! ## Order -/

/-- The bytes of a text are those of its characters, one after the other. -/
theorem utf8_eq_flatMap (text : String) :
    utf8 text = text.toList.flatMap String.utf8EncodeChar := by
  rw [utf8, toList_eq_data, ← String.utf8Encode_toList, List.utf8Encode,
    List.toList_data_toByteArray]

/-- A smaller character has smaller bytes, whatever follows. -/
theorem utf8EncodeChar_lt {left right : Char} (less : left < right)
    (leftRest rightRest : List UInt8) :
    String.utf8EncodeChar left ++ leftRest < String.utf8EncodeChar right ++ rightRest := by
  have codes : left.val.toNat < right.val.toNat := less
  have bound : right.val.toNat < 0x110000 := by
    rcases right.valid with low | high <;> omega
  -- A byte after the first one holds six bits of the code, so the code is taken apart by 64.
  have twice : ∀ code : Nat, code / 4096 = code / 64 / 64 := by
    intro code
    omega
  have thrice : ∀ code : Nat, code / 262144 = code / 64 / 64 / 64 := by
    intro code
    omega
  have later : ∀ code : Nat, (code % 64 + 128) % 256 = code % 64 + 128 := by
    intro code
    omega
  unfold String.utf8EncodeChar
  generalize left.val.toNat = code at codes
  generalize right.val.toNat = other at codes bound
  simp only
  split_ifs <;>
    simp only [List.cons_append, List.nil_append, List.cons_lt_cons_iff, UInt8.lt_iff_toNat_lt,
      ← UInt8.toNat_inj, UInt8.toNat_ofNat', twice, thrice, later] <;> omega

/-- Texts are ordered as their bytes. -/
theorem utf8_lt_utf8 {first second : String} (less : first < second) :
    utf8 first < utf8 second := by
  have characters : List.Lex (· < ·) first.toList second.toList := less
  rw [utf8_eq_flatMap, utf8_eq_flatMap]
  clear less
  generalize first.toList = low at characters ⊢
  generalize second.toList = high at characters ⊢
  induction characters with
  | @nil character rest =>
    rw [List.flatMap_nil, List.flatMap_cons]
    have filled : String.utf8EncodeChar character ≠ [] := by
      simp
    obtain ⟨byte, bytes, split⟩ := List.exists_cons_of_ne_nil filled
    rw [split]
    exact List.nil_lt_cons ..
  | rel smaller =>
    rw [List.flatMap_cons, List.flatMap_cons]
    exact utf8EncodeChar_lt smaller _ _
  | cons _ further =>
    rw [List.flatMap_cons, List.flatMap_cons]
    exact List.append_left_lt further

end Retained.Options
