/-!
# Blank characters and case

Environment values are read with their surrounding blanks removed, where a blank is a character with
the Unicode property White_Space. Fixed ASCII words are compared after lower-casing: of all Unicode
characters only `A` to `Z` and the Kelvin sign have a lower-case form made of one ASCII letter, so
folding those and leaving every other character alone decides the same comparisons.
-/

namespace Retained.Text

/-- Whether a character has the Unicode property White_Space. -/
def isBlank (character : Char) : Bool :=
  let code := character.toNat
  (9 ≤ code && code ≤ 13) || code == 0x20 || code == 0x85 || code == 0xA0 || code == 0x1680 ||
    (0x2000 ≤ code && code ≤ 0x200A) || code == 0x2028 || code == 0x2029 || code == 0x202F ||
    code == 0x205F || code == 0x3000

/-- A text without the blanks at its two ends. -/
def trimBlanks (text : List Char) : List Char :=
  ((text.dropWhile isBlank).reverse.dropWhile isBlank).reverse

/-- A text is what is left of it after trimming, between blanks. -/
theorem exists_blanks (text : List Char) :
    ∃ before after, text = before ++ trimBlanks text ++ after ∧
      (∀ character ∈ before, isBlank character = true) ∧
      ∀ character ∈ after, isBlank character = true := by
  refine ⟨text.takeWhile isBlank,
    ((text.dropWhile isBlank).reverse.takeWhile isBlank).reverse, ?_, ?_, ?_⟩
  · rw [trimBlanks, List.append_assoc, ← List.reverse_append, List.takeWhile_append_dropWhile,
      List.reverse_reverse, List.takeWhile_append_dropWhile]
  · exact List.all_eq_true.mp List.all_takeWhile
  · intro character member
    exact List.all_eq_true.mp List.all_takeWhile character (List.mem_reverse.mp member)

/-- No blank is taken from the start of a text that starts with another character. -/
theorem dropWhile_isBlank_append {core : List Char} (nonempty : core ≠ [])
    (start : ∀ character, core.head? = some character → isBlank character = false)
    (rest : List Char) : (core ++ rest).dropWhile isBlank = core ++ rest := by
  cases core with
  | nil => contradiction
  | cons character others => simp [start character rfl]

/-- Trimming takes the blanks from around a text that starts and ends with other characters. -/
theorem trimBlanks_between {before core after : List Char} (nonempty : core ≠ [])
    (blankBefore : ∀ character ∈ before, isBlank character = true)
    (blankAfter : ∀ character ∈ after, isBlank character = true)
    (start : ∀ character, core.head? = some character → isBlank character = false)
    (finish : ∀ character, core.getLast? = some character → isBlank character = false) :
    trimBlanks (before ++ core ++ after) = core := by
  have blanksFirst : ∀ character ∈ after.reverse, isBlank character = true := by
    intro character member
    exact blankAfter character (List.mem_reverse.mp member)
  have keepFinish : core.reverse.dropWhile isBlank = core.reverse := by
    have kept : (core.reverse ++ []).dropWhile isBlank = core.reverse ++ [] :=
      dropWhile_isBlank_append (by simpa using nonempty) (by simpa using finish) []
    rwa [List.append_nil] at kept
  rw [trimBlanks, List.append_assoc, List.dropWhile_append_of_pos blankBefore,
    dropWhile_isBlank_append nonempty start, List.reverse_append,
    List.dropWhile_append_of_pos blanksFirst, keepFinish, List.reverse_reverse]

/-- The lower-case form of a character whose lower-case form is one ASCII letter, and the character
itself otherwise. -/
def foldCase (character : Char) : Char :=
  if character = '\u212A' then 'k' else character.toLower

/-- Whether a text is the given lower-case ASCII word, in any case. -/
def matchesWord (word : String) (text : List Char) : Bool :=
  text.map foldCase == word.toList

end Retained.Text
