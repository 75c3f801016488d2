/-!
# Alphabets of label parts

A label names a repository, a package path and a target. Each part has an ASCII alphabet of its own;
the package alphabet is the larger one where the two overlap in purpose, and the target alphabet
also holds the slash, because target names may be relative paths.
-/

namespace Retained.Label

/-- ASCII letters and digits. -/
def isWordCharacter (character : Char) : Bool :=
  character.isAlpha || character.isDigit

/-- Characters of a repository name. -/
def isRepositoryCharacter (character : Char) : Bool :=
  isWordCharacter character || "_-.+~".toList.contains character

/-- Characters of one segment of a package path. -/
def isSegmentCharacter (character : Char) : Bool :=
  isWordCharacter character || "_-.+=,@~ ".toList.contains character

/-- Characters of a target name. -/
def isTargetCharacter (character : Char) : Bool :=
  isWordCharacter character || "_-.+=,@~/ !%^#$&()<>*?[]\x7b\x7d|;\x27".toList.contains character

/-- Every segment character may stand in a target name. -/
theorem isTargetCharacter_of_segment {character : Char}
    (allowed : isSegmentCharacter character = true) : isTargetCharacter character = true := by
  have marks : "_-.+=,@~ ".toList.all isTargetCharacter = true := by decide
  simp only [isSegmentCharacter, Bool.or_eq_true, List.contains_iff_mem] at allowed
  rcases allowed with word | mark
  · simp only [isTargetCharacter, word, Bool.true_or]
  · exact List.all_eq_true.mp marks character mark

/-- Neither separator of a label may stand in a package segment. -/
theorem isSegmentCharacter_separators :
    isSegmentCharacter '/' = false ∧ isSegmentCharacter ':' = false := by
  decide

/-- A target name never holds the colon that stands before it. -/
theorem isTargetCharacter_colon : isTargetCharacter ':' = false := by
  decide

end Retained.Label
