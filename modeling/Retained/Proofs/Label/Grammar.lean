import Retained.Label.Basic
import Retained.Proofs.Checks

/-!
# The grammar of packages and labels

A text names a package or a label exactly if the grammar derives it. A repository is the empty text
or made of its alphabet, a path is empty or made of segments with slashes between them, and a target
name is made of its alphabet with slashes only between parts. In front of the path stands `//` or
`@repository//`, which a package may leave out; behind it stand a colon and the target name, or
nothing if the last segment is the name (`PackageId.Writes`, `Label.Writes`). Reading finds its
separators independently of each other, as the first two slashes, the first colon and the last
slash; that it accepts the grammar and nothing else rests on which alphabets hold which separators.
-/

namespace Retained

open Text

namespace Label

/-! ## Parts -/

/-- A repository is the empty text, or made of its alphabet. -/
def IsRepository (text : List Char) : Prop :=
  ∀ character ∈ text, isRepositoryCharacter character = true

/-- A segment is made of its alphabet and is neither empty nor `.` nor `..`. -/
structure IsSegment (segment : List Char) : Prop where
  /-- It is not empty. -/
  filled : segment ≠ []
  /-- It neither stays nor climbs. -/
  level : segment ≠ ['.'] ∧ segment ≠ ['.', '.']
  /-- Its characters are those of segments. -/
  alphabet : ∀ character ∈ segment, isSegmentCharacter character = true

/-- A path is empty, or segments with slashes between them. -/
def IsPath (path : List Char) : Prop :=
  path = [] ∨ ∃ segments, segments ≠ [] ∧ (∀ segment ∈ segments, IsSegment segment) ∧
    path = joinFields '/' segments

/-- A target name is made of its alphabet, with single slashes inside it and parts that are neither
`.` nor `..`. -/
structure IsName (name : List Char) : Prop where
  /-- It is not empty. -/
  filled : name ≠ []
  /-- Its characters are those of target names. -/
  alphabet : ∀ character ∈ name, isTargetCharacter character = true
  /-- No slash leads it. -/
  start : name.head? ≠ some '/'
  /-- No slash ends it. -/
  finish : name.getLast? ≠ some '/'
  /-- No two slashes are together. -/
  single : ¬ ['/', '/'] <:+: name
  /-- None of its parts stays or climbs. -/
  level : ∀ part ∈ splitFields '/' name, part ≠ ['.'] ∧ part ≠ ['.', '.']

/-- What may stand in front of a path, and the repository that it names. -/
inductive Leads : List Char → List Char → Prop where
  /-- Two slashes, for the main repository. -/
  | main : Leads ['/', '/'] []
  /-- A repository between an `@` and two slashes. -/
  | external {repository : List Char} (valid : IsRepository repository) :
      Leads ('@' :: repository ++ ['/', '/']) repository

end Label

open Label

/-- The texts that name a package. -/
inductive PackageId.Writes : List Char → PackageId → Prop where
  /-- A path behind its repository. -/
  | absolute {lead repository path : List Char} (leads : Leads lead repository)
      (isPath : IsPath path) :
      Writes (lead ++ path) { repository := String.ofList repository, path := String.ofList path }
  /-- A bare path, which no `@` starts. -/
  | bare {path : List Char} (isPath : IsPath path) (start : path.head? ≠ some '@') :
      Writes path { repository := "", path := String.ofList path }

/-- The texts that name a label. -/
inductive Label.Writes : List Char → Label → Prop where
  /-- A path behind its repository, a colon, and a target name. -/
  | named {lead repository path name : List Char} (leads : Leads lead repository)
      (isPath : IsPath path) (isName : IsName name) :
      Writes (lead ++ path ++ ':' :: name)
        { package := { repository := String.ofList repository, path := String.ofList path }
          name := String.ofList name }
  /-- A path behind its repository, whose last segment is the target name. -/
  | unnamed {lead repository last : List Char} {segments : List (List Char)}
      (leads : Leads lead repository) (valid : ∀ segment ∈ segments ++ [last], IsSegment segment) :
      Writes (lead ++ joinFields '/' (segments ++ [last]))
        { package := {
            repository := String.ofList repository
            path := String.ofList (joinFields '/' (segments ++ [last])) }
          name := String.ofList last }

namespace Label

/-! ## Separators in the parts -/

/-- No repository holds a slash. -/
theorem IsRepository.slash_not_mem {repository : List Char} (valid : IsRepository repository) :
    '/' ∉ repository := by
  intro member
  have allowed := valid '/' member
  revert allowed
  decide

/-- No segment holds a slash. -/
theorem IsSegment.slash_not_mem {segment : List Char} (valid : IsSegment segment) :
    '/' ∉ segment := by
  intro member
  have allowed := valid.alphabet '/' member
  rw [isSegmentCharacter_separators.1] at allowed
  contradiction

/-- No segment holds a colon. -/
theorem IsSegment.colon_not_mem {segment : List Char} (valid : IsSegment segment) :
    ':' ∉ segment := by
  intro member
  have allowed := valid.alphabet ':' member
  rw [isSegmentCharacter_separators.2] at allowed
  contradiction

/-- No path holds a colon. -/
theorem IsPath.colon_not_mem {path : List Char} (isPath : IsPath path) : ':' ∉ path := by
  rcases isPath with rfl | ⟨segments, _, valid, rfl⟩
  · exact List.not_mem_nil
  · intro member
    rcases mem_joinFields member with isSlash | ⟨segment, isSegment, inside⟩
    · revert isSlash
      decide
    · exact (valid segment isSegment).colon_not_mem inside

/-- A path that is not empty has a last segment. -/
theorem IsPath.exists_concat {path : List Char} (isPath : IsPath path) (filled : path ≠ []) :
    ∃ segments last, (∀ segment ∈ segments ++ [last], IsSegment segment) ∧
      path = joinFields '/' (segments ++ [last]) := by
  obtain ⟨segments, nonempty, valid, equal⟩ := isPath.resolve_left filled
  have whole : segments.dropLast ++ [segments.getLast nonempty] = segments :=
    List.dropLast_concat_getLast nonempty
  refine ⟨segments.dropLast, segments.getLast nonempty, ?_, ?_⟩
  · rw [whole]
    exact valid
  · rw [whole]
    exact equal

/-- Segments with slashes between them are a path. -/
theorem isPath_joinFields {segments : List (List Char)} {last : List Char}
    (valid : ∀ segment ∈ segments ++ [last], IsSegment segment) :
    IsPath (joinFields '/' (segments ++ [last])) :=
  Or.inr ⟨segments ++ [last], List.append_ne_nil_of_right_ne_nil _ (List.cons_ne_nil last []),
    valid, rfl⟩

/-! ## Checking the parts -/

/-- Whether a part stays or climbs is a matter of two texts. -/
theorem isUpLevel_eq_false_iff {part : List Char} :
    isUpLevel part = false ↔ part ≠ ['.'] ∧ part ≠ ['.', '.'] := by
  simp [isUpLevel]

/-- The check of a segment lets just the segments pass. -/
theorem checkSegment_eq_ok_iff {segment : List Char} :
    checkSegment segment = .ok () ↔ IsSegment segment := by
  unfold checkSegment
  constructor
  · intro passed
    split at passed
    · cases passed
    · next filled =>
      split at passed
      · cases passed
      · next level =>
        split at passed
        · next alphabet =>
          constructor
          · simpa using filled
          · exact isUpLevel_eq_false_iff.mp (Bool.eq_false_iff.mpr level)
          · exact List.all_eq_true.mp alphabet
        · cases passed
  · intro isSegment
    have filled : segment.isEmpty = false := List.isEmpty_eq_false_iff.mpr isSegment.filled
    have level : isUpLevel segment = false := isUpLevel_eq_false_iff.mpr isSegment.level
    have alphabet : segment.all isSegmentCharacter = true := List.all_eq_true.mpr isSegment.alphabet
    simp [filled, level, alphabet]

/-- A slash at an end of a text leaves an empty field there. -/
theorem nil_mem_of_hasOuterSlash {text : List Char} (outer : hasOuterSlash text = true) :
    [] ∈ splitFields '/' text := by
  simp only [hasOuterSlash, Bool.or_eq_true, beq_iff_eq] at outer
  rcases outer with leading | trailing
  · obtain ⟨rest, rfl⟩ := List.head?_eq_some_iff.mp leading
    simp [splitFields]
  · obtain ⟨before, rfl⟩ := List.getLast?_eq_some_iff.mp trailing
    rw [splitFields_append]
    simp [splitFields]

/-- The fields of joined segments are the segments. -/
theorem splitFields_segments {segments : List (List Char)} (filled : segments ≠ [])
    (valid : ∀ segment ∈ segments, IsSegment segment) :
    splitFields '/' (joinFields '/' segments) = segments :=
  splitFields_joinFields filled fun segment member => (valid segment member).slash_not_mem

/-- No slash stands at an end of joined segments. -/
theorem hasOuterSlash_segments {segments : List (List Char)} (filled : segments ≠ [])
    (valid : ∀ segment ∈ segments, IsSegment segment) :
    hasOuterSlash (joinFields '/' segments) = false := by
  apply Bool.eq_false_iff.mpr
  intro outer
  have empty := nil_mem_of_hasOuterSlash outer
  rw [splitFields_segments filled valid] at empty
  exact (valid [] empty).filled rfl

/-- No path starts with a slash. -/
theorem IsPath.start_ne_slash {path : List Char} (isPath : IsPath path) :
    path.head? ≠ some '/' := by
  rcases isPath with rfl | ⟨segments, nonempty, valid, rfl⟩
  · nofun
  · intro leading
    have outer : hasOuterSlash (joinFields '/' segments) = true := by simp [hasOuterSlash, leading]
    rw [hasOuterSlash_segments nonempty valid] at outer
    contradiction

/-- The check of a path lets just the paths pass. -/
theorem checkPath_eq_ok_iff {path : List Char} : checkPath path = .ok () ↔ IsPath path := by
  unfold checkPath
  by_cases empty : path = []
  · exact iff_of_true (by simp [empty]) (Or.inl empty)
  have filled : path.isEmpty = false := List.isEmpty_eq_false_iff.mpr empty
  rw [filled, if_neg Bool.false_ne_true]
  constructor
  · intro passed
    split at passed
    · cases passed
    · have checked := forM_eq_ok_iff.mp passed
      refine Or.inr ⟨splitFields '/' path, splitFields_ne_nil '/' path, ?_,
        (joinFields_splitFields '/' path).symm⟩
      intro segment member
      exact checkSegment_eq_ok_iff.mp (checked segment member)
  · intro isPath
    obtain ⟨segments, nonempty, valid, rfl⟩ := isPath.resolve_left empty
    rw [hasOuterSlash_segments nonempty valid, if_neg Bool.false_ne_true,
      splitFields_segments nonempty valid, forM_eq_ok_iff]
    intro segment member
    exact checkSegment_eq_ok_iff.mpr (valid segment member)

/-! ## Two slashes in a row -/

/-- The first two slashes behind a text without a slash are found behind it. -/
theorem splitSlashes?_append {before : List Char} (after : List Char) (clean : '/' ∉ before) :
    splitSlashes? (before ++ '/' :: '/' :: after) = some (before, after) := by
  induction before with
  | nil => rfl
  | cons character others further =>
    rw [List.mem_cons, not_or] at clean
    rw [List.cons_append, splitSlashes?, further clean.2]
    · rfl
    · intro rest isSlash
      exact absurd isSlash.symm clean.1

/-- A cut at two slashes splits the text there. -/
theorem eq_of_splitSlashes? {text before after : List Char}
    (cut : splitSlashes? text = some (before, after)) : text = before ++ '/' :: '/' :: after := by
  induction text using splitSlashes?.induct generalizing before with
  | case1 rest =>
    cases cut
    rfl
  | case2 => cases cut
  | case3 character rest single further =>
    rw [splitSlashes?] at cut
    · simp only [Option.map_eq_some_iff, Prod.mk.injEq] at cut
      obtain ⟨⟨earlier, later⟩, found, rfl, rfl⟩ := cut
      rw [further found]
      rfl
    · exact single

/-- Two slashes in a row are found wherever they are. -/
theorem splitSlashes?_ne_none (before after : List Char) :
    splitSlashes? (before ++ '/' :: '/' :: after) ≠ none := by
  induction before with
  | nil => exact Option.some_ne_none _
  | cons character others further =>
    rw [List.cons_append]
    unfold splitSlashes?
    split
    · exact Option.some_ne_none _
    · next equal => cases equal
    · next equal =>
      cases equal
      simpa using further

/-- Two slashes in a row are found exactly if the text has them. -/
theorem hasDoubleSlash_eq_false_iff {text : List Char} :
    hasDoubleSlash text = false ↔ ¬ ['/', '/'] <:+: text := by
  rw [hasDoubleSlash, Option.isSome_eq_false_iff, Option.isNone_iff_eq_none]
  constructor
  · intro none double
    obtain ⟨before, after, equal⟩ := double
    rw [List.append_assoc] at equal
    rw [← equal] at none
    exact splitSlashes?_ne_none before after none
  · intro single
    apply Option.eq_none_iff_forall_ne_some.mpr
    intro halves cut
    apply single
    refine ⟨halves.1, halves.2, ?_⟩
    rw [List.append_assoc]
    exact (eq_of_splitSlashes? cut).symm

/-- The check of a target name lets just the target names pass. -/
theorem checkName_eq_ok_iff {name : List Char} : checkName name = .ok () ↔ IsName name := by
  have outer : hasOuterSlash name = false ↔ name.head? ≠ some '/' ∧ name.getLast? ≠ some '/' := by
    simp [hasOuterSlash]
  have level : (splitFields '/' name).any isUpLevel = false ↔
      ∀ part ∈ splitFields '/' name, part ≠ ['.'] ∧ part ≠ ['.', '.'] := by
    simp only [List.any_eq_false, Bool.not_eq_true, isUpLevel_eq_false_iff]
  unfold checkName
  constructor
  · intro passed
    split at passed
    · cases passed
    · next filled =>
      split at passed
      · cases passed
      · next slashes =>
        rw [Bool.not_eq_true, Bool.or_eq_false_iff] at slashes
        split at passed
        · cases passed
        · next parts =>
          split at passed
          · next alphabet =>
            constructor
            case filled => simpa using filled
            case alphabet => exact List.all_eq_true.mp alphabet
            case start => exact (outer.mp slashes.1).1
            case finish => exact (outer.mp slashes.1).2
            case single => exact hasDoubleSlash_eq_false_iff.mp slashes.2
            case level => exact level.mp (Bool.eq_false_iff.mpr parts)
          · cases passed
  · intro isName
    have filled : name.isEmpty = false := List.isEmpty_eq_false_iff.mpr isName.filled
    have ends : hasOuterSlash name = false := outer.mpr ⟨isName.start, isName.finish⟩
    have single : hasDoubleSlash name = false := hasDoubleSlash_eq_false_iff.mpr isName.single
    have parts := level.mpr isName.level
    have alphabet : name.all isTargetCharacter = true := List.all_eq_true.mpr isName.alphabet
    simp [filled, ends, single, parts, alphabet]

/-- A segment can name a target. -/
theorem IsSegment.isName {segment : List Char} (isSegment : IsSegment segment) :
    IsName segment := by
  have clean := isSegment.slash_not_mem
  constructor
  case filled => exact isSegment.filled
  case alphabet =>
    intro character member
    exact isTargetCharacter_of_segment (isSegment.alphabet character member)
  case start => exact fun leading => clean (List.mem_of_head? leading)
  case finish => exact fun trailing => clean (List.mem_of_getLast? trailing)
  case single => exact fun double => clean (double.subset List.mem_cons_self)
  case level =>
    rw [splitFields_of_not_mem clean]
    intro part member
    rw [List.mem_singleton.mp member]
    exact isSegment.level

end Label

end Retained
