import Retained.Proofs.Label.Grammar

/-!
# Reading packages and labels

Reading accepts a text exactly if the grammar derives it, and returns what the grammar says that it
names. What is read is printed in the grammar again, for the same value, so reading undoes printing
and no two values that were read print alike.
-/

namespace Retained

open Text

namespace Label

/-! ## The repository in front -/

/-- The repository of a text is what leads its path, or the main one if the text starts neither with
an `@` nor with two slashes. -/
theorem splitRepository_eq_ok_iff {text repository rest : List Char} :
    splitRepository text = .ok (repository, rest) ↔
      (∃ lead, Leads lead repository ∧ text = lead ++ rest) ∨
        repository = [] ∧ rest = text ∧ text.head? ≠ some '@' ∧ ¬ ['/', '/'] <+: text := by
  constructor
  · intro split
    unfold splitRepository at split
    split at split
    · next text =>
      split at split
      · cases split
      · next before after cut =>
        split at split
        · next alphabet =>
          cases split
          refine Or.inl ⟨'@' :: repository ++ ['/', '/'],
            .external (List.all_eq_true.mp alphabet), ?_⟩
          rw [eq_of_splitSlashes? cut]
          simp
        · cases split
    · cases split
      exact Or.inl ⟨['/', '/'], .main, rfl⟩
    · next named single =>
      cases split
      refine Or.inr ⟨rfl, rfl, ?_, ?_⟩
      · intro leading
        obtain ⟨others, rfl⟩ := List.head?_eq_some_iff.mp leading
        exact named others rfl
      · intro double
        obtain ⟨others, rfl⟩ := double
        exact single others rfl
  · intro either
    rcases either with ⟨lead, leads, rfl⟩ | ⟨rfl, rfl, unnamed, single⟩
    · cases leads with
      | main => rfl
      | external valid =>
        have alphabet : repository.all isRepositoryCharacter = true := List.all_eq_true.mpr valid
        have cut := splitSlashes?_append rest valid.slash_not_mem
        simp [splitRepository, cut, alphabet]
    · unfold splitRepository
      split
      · exact absurd rfl unnamed
      · next others => exact absurd ⟨others, rfl⟩ single
      · rfl

/-- A text starts like a label exactly if it starts with an `@` or with two slashes. -/
theorem startsAbsolute_iff {text : List Char} :
    startsAbsolute text = true ↔ text.head? = some '@' ∨ ['/', '/'] <+: text := by
  unfold startsAbsolute
  split
  · simp
  · simp
  · next named single =>
    refine iff_of_false Bool.false_ne_true ?_
    intro either
    rcases either with leading | ⟨rest, rfl⟩
    · obtain ⟨rest, rfl⟩ := List.head?_eq_some_iff.mp leading
      exact named rest rfl
    · exact single rest rfl

/-- What leads a path starts like a label. -/
theorem Leads.startsAbsolute {lead repository : List Char} (leads : Leads lead repository)
    (rest : List Char) : startsAbsolute (lead ++ rest) = true := by
  cases leads <;> rfl

end Label

open Label

/-! ## Packages -/

/-- Reading a package accepts the texts that name one, each for the package that it names. -/
theorem PackageId.read_eq_ok_iff {text : List Char} {package : PackageId} :
    read text = .ok package ↔ Writes text package := by
  simp only [read, bind_eq_ok_iff]
  constructor
  · intro accepted
    obtain ⟨⟨repository, path⟩, split, _, checked, made⟩ := accepted
    have isPath := checkPath_eq_ok_iff.mp checked
    cases made
    rcases splitRepository_eq_ok_iff.mp split with ⟨lead, leads, rfl⟩ | ⟨rfl, rfl, start, _⟩
    · exact .absolute leads isPath
    · exact .bare isPath start
  · intro writes
    cases writes with
    | @absolute lead repository path leads isPath =>
      have split : splitRepository (lead ++ path) = .ok (repository, path) :=
        splitRepository_eq_ok_iff.mpr (Or.inl ⟨lead, leads, rfl⟩)
      exact ⟨(repository, path), split, (), checkPath_eq_ok_iff.mpr isPath, rfl⟩
    | bare isPath start =>
      have single : ¬ ['/', '/'] <+: text := by
        intro double
        obtain ⟨rest, rfl⟩ := double
        exact isPath.start_ne_slash rfl
      have split : splitRepository text = .ok ([], text) :=
        splitRepository_eq_ok_iff.mpr (Or.inr ⟨rfl, rfl, start, single⟩)
      exact ⟨([], text), split, (), checkPath_eq_ok_iff.mpr isPath, rfl⟩

/-- Parsing a package accepts the texts that name one, each for the package that it names. -/
theorem PackageId.parse_eq_ok_iff {input : String} {package : PackageId} :
    parse input = .ok package ↔ Writes input.toList package := by
  rw [parse, mapError_eq_ok_iff, read_eq_ok_iff]

namespace Label

/-! ## Labels -/

/-- The last segment of joined segments is the last of them. -/
theorem lastSegment_segments {segments : List (List Char)} {last : List Char}
    (clean : '/' ∉ last) : lastSegment (joinFields '/' (segments ++ [last])) = last := by
  unfold lastSegment
  by_cases empty : segments = []
  · rw [empty, List.nil_append, joinFields, splitLast?_eq_none_iff.mpr clean]
  · rw [joinFields_concat empty, splitLast?_append _ clean]

/-- The path and the target name of a text are on the two sides of its first colon, or the name is
the last segment of the text. -/
theorem splitTarget_eq_ok_iff {text path name : List Char} :
    splitTarget text = .ok (path, name) ↔
      (text = path ++ ':' :: name ∧ ':' ∉ path) ∨
        ':' ∉ text ∧ path = text ∧ name = lastSegment text ∧ name ≠ [] := by
  unfold splitTarget
  cases cut : splitFirst? ':' text with
  | some halves =>
    obtain ⟨before, after⟩ := halves
    have found : ':' ∈ text := by
      rw [(splitFirst?_eq_some_iff.mp cut).1]
      simp
    rw [or_iff_left fun unnamed => unnamed.1 found, ← splitFirst?_eq_some_iff, cut]
    simp
  | none =>
    have absent := splitFirst?_eq_none_iff.mp cut
    have unsplit : ¬ (text = path ++ ':' :: name ∧ ':' ∉ path) := by
      intro split
      apply absent
      rw [split.1]
      simp
    rw [or_iff_right unsplit, and_iff_right absent]
    by_cases empty : lastSegment text = []
    · simp [empty]
    · have filled : (lastSegment text).isEmpty = false := List.isEmpty_eq_false_iff.mpr empty
      simp only [filled, Bool.false_eq_true, if_false, Except.ok.injEq, Prod.mk.injEq]
      constructor
      · rintro ⟨rfl, rfl⟩
        exact ⟨rfl, rfl, empty⟩
      · rintro ⟨rfl, rfl, _⟩
        exact ⟨rfl, rfl⟩

/-- A text that leads with a repository is read part by part. -/
theorem read_eq_ok_iff_parts {text : List Char} {label : Label} :
    read text = .ok label ↔ ∃ lead repository rest path name,
      Leads lead repository ∧ text = lead ++ rest ∧ splitTarget rest = .ok (path, name) ∧
        IsPath path ∧ IsName name ∧
        label = {
          package := { repository := String.ofList repository, path := String.ofList path }
          name := String.ofList name } := by
  unfold read
  constructor
  · intro accepted
    split at accepted
    · next absolute =>
      simp only [bind_eq_ok_iff] at accepted
      obtain ⟨⟨repository, rest⟩, front, ⟨path, name⟩, back, _, pathChecked, _, nameChecked,
        made⟩ := accepted
      have isPath := checkPath_eq_ok_iff.mp pathChecked
      have isName := checkName_eq_ok_iff.mp nameChecked
      cases made
      rcases splitRepository_eq_ok_iff.mp front with ⟨lead, leads, equal⟩ | ⟨_, _, unnamed, single⟩
      · exact ⟨lead, repository, rest, path, name, leads, equal, back, isPath, isName, rfl⟩
      · exact absurd (startsAbsolute_iff.mp absolute) (not_or.mpr ⟨unnamed, single⟩)
    · cases accepted
  · intro parts
    obtain ⟨lead, repository, rest, path, name, leads, rfl, back, isPath, isName, rfl⟩ := parts
    have front : splitRepository (lead ++ rest) = .ok (repository, rest) :=
      splitRepository_eq_ok_iff.mpr (Or.inl ⟨lead, leads, rfl⟩)
    rw [if_pos (leads.startsAbsolute rest)]
    simp only [bind_eq_ok_iff]
    exact ⟨(repository, rest), front, (path, name), back, (), checkPath_eq_ok_iff.mpr isPath, (),
      checkName_eq_ok_iff.mpr isName, rfl⟩

/-- Reading a label accepts the texts that name one, each for the label that it names. -/
theorem read_eq_ok_iff {text : List Char} {label : Label} :
    read text = .ok label ↔ Writes text label := by
  rw [read_eq_ok_iff_parts]
  constructor
  · intro parts
    obtain ⟨lead, repository, rest, path, name, leads, rfl, back, isPath, isName, rfl⟩ := parts
    rcases splitTarget_eq_ok_iff.mp back with ⟨rfl, _⟩ | ⟨_, rfl, rfl, filled⟩
    · rw [← List.append_assoc]
      exact .named leads isPath isName
    · have nonempty : path ≠ [] := by
        intro empty
        rw [empty] at filled
        exact filled rfl
      obtain ⟨segments, last, valid, rfl⟩ := isPath.exists_concat nonempty
      have lastValid := valid last (List.mem_append_right segments List.mem_cons_self)
      rw [lastSegment_segments lastValid.slash_not_mem]
      exact .unnamed leads valid
  · intro writes
    cases writes with
    | @named lead repository path name leads isPath isName =>
      have back : splitTarget (path ++ ':' :: name) = .ok (path, name) :=
        splitTarget_eq_ok_iff.mpr (Or.inl ⟨rfl, isPath.colon_not_mem⟩)
      exact ⟨lead, repository, path ++ ':' :: name, path, name, leads, List.append_assoc .., back,
        isPath, isName, rfl⟩
    | @unnamed lead repository last segments leads valid =>
      have isPath := isPath_joinFields valid
      have lastValid := valid last (List.mem_append_right segments List.mem_cons_self)
      have named : last = lastSegment (joinFields '/' (segments ++ [last])) :=
        (lastSegment_segments lastValid.slash_not_mem).symm
      have back := splitTarget_eq_ok_iff.mpr
        (Or.inr ⟨isPath.colon_not_mem, rfl, named, lastValid.filled⟩)
      exact ⟨lead, repository, joinFields '/' (segments ++ [last]), _, last, leads, rfl, back,
        isPath, lastValid.isName, rfl⟩

/-- Parsing a label accepts the texts that name one, each for the label that it names. -/
theorem parse_eq_ok_iff {input : String} {label : Label} :
    parse input = .ok label ↔ Writes input.toList label := by
  rw [parse, mapError_eq_ok_iff, read_eq_ok_iff]

end Label

end Retained
