import Retained.Proofs.Label.Reading

/-!
# Printing packages and labels

A package or label that was read has valid parts, and valid parts are printed as the grammar writes
them. So reading what was printed gives the same value again, and printing tells the values that
were read apart (`grammar_exact`).
-/

namespace Retained

open Text Label

/-! ## Packages -/

/-- A package is printed behind what leads its path. -/
theorem PackageId.render_leads {package : PackageId}
    (valid : IsRepository package.repository.toList) :
    ∃ lead, Leads lead package.repository.toList ∧
      package.render.toList = lead ++ package.path.toList := by
  by_cases main : package.repository = ""
  · rw [main]
    refine ⟨['/', '/'], .main, ?_⟩
    simp [render, main]
  · refine ⟨'@' :: package.repository.toList ++ ['/', '/'], .external valid, ?_⟩
    simp [render, main]

/-- What leads a path names a repository. -/
theorem Label.Leads.isRepository {lead repository : List Char} (leads : Leads lead repository) :
    IsRepository repository := by
  cases leads with
  | main => exact fun _ member => absurd member List.not_mem_nil
  | external valid => exact valid

/-- The parts of a package that a text names are valid. -/
theorem PackageId.Writes.parts {text : List Char} {package : PackageId}
    (writes : PackageId.Writes text package) :
    IsRepository package.repository.toList ∧ IsPath package.path.toList := by
  cases writes with
  | absolute leads isPath =>
    simp only [String.toList_ofList]
    exact ⟨leads.isRepository, isPath⟩
  | bare isPath start =>
    simp only [String.toList_ofList]
    exact ⟨Leads.main.isRepository, isPath⟩

/-- What a package with valid parts is printed as names it. -/
theorem PackageId.writes_render {package : PackageId}
    (isRepository : IsRepository package.repository.toList) (isPath : IsPath package.path.toList) :
    Writes package.render.toList package := by
  obtain ⟨lead, leads, printed⟩ := render_leads isRepository
  have writes := Writes.absolute leads isPath
  rw [String.ofList_toList, String.ofList_toList] at writes
  rw [printed]
  exact writes

/-- Reading undoes the printing of a package that was read. -/
theorem PackageId.parse_render {input : String} {package : PackageId}
    (parsed : parse input = .ok package) : parse package.render = .ok package := by
  have parts := (parse_eq_ok_iff.mp parsed).parts
  exact parse_eq_ok_iff.mpr (writes_render parts.1 parts.2)

namespace Label

/-! ## Labels -/

/-- The parts of a label that a text names are valid. -/
theorem Writes.parts {text : List Char} {label : Label} (writes : Label.Writes text label) :
    IsRepository label.package.repository.toList ∧ IsPath label.package.path.toList ∧
      IsName label.name.toList := by
  cases writes with
  | named leads isPath isName =>
    simp only [String.toList_ofList]
    exact ⟨leads.isRepository, isPath, isName⟩
  | unnamed leads valid =>
    simp only [String.toList_ofList]
    have lastValid := valid _ (List.mem_append_right _ List.mem_cons_self)
    exact ⟨leads.isRepository, isPath_joinFields valid, lastValid.isName⟩

/-- What a label with valid parts is printed as names it. -/
theorem writes_render {label : Label} (isRepository : IsRepository label.package.repository.toList)
    (isPath : IsPath label.package.path.toList) (isName : IsName label.name.toList) :
    Writes label.render.toList label := by
  obtain ⟨lead, leads, printed⟩ := PackageId.render_leads isRepository
  have writes := Writes.named leads isPath isName
  simp only [String.ofList_toList] at writes
  have whole :
      label.render.toList = lead ++ label.package.path.toList ++ ':' :: label.name.toList := by
    simp [render, printed]
  rw [whole]
  exact writes

/-- A text without a colon names what it names with its last segment behind a colon. -/
theorem Writes.colon {text : List Char} {label : Label} (writes : Label.Writes text label)
    (clean : ':' ∉ text) : Writes (text ++ ':' :: label.name.toList) label := by
  cases writes with
  | named leads isPath isName => simp at clean
  | unnamed leads valid =>
    rw [String.toList_ofList]
    have lastValid := valid _ (List.mem_append_right _ List.mem_cons_self)
    exact .named leads (isPath_joinFields valid) lastValid.isName

/-- Reading undoes the printing of a label that was read. -/
theorem parse_render {input : String} {label : Label}
    (parsed : parse input = .ok label) : parse label.render = .ok label := by
  have parts := (parse_eq_ok_iff.mp parsed).parts
  exact parse_eq_ok_iff.mpr (writes_render parts.1 parts.2.1 parts.2.2)

/-- The grammar of packages and labels is exact, and printing stays inside it: a text is read
exactly if the grammar derives it, as what the grammar says that it names; what was read is read
again from its print, so that equal prints are of equal values; and a target may be named after the
last segment of its path or by a colon and that segment. -/
theorem grammar_exact :
    (∀ input package,
      PackageId.parse input = .ok package ↔ PackageId.Writes input.toList package) ∧
    (∀ input label, Label.parse input = .ok label ↔ Label.Writes input.toList label) ∧
    (∀ input package, PackageId.parse input = .ok package →
      PackageId.parse package.render = .ok package) ∧
    (∀ input label, Label.parse input = .ok label → Label.parse label.render = .ok label) ∧
    (∀ input other package second, PackageId.parse input = .ok package →
      PackageId.parse other = .ok second → package.render = second.render → package = second) ∧
    (∀ input other label second, Label.parse input = .ok label →
      Label.parse other = .ok second → label.render = second.render → label = second) ∧
    (∀ input label, Label.parse input = .ok label → ':' ∉ input.toList →
      Label.parse (input ++ ":" ++ label.name) = .ok label) ∧
    ∃ label, Label.parse "//a/b" = .ok label ∧ Label.parse "//a/b:b" = .ok label := by
  refine ⟨?packages, ?labels, ?packageAgain, ?labelAgain, ?packageApart, ?labelApart, ?colon, ?two⟩
  case packages => exact fun _ _ => PackageId.parse_eq_ok_iff
  case labels => exact fun _ _ => parse_eq_ok_iff
  case packageAgain => exact fun _ _ => PackageId.parse_render
  case labelAgain => exact fun _ _ => parse_render
  case packageApart =>
    intro input other package second parsed parsedSecond same
    have again := PackageId.parse_render parsed
    rw [same, PackageId.parse_render parsedSecond] at again
    cases again
    rfl
  case labelApart =>
    intro input other label second parsed parsedSecond same
    have again := parse_render parsed
    rw [same, parse_render parsedSecond] at again
    cases again
    rfl
  case colon =>
    intro input label parsed clean
    have writes := (parse_eq_ok_iff.mp parsed).colon clean
    rw [parse_eq_ok_iff]
    simpa using writes
  case two => exact ⟨_, rfl, rfl⟩

/-- A label of an external repository, its print, and the target that its last segment names. -/
theorem grammar_exact_external :
    ∃ label, Label.parse "@rules//a/b" = .ok label ∧ label.render = "@rules//a/b:b" ∧
      Label.parse label.render = .ok label ∧
      Label.parse ("@rules//a/b" ++ ":" ++ "b") = .ok label := by
  obtain ⟨_, _, _, again, _, _, colon, _⟩ := grammar_exact
  have clean : ':' ∉ "@rules//a/b".toList := by decide
  exact ⟨_, rfl, by decide, again "@rules//a/b" _ rfl, colon "@rules//a/b" _ rfl clean⟩

end Label

end Retained
