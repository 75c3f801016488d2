import Retained.Proofs.Checks
import Retained.Proofs.Mode.Grammar

/-!
# Reading modes

Reading a mode accepts a text exactly if it writes a mode, and returns that mode; it refuses every
other text, for the first of the causes that applies. Which words count is read off the list of
their meanings: the last of the meanings of one sort is what reading keeps of that sort.
-/

namespace Retained

open Text

namespace ModeWord

/-! ## All words -/

/-- The words are read exactly if each writes its meaning. -/
theorem readAll_eq_ok_iff {fields : List (List Char)} {meanings : List ModeWord} :
    readAll fields = .ok meanings ↔ List.Forall₂ Writes fields meanings := by
  induction fields generalizing meanings with
  | nil => simp [readAll, eq_comm]
  | cons field fields further =>
    rw [readAll, List.forall₂_cons_left_iff]
    cases meant : read? field with
    | none =>
      have unknown := read?_eq_none_iff.mp meant
      simp [unknown]
    | some meaning =>
      have writes := read?_eq_some_iff.mp meant
      refine map_eq_ok_iff.trans ?_
      constructor
      · rintro ⟨others, read, rfl⟩
        exact ⟨meaning, others, writes, further.mp read, rfl⟩
      · rintro ⟨other, others, isOther, rest, rfl⟩
        exact ⟨others, further.mpr rest, congrArg (· :: others) (writes.unique isOther)⟩

/-- Reading the words fails at the first of them that means nothing, and tells it. -/
theorem readAll_eq_error_iff {fields : List (List Char)} {error : ModeError} :
    readAll fields = .error error ↔ ∃ earlier word later, fields = earlier ++ word :: later ∧
      (∀ field ∈ earlier, ∃ meaning, Writes field meaning) ∧ (∀ meaning, ¬ Writes word meaning) ∧
        error = .unrecognizedWord (String.ofList word) := by
  induction fields with
  | nil => simp [readAll]
  | cons field fields further =>
    rw [readAll]
    cases meant : read? field with
    | none =>
      have unknown := read?_eq_none_iff.mp meant
      constructor
      · intro refused
        cases refused
        exact ⟨[], field, fields, rfl, nofun, unknown, rfl⟩
      · rintro ⟨earlier, word, later, equal, known, _, rfl⟩
        cases earlier with
        | nil =>
          cases equal
          rfl
        | cons first others =>
          cases equal
          obtain ⟨meaning, writes⟩ := known _ List.mem_cons_self
          exact absurd writes (unknown meaning)
    | some meaning =>
      have writes := read?_eq_some_iff.mp meant
      refine (map_eq_error_iff.trans further).trans ?_
      constructor
      · rintro ⟨earlier, word, later, rfl, known, unknown, rfl⟩
        refine ⟨field :: earlier, word, later, rfl, ?_, unknown, rfl⟩
        exact List.forall_mem_cons.mpr ⟨⟨meaning, writes⟩, known⟩
      · rintro ⟨earlier, word, later, equal, known, unknown, rfl⟩
        cases earlier with
        | nil =>
          cases equal
          exact absurd writes (unknown meaning)
        | cons first others =>
          cases equal
          exact ⟨others, word, later, rfl, (List.forall_mem_cons.mp known).2, unknown, rfl⟩

/-! ## The last word of a sort -/

/-- Selecting keeps just the values of one sort. -/
def Selects {α : Type} (select? : ModeWord → Option α) (sort : α → ModeWord) : Prop :=
  ∀ meaning value, select? meaning = some value ↔ meaning = sort value

/-- The policies are selected. -/
theorem selects_policy : Selects policy? .policy := by
  intro meaning named
  cases meaning <;> simp [policy?]

/-- The displays are selected. -/
theorem selects_display : Selects display? .display := by
  intro meaning named
  cases meaning <;> simp [display?]

/-- The needles are selected. -/
theorem selects_needle : Selects needleText? .needle := by
  intro meaning text
  cases meaning <;> simp [needleText?]

/-- The groups to leave out are selected. -/
theorem selects_omit : Selects omitted? .omit := by
  intro meaning flag
  cases meaning <;> simp [omitted?]

namespace Selects

variable {α : Type} {sort : α → ModeWord} {select? : ModeWord → Option α} {meanings : List ModeWord}

/-- What is selected from some words are the values of the sort among them. -/
theorem mem_filterMap (selects : Selects select? sort) {value : α} :
    value ∈ meanings.filterMap select? ↔ sort value ∈ meanings := by
  rw [List.mem_filterMap]
  constructor
  · rintro ⟨meaning, member, isValue⟩
    rwa [(selects meaning value).mp isValue] at member
  · intro member
    exact ⟨sort value, member, (selects _ value).mpr rfl⟩

/-- Nothing is selected exactly if no word is of the sort. -/
theorem filterMap_eq_nil_iff (selects : Selects select? sort) :
    meanings.filterMap select? = [] ↔ ∀ value, sort value ∉ meanings := by
  rw [List.eq_nil_iff_forall_not_mem]
  exact forall_congr' fun value => not_congr selects.mem_filterMap

/-- The last that is selected is the last of the sort. -/
theorem getLast?_eq_some_iff (selects : Selects select? sort) {value : α} :
    (meanings.filterMap select?).getLast? = some value ↔ Last sort value meanings := by
  constructor
  · intro last
    obtain ⟨front, kept⟩ := List.getLast?_eq_some_iff.mp last
    obtain ⟨before, after, rfl, _, ending⟩ := List.filterMap_eq_append_iff.mp kept
    obtain ⟨skipped, meaning, later, rfl, _, isValue, rest⟩ := List.filterMap_eq_cons_iff.mp ending
    refine ⟨before ++ skipped, later, ?_, selects.filterMap_eq_nil_iff.mp rest⟩
    rw [(selects meaning value).mp isValue, List.append_assoc]
  · rintro ⟨earlier, later, rfl, none⟩
    have isValue := (selects (sort value) value).mpr rfl
    have rest : later.filterMap select? = [] := selects.filterMap_eq_nil_iff.mpr none
    rw [List.filterMap_append, List.filterMap_cons_some isValue, rest, List.getLast?_concat]

/-- There is no last exactly if no word is of the sort. -/
theorem getLast?_eq_none_iff (selects : Selects select? sort) :
    (meanings.filterMap select?).getLast? = none ↔ ∀ value, sort value ∉ meanings := by
  rw [List.getLast?_eq_none_iff, selects.filterMap_eq_nil_iff]

/-- There is a last exactly if a word is of the sort. -/
theorem exists_getLast? (selects : Selects select? sort) :
    (∃ value, (meanings.filterMap select?).getLast? = some value) ↔
      ∃ value, sort value ∈ meanings := by
  rw [← Option.ne_none_iff_exists', ne_eq, selects.getLast?_eq_none_iff]
  simp only [not_forall, not_not]

end Selects

end ModeWord

namespace Mode

/-! ## Words and a kind together -/

/-- Modes are determined by what the words say about them, as reading keeps it. -/
theorem means_iff {meanings : List ModeWord} {mode : Mode} :
    Means meanings mode ↔
      (meanings.filterMap ModeWord.policy?).getLast? = some mode.policy ∧
      (meanings.filterMap ModeWord.display?).getLast? = some mode.display ∧
      (meanings.filterMap ModeWord.needleText?).getLast? = mode.needle ∧
      ReportOptions.without (meanings.filterMap ModeWord.omitted?) = mode.report := by
  have needle : ∀ text, (meanings.filterMap ModeWord.needleText?).getLast? = some text ↔
      ModeWord.Last .needle text meanings :=
    fun _ => ModeWord.selects_needle.getLast?_eq_some_iff
  have report : ∀ flag,
      (ReportOptions.without (meanings.filterMap ModeWord.omitted?)).includes flag = false ↔
        .omit flag ∈ meanings := by
    intro flag
    rw [ReportOptions.includes_without, Bool.not_eq_false', List.contains_iff_mem,
      ModeWord.selects_omit.mem_filterMap]
  constructor
  · intro means
    refine ⟨?_, ?_, ?_, ?_⟩
    · exact ModeWord.selects_policy.getLast?_eq_some_iff.mpr means.policy
    · exact ModeWord.selects_display.getLast?_eq_some_iff.mpr means.display
    · exact Option.ext fun text => (needle text).trans (means.needle text).symm
    · apply ReportOptions.ext_includes
      intro flag
      exact Bool.eq_iff_iff.mpr (by simp [← Bool.not_eq_false, report, means.report])
  · rintro ⟨policy, display, isNeedle, isReport⟩
    constructor
    case policy => exact ModeWord.selects_policy.getLast?_eq_some_iff.mp policy
    case display => exact ModeWord.selects_display.getLast?_eq_some_iff.mp display
    case needle => exact isNeedle ▸ needle
    case report => exact isReport ▸ report

/-- The mode of some words, a kind and a subject. -/
def assemble (meanings : List ModeWord) (kind subject : List Char) : Except ModeError Mode := do
  let some policy := (meanings.filterMap ModeWord.policy?).getLast? | throw .missingPolicy
  let some display := (meanings.filterMap ModeWord.display?).getLast? | throw .missingDisplay
  let some named := SubjectKind.ofWord? (String.ofList kind)
    | throw (.invalidSubjectKind (String.ofList kind))
  return {
    policy, display, kind := named
    needle := (meanings.filterMap ModeWord.needleText?).getLast?
    report := .without (meanings.filterMap ModeWord.omitted?)
    subject := String.ofList subject }

/-- The words and the kind make up the mode that they say and spell. -/
theorem assemble_eq_ok_iff {meanings : List ModeWord} {kind subject : List Char} {mode : Mode} :
    assemble meanings kind subject = .ok mode ↔
      Means meanings mode ∧ mode.kind.Spells kind ∧ subject = mode.subject.toList := by
  have named : ∀ named,
      SubjectKind.ofWord? (String.ofList kind) = some named ↔ named.Spells kind := by
    intro named
    rw [SubjectKind.ofWord?_eq_some_iff, String.toList_ofList]
  rw [means_iff, ← named]
  unfold assemble
  constructor
  · intro made
    split at made
    · next policy hasPolicy =>
      split at made
      · next display hasDisplay =>
        split at made
        · next kind hasKind =>
          cases made
          exact ⟨⟨hasPolicy, hasDisplay, rfl, rfl⟩, hasKind, String.toList_ofList.symm⟩
        · cases made
      · cases made
    · cases made
  · rintro ⟨⟨hasPolicy, hasDisplay, needle, report⟩, hasKind, rfl⟩
    simp only [hasPolicy, hasDisplay, hasKind, needle, report, String.ofList_toList]
    rfl

/-- The words and the kind make up no mode for the first thing that they lack. -/
theorem assemble_eq_error_iff {meanings : List ModeWord} {kind subject : List Char}
    {error : ModeError} :
    assemble meanings kind subject = .error error ↔ Lacks meanings kind error := by
  have noKind : SubjectKind.ofWord? (String.ofList kind) = none ↔
      ∀ named : SubjectKind, ¬ named.Spells kind := by
    rw [SubjectKind.ofWord?_eq_none_iff, String.toList_ofList]
  unfold assemble
  constructor
  · intro refused
    split at refused
    · next policy hasPolicy =>
      have hasPolicy := ModeWord.selects_policy.exists_getLast?.mp ⟨policy, hasPolicy⟩
      split at refused
      · next display hasDisplay =>
        have hasDisplay := ModeWord.selects_display.exists_getLast?.mp ⟨display, hasDisplay⟩
        split at refused
        · cases refused
        · next unknown =>
          cases refused
          exact .kind hasPolicy hasDisplay
            (noKind.mp (Option.eq_none_iff_forall_ne_some.mpr unknown))
      · next missing =>
        cases refused
        have absent := Option.eq_none_iff_forall_ne_some.mpr missing
        exact .display hasPolicy (ModeWord.selects_display.getLast?_eq_none_iff.mp absent)
    · next missing =>
      cases refused
      have absent := Option.eq_none_iff_forall_ne_some.mpr missing
      exact .policy (ModeWord.selects_policy.getLast?_eq_none_iff.mp absent)
  · intro lacks
    cases lacks with
    | policy missing =>
      rw [ModeWord.selects_policy.getLast?_eq_none_iff.mpr missing]
      rfl
    | display hasPolicy missing =>
      obtain ⟨policy, hasPolicy⟩ := ModeWord.selects_policy.exists_getLast?.mpr hasPolicy
      rw [hasPolicy, ModeWord.selects_display.getLast?_eq_none_iff.mpr missing]
      rfl
    | kind hasPolicy hasDisplay unknown =>
      obtain ⟨policy, hasPolicy⟩ := ModeWord.selects_policy.exists_getLast?.mpr hasPolicy
      obtain ⟨display, hasDisplay⟩ := ModeWord.selects_display.exists_getLast?.mpr hasDisplay
      rw [hasPolicy, hasDisplay, noKind.mpr unknown]
      rfl

/-! ## The whole text -/

/-- A text is parsed by reading its words and putting them together with its kind. -/
theorem parse_of_cut {input : String} {fields : List (List Char)} {kind subject : List Char}
    (cut : Cut input.toList fields kind subject) :
    parse input = ModeWord.readAll fields >>= fun meanings => assemble meanings kind subject := by
  obtain ⟨words, parts, rfl⟩ := cut_iff.mp cut
  rw [parse, parts]
  rfl

/-- Parsing refuses a text that cannot be cut, and no other before its words are read. -/
theorem parse_of_no_cut {input : String} (uncut : parts? input.toList = none) :
    parse input = .error (.malformed input) := by
  rw [parse, uncut]

/-- Parsing a mode accepts the texts that write one, each for the mode that it writes. -/
theorem parse_eq_ok_iff {input : String} {mode : Mode} :
    parse input = .ok mode ↔ Writes input.toList mode := by
  constructor
  · intro accepted
    cases parts : parts? input.toList with
    | none =>
      rw [parse_of_no_cut parts] at accepted
      cases accepted
    | some halves =>
      obtain ⟨text, kind, subject⟩ := halves
      have cut := cut_iff.mpr ⟨text, parts, rfl⟩
      rw [parse_of_cut cut, bind_eq_ok_iff] at accepted
      obtain ⟨meanings, read, made⟩ := accepted
      obtain ⟨means, spelled, rfl⟩ := assemble_eq_ok_iff.mp made
      exact .cut cut (ModeWord.readAll_eq_ok_iff.mp read) means spelled
  · rintro ⟨cut, words, means, spelled⟩
    rw [parse_of_cut cut, bind_eq_ok_iff]
    exact ⟨_, ModeWord.readAll_eq_ok_iff.mpr words,
      assemble_eq_ok_iff.mpr ⟨means, spelled, rfl⟩⟩

/-- Parsing a mode refuses the texts that write none, each for the first cause that applies. -/
theorem parse_eq_error_iff {input : String} {error : ModeError} :
    parse input = .error error ↔ Refuses input error := by
  constructor
  · intro refused
    cases parts : parts? input.toList with
    | none =>
      rw [parse_of_no_cut parts] at refused
      cases refused
      exact .malformed (parts?_eq_none_iff.mp parts)
    | some halves =>
      obtain ⟨text, kind, subject⟩ := halves
      have cut := cut_iff.mpr ⟨text, parts, rfl⟩
      rw [parse_of_cut cut, bind_eq_error_iff] at refused
      rcases refused with unread | ⟨meanings, read, unmade⟩
      · obtain ⟨earlier, word, later, equal, known, unknown, rfl⟩ :=
          ModeWord.readAll_eq_error_iff.mp unread
        exact .unrecognizedWord (equal ▸ cut) known unknown
      · exact .lacking cut (ModeWord.readAll_eq_ok_iff.mp read) (assemble_eq_error_iff.mp unmade)
  · intro refuses
    cases refuses with
    | malformed colons => exact parse_of_no_cut (parts?_eq_none_iff.mpr colons)
    | unrecognizedWord cut known unknown =>
      rw [parse_of_cut cut, bind_eq_error_iff]
      exact Or.inl (ModeWord.readAll_eq_error_iff.mpr ⟨_, _, _, rfl, known, unknown, rfl⟩)
    | lacking cut words lacks =>
      rw [parse_of_cut cut, bind_eq_error_iff]
      exact Or.inr ⟨_, ModeWord.readAll_eq_ok_iff.mpr words, assemble_eq_error_iff.mpr lacks⟩

end Mode

end Retained
