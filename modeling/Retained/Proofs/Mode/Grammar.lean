import Mathlib.Data.List.Forall2
import Retained.Mode.Basic

/-!
# The grammar of modes

A mode is written as words between commas, a kind, and a subject, with colons in between. A word is
a name of a policy or display, the omission of a group, or a needle behind its mark; a kind may be
written in any case. The words are taken together by `Mode.Means`: the last policy, display and
needle count, and a group is left out if its omission stands anywhere. `Mode.Writes` says which
texts write a mode, and `Mode.Refuses` why a text writes none, with the causes in the order in which
they are looked for.
-/

namespace Retained

open Text

/-! ## Names -/

/-- The names of a policy. -/
def Policy.names : Policy → List String
  | isolated => ["isolated", "shallow"]
  | reachable => ["reachable", "deep"]
  | transitive => ["transitive"]

/-- A word is a policy exactly if it is one of its names. -/
theorem Policy.ofWord?_eq_some_iff {word : String} {policy : Policy} :
    ofWord? word = some policy ↔ word ∈ policy.names := by
  constructor
  · intro found
    unfold ofWord? at found
    split at found <;> cases found <;> decide
  · intro named
    cases policy <;> simp only [names, List.mem_cons, List.not_mem_nil, or_false] at named
    case isolated => rcases named with rfl | rfl <;> rfl
    case reachable => rcases named with rfl | rfl <;> rfl
    case transitive =>
      rw [named]
      rfl

/-- A word is a display exactly if it is its name. -/
theorem Display.ofWord?_eq_some_iff {word : String} {display : Display} :
    ofWord? word = some display ↔ word = display.render := by
  constructor
  · intro found
    unfold ofWord? at found
    split at found <;> cases found <;> rfl
  · rintro rfl
    exact ofWord?_render display

/-- A word leaves a group out exactly if it is its omission. -/
theorem ReportFlag.ofOmission?_eq_some_iff {word : String} {flag : ReportFlag} :
    ofOmission? word = some flag ↔ word = flag.omission := by
  constructor
  · intro found
    unfold ofOmission? at found
    split at found <;> cases found <;> rfl
  · rintro rfl
    exact ofOmission?_omission flag

/-- Whether a group takes part. -/
def ReportOptions.includes (report : ReportOptions) : ReportFlag → Bool
  | .transient => report.transient
  | .configuration => report.configuration
  | .precomputed => report.precomputed
  | .workspaceStatus => report.workspaceStatus

/-- Reports are known from the groups that take part. -/
theorem ReportOptions.ext_includes {left right : ReportOptions}
    (same : ∀ flag, left.includes flag = right.includes flag) : left = right := by
  cases left
  cases right
  simpa [includes, and_assoc] using And.intro (same .transient) (And.intro (same .configuration)
    (And.intro (same .precomputed) (same .workspaceStatus)))

/-- Just the groups that are not left out take part. -/
theorem ReportOptions.includes_without (omitted : List ReportFlag) (flag : ReportFlag) :
    (without omitted).includes flag = !omitted.contains flag := by
  cases flag <;> rfl

/-! ## Kinds -/

namespace Text

/-- A character has a letter as its lower-case form: it is the letter, its capital, or for `k` the
sign of the unit kelvin. -/
def IsCaseOf (letter character : Char) : Prop :=
  character = letter ∨ character = letter.toUpper ∨ letter = 'k' ∧ character = '\u212A'

/-- The code of the lower-case form of a character. -/
theorem toNat_toLower (character : Char) : character.toLower.toNat =
    if 65 ≤ character.toNat ∧ character.toNat ≤ 90 then character.toNat + 32
    else character.toNat := by
  have code : character.toNat = character.val.toNat := rfl
  unfold Char.toLower
  split
  · next capital =>
    have range : 65 ≤ character.toNat ∧ character.toNat ≤ 90 := capital
    rw [if_pos range]
    change (character.val + 32).toNat = _
    rw [UInt32.toNat_add, ← code]
    change (character.toNat + 32) % 2 ^ 32 = _
    omega
  · next other => exact (if_neg other).symm

/-- The code of the capital of a character. -/
theorem toNat_toUpper (character : Char) : character.toUpper.toNat =
    if 97 ≤ character.toNat ∧ character.toNat ≤ 122 then character.toNat - 32
    else character.toNat := by
  have code : character.toNat = character.val.toNat := rfl
  have down : ('A'.val - 'a'.val).toNat = 2 ^ 32 - 32 := by decide
  unfold Char.toUpper
  split
  · next small =>
    have range : 97 ≤ character.toNat ∧ character.toNat ≤ 122 := small
    rw [if_pos range]
    change (character.val + ('A'.val - 'a'.val)).toNat = _
    rw [UInt32.toNat_add, ← code, down]
    omega
  · next other => exact (if_neg other).symm

/-- Folding the case of a character gives a lower-case letter or an underscore exactly if the
character is in a case of it. -/
theorem foldCase_eq_iff {letter : Char} (plain : letter.isLower = true ∨ letter = '_')
    (character : Char) :
    foldCase character = letter ↔ IsCaseOf letter character := by
  have range : 97 ≤ letter.toNat ∧ letter.toNat ≤ 122 ∨ letter.toNat = 95 := by
    rcases plain with lower | rfl
    · left
      have bounds := (Bool.and_eq_true_iff).mp lower
      exact ⟨of_decide_eq_true bounds.1, of_decide_eq_true bounds.2⟩
    · right
      rfl
  have upper := toNat_toUpper letter
  have lower := toNat_toLower character
  have kelvin : '\u212A'.toNat = 8490 := rfl
  have small : 'k'.toNat = 107 := rfl
  unfold foldCase IsCaseOf
  by_cases isKelvin : character = '\u212A'
  · subst isKelvin
    simp only [if_true, and_true, ← Char.toNat_inj]
    split at upper <;> omega
  · rw [if_neg isKelvin]
    simp only [isKelvin, and_false, or_false, ← Char.toNat_inj]
    split at upper <;> split at lower <;> omega

/-- A text is folded to a word exactly if its characters are in cases of those of the word. -/
theorem matchesWord_iff {word : String}
    (plain : ∀ letter ∈ word.toList, letter.isLower = true ∨ letter = '_') (text : List Char) :
    matchesWord word text = true ↔ List.Forall₂ IsCaseOf word.toList text := by
  rw [matchesWord, beq_iff_eq]
  generalize word.toList = letters at plain ⊢
  induction letters generalizing text with
  | nil => simp
  | cons letter letters further =>
    rw [List.forall_mem_cons] at plain
    cases text with
    | nil => simp
    | cons character rest =>
      rw [List.map_cons, List.cons.injEq, foldCase_eq_iff plain.1, further rest plain.2,
        List.forall₂_cons]

end Text

namespace SubjectKind

/-- A text is the word of a kind in any case. -/
def Spells (kind : SubjectKind) (text : List Char) : Prop :=
  List.Forall₂ IsCaseOf kind.render.toList text

/-- A text matches the word of a kind exactly if it spells it. -/
theorem matchesWord_render_iff {kind : SubjectKind} {text : List Char} :
    matchesWord kind.render text = true ↔ kind.Spells text := by
  have plain : kind.render.toList.all (fun letter => letter.isLower || letter == '_') = true := by
    cases kind <;> decide
  apply matchesWord_iff
  simpa using plain

/-- Kinds are known from their words. -/
theorem render_injective {left right : SubjectKind} (same : left.render = right.render) :
    left = right := by
  have named := ofWord?_render left
  rw [same, ofWord?_render, Option.some.injEq] at named
  exact named.symm

/-- A word is a kind exactly if it spells it. -/
theorem ofWord?_eq_some_iff {word : String} {kind : SubjectKind} :
    ofWord? word = some kind ↔ kind.Spells word.toList := by
  have sound : ∀ other, ofWord? word = some other →
      matchesWord other.render word.toList = true := by
    intro other found
    have isMatch := List.find?_some found
    exact isMatch
  rw [← matchesWord_render_iff]
  constructor
  · exact sound kind
  · intro isMatch
    have listed : kind ∈ [starlarkModule, package, configuredTarget] := by
      cases kind <;> decide
    cases found : ofWord? word with
    | none => exact absurd isMatch (List.find?_eq_none.mp found kind listed)
    | some other =>
      have alsoMatch := sound other found
      rw [matchesWord, beq_iff_eq] at isMatch alsoMatch
      rw [render_injective (String.toList_inj.mp (alsoMatch.symm.trans isMatch))]

/-- A word is no kind exactly if it spells none. -/
theorem ofWord?_eq_none_iff {word : String} :
    ofWord? word = none ↔ ∀ kind : SubjectKind, ¬ kind.Spells word.toList := by
  simp only [Option.eq_none_iff_forall_ne_some, ne_eq, ofWord?_eq_some_iff]

end SubjectKind

/-! ## Words -/

namespace ModeWord

/-- The words of a mode. -/
inductive Writes : List Char → ModeWord → Prop where
  /-- A name of a policy. -/
  | policy {policy : Policy} {name : String} (named : name ∈ policy.names) :
      Writes name.toList (.policy policy)
  /-- The name of a display. -/
  | display (display : Display) : Writes display.render.toList (.display display)
  /-- A text behind the mark of needles. -/
  | needle (text : String) : Writes (needleMark ++ text.toList) (.needle text)
  /-- The omission of a group. -/
  | omission (flag : ReportFlag) : Writes flag.omission.toList (.omit flag)

/-- A word is a needle exactly if that stands behind the mark. -/
theorem needle?_eq_some_iff {word : List Char} {text : String} :
    needle? word = some text ↔ word = needleMark ++ text.toList := by
  unfold needle?
  constructor
  · intro found
    split at found
    · next marked =>
      obtain ⟨rest, rfl⟩ := List.isPrefixOf_iff_prefix.mp marked
      rw [List.drop_left, Option.some.injEq] at found
      rw [← found, String.toList_ofList]
    · cases found
  · rintro rfl
    have marked : needleMark.isPrefixOf (needleMark ++ text.toList) = true :=
      List.isPrefixOf_iff_prefix.mpr (List.prefix_append _ _)
    rw [if_pos marked, List.drop_left, String.ofList_toList]

/-- A word means what it writes. -/
theorem read?_eq_some_iff {word : List Char} {meaning : ModeWord} :
    read? word = some meaning ↔ Writes word meaning := by
  constructor
  · intro found
    have text := String.toList_ofList (l := word)
    simp only [read?, Option.orElse_eq_orElse, Option.orElse_eq_or, Option.or_eq_some_iff,
      Option.map_eq_some_iff] at found
    rcases found with ⟨needle, marked, rfl⟩ | ⟨_, ⟨policy, named, rfl⟩ |
      ⟨_, ⟨display, named, rfl⟩ | ⟨_, flag, named, rfl⟩⟩⟩
    · rw [needle?_eq_some_iff.mp marked]
      exact .needle needle
    · rw [← text]
      exact .policy (Policy.ofWord?_eq_some_iff.mp named)
    · rw [← text, Display.ofWord?_eq_some_iff.mp named]
      exact .display display
    · rw [← text, ReportFlag.ofOmission?_eq_some_iff.mp named]
      exact .omission flag
  · intro writes
    cases writes with
    | @policy policy name named =>
      cases policy <;> simp only [Policy.names, List.mem_cons, List.not_mem_nil, or_false] at named
      case isolated => rcases named with rfl | rfl <;> rfl
      case reachable => rcases named with rfl | rfl <;> rfl
      case transitive =>
        rw [named]
        rfl
    | display display => cases display <;> rfl
    | needle text =>
      rw [read?, needle?_eq_some_iff.mpr rfl]
      rfl
    | omission flag => cases flag <;> rfl

/-- No word writes two meanings. -/
theorem Writes.unique {word : List Char} {left right : ModeWord} (first : Writes word left)
    (second : Writes word right) : left = right :=
  Option.some.inj ((read?_eq_some_iff.mpr first).symm.trans (read?_eq_some_iff.mpr second))

/-- A word that means nothing writes nothing. -/
theorem read?_eq_none_iff {word : List Char} :
    read? word = none ↔ ∀ meaning, ¬ Writes word meaning := by
  simp only [Option.eq_none_iff_forall_ne_some, ne_eq, read?_eq_some_iff]

/-- A meaning is the last of its sort. -/
def Last {α : Type} (sort : α → ModeWord) (value : α) (meanings : List ModeWord) : Prop :=
  ∃ earlier later, meanings = earlier ++ sort value :: later ∧ ∀ other, sort other ∉ later

end ModeWord

/-! ## Modes -/

namespace Mode

/-- A text is cut into fields between commas, a kind and a subject, with colons in between. -/
structure Cut (text : List Char) (fields : List (List Char)) (kind subject : List Char) : Prop where
  /-- The parts make up the text. -/
  whole : text = joinFields ',' fields ++ ':' :: (kind ++ ':' :: subject)
  /-- There is a field. -/
  filled : fields ≠ []
  /-- No field holds a comma or a colon. -/
  clean : ∀ field ∈ fields, ',' ∉ field ∧ ':' ∉ field
  /-- The kind holds no colon. -/
  kindClean : ':' ∉ kind

/-- What the words of a mode say about it. -/
structure Means (meanings : List ModeWord) (mode : Mode) : Prop where
  /-- The last policy counts. -/
  policy : ModeWord.Last .policy mode.policy meanings
  /-- The last display counts. -/
  display : ModeWord.Last .display mode.display meanings
  /-- The last needle counts, if there is one. -/
  needle : ∀ text, mode.needle = some text ↔ ModeWord.Last .needle text meanings
  /-- A group takes no part if it is left out anywhere. -/
  report : ∀ flag, mode.report.includes flag = false ↔ .omit flag ∈ meanings

/-- The texts that write a mode. -/
inductive Writes (text : List Char) (mode : Mode) : Prop where
  /-- Words for what the mode is, a spelling of its kind, and its subject. -/
  | cut {fields : List (List Char)} {meanings : List ModeWord} {kind : List Char}
      (cut : Cut text fields kind mode.subject.toList)
      (words : List.Forall₂ ModeWord.Writes fields meanings) (means : Means meanings mode)
      (spelled : mode.kind.Spells kind)

/-- What words and a kind lack, each of them with nothing lacking before it. -/
inductive Lacks (meanings : List ModeWord) (kind : List Char) : ModeError → Prop where
  /-- No word is a policy. -/
  | policy (missing : ∀ policy, .policy policy ∉ meanings) : Lacks meanings kind .missingPolicy
  /-- A word is a policy, and none is a display. -/
  | display (hasPolicy : ∃ policy, .policy policy ∈ meanings)
      (missing : ∀ display, .display display ∉ meanings) : Lacks meanings kind .missingDisplay
  /-- There are a policy and a display, and the kind is unknown. -/
  | kind (hasPolicy : ∃ policy, .policy policy ∈ meanings)
      (hasDisplay : ∃ display, .display display ∈ meanings)
      (unknown : ∀ named : SubjectKind, ¬ named.Spells kind) :
      Lacks meanings kind (.invalidSubjectKind (String.ofList kind))

/-- Why a text writes no mode. -/
inductive Refuses (input : String) : ModeError → Prop where
  /-- There are fewer than two colons. -/
  | malformed (colons : input.toList.count ':' < 2) : Refuses input (.malformed input)
  /-- A word means nothing, and every word before it something. -/
  | unrecognizedWord {earlier later : List (List Char)} {word kind subject : List Char}
      (cut : Cut input.toList (earlier ++ word :: later) kind subject)
      (known : ∀ field ∈ earlier, ∃ meaning, ModeWord.Writes field meaning)
      (unknown : ∀ meaning, ¬ ModeWord.Writes word meaning) :
      Refuses input (.unrecognizedWord (String.ofList word))
  /-- Every word means something, and together with the kind they are not enough. -/
  | lacking {fields : List (List Char)} {meanings : List ModeWord} {kind subject : List Char}
      {error : ModeError} (cut : Cut input.toList fields kind subject)
      (words : List.Forall₂ ModeWord.Writes fields meanings) (lacks : Lacks meanings kind error) :
      Refuses input error

/-! ## Cutting -/

/-- The parts of a text are those around its first two colons. -/
theorem parts?_eq_some_iff {text words kind subject : List Char} :
    parts? text = some (words, kind, subject) ↔
      text = words ++ ':' :: (kind ++ ':' :: subject) ∧ ':' ∉ words ∧ ':' ∉ kind := by
  simp only [parts?, Option.bind_eq_bind, Option.bind_eq_some_iff, Prod.exists,
    splitFirst?_eq_some_iff, Option.pure_def, Option.some.injEq, Prod.mk.injEq]
  constructor
  · rintro ⟨_, _, ⟨rfl, wordsClean⟩, _, _, ⟨rfl, kindClean⟩, rfl, rfl, rfl⟩
    exact ⟨rfl, wordsClean, kindClean⟩
  · rintro ⟨rfl, wordsClean, kindClean⟩
    exact ⟨_, _, ⟨rfl, wordsClean⟩, _, _, ⟨rfl, kindClean⟩, rfl, rfl, rfl⟩

/-- A text has no parts exactly if it has fewer than two colons. -/
theorem parts?_eq_none_iff {text : List Char} : parts? text = none ↔ text.count ':' < 2 := by
  unfold parts?
  cases first : splitFirst? ':' text with
  | none =>
    have absent := List.count_eq_zero.mpr (splitFirst?_eq_none_iff.mp first)
    exact iff_of_true rfl (absent ▸ Nat.two_pos)
  | some halves =>
    obtain ⟨words, rest⟩ := halves
    obtain ⟨rfl, wordsClean⟩ := splitFirst?_eq_some_iff.mp first
    have count : (words ++ ':' :: rest).count ':' = rest.count ':' + 1 := by
      rw [List.count_append, List.count_cons_self, List.count_eq_zero.mpr wordsClean, Nat.zero_add]
    rw [count, Nat.succ_lt_succ_iff, Nat.lt_one_iff, List.count_eq_zero, ← splitFirst?_eq_none_iff]
    cases second : splitFirst? ':' rest with
    | none => simp [second]
    | some halves => simp [second]

/-- The cuts of a text into fields are those of its parts at the commas. -/
theorem cut_iff {text kind subject : List Char} {fields : List (List Char)} :
    Cut text fields kind subject ↔
      ∃ words, parts? text = some (words, kind, subject) ∧ splitFields ',' words = fields := by
  constructor
  · intro cut
    refine ⟨joinFields ',' fields, parts?_eq_some_iff.mpr ⟨cut.whole, ?_, cut.kindClean⟩,
      splitFields_joinFields cut.filled fun field member => (cut.clean field member).1⟩
    intro colon
    rcases mem_joinFields colon with isComma | ⟨field, member, inside⟩
    · revert isComma
      decide
    · exact (cut.clean field member).2 inside
  · rintro ⟨words, parts, rfl⟩
    obtain ⟨whole, wordsClean, kindClean⟩ := parts?_eq_some_iff.mp parts
    have joined := joinFields_splitFields ',' words
    constructor
    case whole => rw [joined, whole]
    case filled => exact splitFields_ne_nil ',' words
    case clean =>
      intro field member
      refine ⟨not_mem_of_mem_splitFields member, fun colon => wordsClean ?_⟩
      rw [← joined]
      exact mem_joinFields_of_mem member colon
    case kindClean => exact kindClean

end Mode

end Retained
