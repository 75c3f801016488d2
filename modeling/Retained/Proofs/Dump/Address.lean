import Retained.Proofs.Configuration.Canonical
import Retained.Proofs.Dump.Outcome
import Retained.Proofs.Dump.Resolve
import Retained.Proofs.Label.Printing

/-!
# Addressing configured targets

The text of a configured target may be a label alone, for the target configuration, or the label
with a checksum start behind an `@`. Two labels of the grammar can stand in each other's way there:
a target name may hold an `@` in its last part, which is then read as a mark
(`label_alone_means_target`), and a whole checksum may be the start of another one
(`whole_checksum_addresses`). Neither ever picks a wrong target.
-/

namespace Retained

open Text Label

/-! ## The end of a label -/

namespace Label

/-- What separates the parts of a label. -/
def IsSeparator (character : Char) : Prop :=
  character = '/' ∨ character = ':'

/-- The last segment of a text is the text or stands behind its last slash. -/
theorem lastSegment_cases (text : List Char) : '/' ∉ lastSegment text ∧
    (text = lastSegment text ∨ ∃ before, text = before ++ '/' :: lastSegment text) := by
  unfold lastSegment
  cases cut : splitLast? '/' text with
  | none => exact ⟨splitLast?_eq_none_iff.mp cut, Or.inl rfl⟩
  | some halves =>
    have found := splitLast?_eq_some_iff.mp cut
    exact ⟨found.2, Or.inr ⟨halves.1, found.1⟩⟩

/-- The last part of a target name, which is what the text of a label ends in. -/
def ending (label : Label) : List Char :=
  lastSegment label.name.toList

/-- The last part of a target name holds no separator. -/
theorem Writes.ending_clean {text : List Char} {label : Label} (writes : Label.Writes text label) :
    ∀ character ∈ label.ending, ¬ IsSeparator character := by
  intro character member separates
  have isName := writes.parts.2.2
  rcases lastSegment_cases label.name.toList with ⟨clean, whole⟩
  rcases separates with rfl | rfl
  · exact clean member
  · have inside : ':' ∈ label.name.toList := by
      rcases whole with same | ⟨before, split⟩
      · rw [same]
        exact member
      · rw [split]
        exact List.mem_append_right before (List.mem_cons_of_mem '/' member)
    have allowed := isName.alphabet ':' inside
    rw [isTargetCharacter_colon] at allowed
    contradiction

/-- What leads a path ends with a slash. -/
theorem Leads.exists_slash {lead repository : List Char} (leads : Leads lead repository) :
    ∃ before, lead = before ++ ['/'] := by
  cases leads with
  | main => exact ⟨['/'], rfl⟩
  | external valid => exact ⟨'@' :: repository ++ ['/'], by simp⟩

/-- The text of a label has the last part of its target name behind its last separator. -/
theorem Writes.exists_ending {text : List Char} {label : Label} (writes : Label.Writes text label) :
    ∃ before separator, IsSeparator separator ∧ text = before ++ separator :: label.ending := by
  cases writes with
  | @named lead repository path name leads isPath isName =>
    rw [ending, String.toList_ofList]
    rcases (lastSegment_cases name).2 with same | ⟨before, split⟩
    · refine ⟨lead ++ path, ':', Or.inr rfl, ?_⟩
      rw [← same]
    · refine ⟨lead ++ path ++ ':' :: before, '/', Or.inl rfl, ?_⟩
      conv_lhs => rw [split]
      simp
  | @unnamed lead repository last segments leads valid =>
    have clean := (valid last (List.mem_append_right segments List.mem_cons_self)).slash_not_mem
    have single : lastSegment last = last := by
      rw [lastSegment, splitLast?_eq_none_iff.mpr clean]
    rw [ending, String.toList_ofList, single]
    by_cases empty : segments = []
    · obtain ⟨before, isLead⟩ := leads.exists_slash
      refine ⟨before, '/', Or.inl rfl, ?_⟩
      rw [empty, isLead]
      simp [joinFields]
    · refine ⟨lead ++ joinFields '/' segments, '/', Or.inl rfl, ?_⟩
      rw [joinFields_concat empty, List.append_assoc]

/-- What stands behind the last separator of a text is determined by the text. -/
theorem eq_of_last_separator {text ending others : List Char} {separator second : Char}
    (separates : IsSeparator separator) (separatesToo : IsSeparator second)
    (clean : ∀ character ∈ ending, ¬ IsSeparator character)
    (cleanToo : ∀ character ∈ others, ¬ IsSeparator character)
    (isEnd : separator :: ending <:+ text) (isEndToo : second :: others <:+ text) :
    ending = others := by
  rcases List.suffix_or_suffix_of_suffix isEnd isEndToo with inner | inner
  · rcases List.suffix_cons_iff.mp inner with same | later
    · exact (List.cons.inj same).2
    · exact absurd separates (cleanToo separator (later.subset List.mem_cons_self))
  · rcases List.suffix_cons_iff.mp inner with same | later
    · exact (List.cons.inj same).2.symm
    · exact absurd separatesToo (clean second (later.subset List.mem_cons_self))

/-- The last part of the target name holds an `@`, as if a checksum start stood behind it. -/
def LooksConfigured (label : Label) : Prop :=
  '@' ∈ label.ending

end Label

/-! ## A label alone -/

/-- What stands behind the last mark of a text ends as the text does, as far as there is no mark. -/
theorem suffix_of_last_mark {text rest front back : List Char} {mark : Char} (clean : mark ∉ rest)
    (isEnd : rest <:+ text) (split : text = front ++ mark :: back) : rest <:+ back := by
  have behind : mark :: back <:+ text := ⟨front, split.symm⟩
  rcases List.suffix_or_suffix_of_suffix isEnd behind with inner | outer
  · rcases List.suffix_cons_iff.mp inner with same | later
    · rw [same] at clean
      exact absurd List.mem_cons_self clean
    · exact later
  · exact absurd (outer.subset List.mem_cons_self) clean

/-- A label whose end looks like no checksum start is left whole. -/
theorem splitConfiguration_plain {input : String} {label : Label}
    (parsed : Label.parse input = .ok label) (plain : ¬ label.LooksConfigured) :
    splitConfiguration input = (input, none) := by
  obtain ⟨before, separator, separates, whole⟩ := (parse_eq_ok_iff.mp parsed).exists_ending
  unfold splitConfiguration
  cases cut : splitLast? '@' input.toList with
  | none => rfl
  | some halves =>
    obtain ⟨front, back⟩ := halves
    have unmarked : '@' ∉ separator :: label.ending := by
      rw [List.mem_cons, not_or]
      refine ⟨?_, plain⟩
      rintro rfl
      revert separates
      unfold IsSeparator
      decide
    -- The last mark stands in front of the last separator, which keeps it from starting a checksum.
    have behind : separator :: label.ending <:+ back :=
      suffix_of_last_mark unmarked ⟨before, whole.symm⟩ (splitLast?_eq_some_iff.mp cut).1
    have inside : separator ∈ back := behind.subset List.mem_cons_self
    have stops : (front.isEmpty || back.contains '/' || back.contains ':') = true := by
      rcases separates with rfl | rfl <;> simp [inside]
    simp only [stops, if_true]

/-- A label whose end looks like a checksum start is cut at its last `@`, and the text in front of
the cut does not name the label. -/
theorem splitConfiguration_marked {input : String} {label : Label}
    (parsed : Label.parse input = .ok label) (marked : label.LooksConfigured) :
    ∃ front start, input = front ++ "@" ++ start ∧ '@' ∉ start.toList ∧
      splitConfiguration input = (front, some start) ∧ Label.parse front ≠ .ok label := by
  have writes := parse_eq_ok_iff.mp parsed
  have clean := writes.ending_clean
  obtain ⟨before, separator, separates, whole⟩ := writes.exists_ending
  obtain ⟨⟨shorter, start⟩, cut⟩ : ∃ halves, splitLast? '@' label.ending = some halves :=
    Option.ne_none_iff_exists'.mp fun none => splitLast?_eq_none_iff.mp none marked
  obtain ⟨split, unmarked⟩ := splitLast?_eq_some_iff.mp cut
  have cleanShorter : ∀ character ∈ shorter, ¬ IsSeparator character := by
    intro character member
    apply clean
    rw [split]
    exact List.mem_append_left _ member
  have cleanStart : ∀ character ∈ start, ¬ IsSeparator character := by
    intro character member
    apply clean
    rw [split]
    exact List.mem_append_right shorter (List.mem_cons_of_mem '@' member)
  have isInput :
      input = String.ofList (before ++ separator :: shorter) ++ "@" ++ String.ofList start := by
    apply String.toList_inj.mp
    rw [whole, split]
    simp
  have lastMark : '@' ∉ (String.ofList start).toList := by
    rw [String.toList_ofList]
    exact unmarked
  refine ⟨String.ofList (before ++ separator :: shorter), String.ofList start, isInput, lastMark,
    ?_, ?_⟩
  · rw [isInput]
    apply splitConfiguration_append
    · simp
    · rw [String.toList_ofList]
      exact ⟨unmarked, fun slash => cleanStart '/' slash (Or.inl rfl),
        fun colon => cleanStart ':' colon (Or.inr rfl)⟩
  · intro again
    have writesAgain := parse_eq_ok_iff.mp again
    obtain ⟨beforeAgain, second, separatesToo, wholeAgain⟩ := writesAgain.exists_ending
    rw [String.toList_ofList] at wholeAgain
    have same : shorter = label.ending :=
      eq_of_last_separator separates separatesToo cleanShorter clean
        ⟨before, rfl⟩ ⟨beforeAgain, wholeAgain.symm⟩
    have lengths := congrArg List.length split
    rw [same] at lengths
    simp at lengths

namespace Source

variable {Value : Type} {source : Source Value}

/-- A subject is the key of the label in front of its mark, in the configuration meant behind it. -/
theorem subjectKey_eq_ok_iff {subject : String} {label : Label} {configuration : ConfigurationKey} :
    source.subjectKey .configuredTarget subject = .ok (.configuredTarget label configuration) ↔
      Label.parse (splitConfiguration subject).1 = .ok label ∧
        source.resolveConfiguration (splitConfiguration subject).2 = .ok configuration := by
  simp only [subjectKey, bind_eq_ok_iff, mapError_eq_ok_iff]
  constructor
  · rintro ⟨read, parsed, found, resolved, made⟩
    cases made
    exact ⟨parsed, resolved⟩
  · rintro ⟨parsed, resolved⟩
    exact ⟨label, parsed, configuration, resolved, rfl⟩

/-- No configuration given means the target configuration. -/
theorem resolveConfiguration_none {target : ConfigurationKey}
    (targeted : source.targetConfiguration = .ok (some target)) :
    source.resolveConfiguration none = .ok target := by
  rw [resolveConfiguration, requiredTarget, targeted]
  rfl

end Source

/-- A label alone means the target configuration exactly if the last part of its target name holds
no `@`: then it is left whole, its key is that of the label in the target configuration, and if that
is in the graph it is what a dump is of. Any other label is cut at its last `@`, and is not what its
own text names in any configuration. -/
theorem label_alone_means_target {input : String} {label : Label}
    (parsed : Label.parse input = .ok label) :
    (splitConfiguration input = (input, none) ↔ ¬ label.LooksConfigured) ∧
    (∀ {Value : Type} (source : Source Value) target,
      source.targetConfiguration = .ok (some target) →
      (source.subjectKey .configuredTarget input = .ok (.configuredTarget label target) ↔
        ¬ label.LooksConfigured)) ∧
    (¬ label.LooksConfigured → ∀ {size : Nat} (dumper : Dumper size) target (mode : Mode),
      dumper.source.targetConfiguration = .ok (some target) →
      dumper.source.contains (.configuredTarget label target) = .ok true →
      mode.kind = .configuredTarget → mode.subject = input →
      dumper.dump mode =
        (dumper.bill (.configuredTarget label target) mode.policy mode.report mode.needle).1.map
          (dumper.reportOf mode (.configuredTarget label target))) ∧
    (label.LooksConfigured →
      (∃ front start, input = front ++ "@" ++ start ∧ '@' ∉ start.toList ∧
        splitConfiguration input = (front, some start)) ∧
      ∀ {Value : Type} (source : Source Value) configuration,
        source.subjectKey .configuredTarget input ≠
          .ok (.configuredTarget label configuration)) := by
  have named : ¬ label.LooksConfigured → ∀ {Value : Type} (source : Source Value) target,
      source.targetConfiguration = .ok (some target) →
      source.subjectKey .configuredTarget input = .ok (.configuredTarget label target) := by
    intro plain Value source target targeted
    rw [Source.subjectKey_eq_ok_iff, splitConfiguration_plain parsed plain]
    exact ⟨parsed, Source.resolveConfiguration_none targeted⟩
  have missed : label.LooksConfigured → ∀ {Value : Type} (source : Source Value) configuration,
      source.subjectKey .configuredTarget input ≠ .ok (.configuredTarget label configuration) := by
    intro marked Value source configuration found
    obtain ⟨front, start, _, _, cut, apart⟩ := splitConfiguration_marked parsed marked
    rw [Source.subjectKey_eq_ok_iff, cut] at found
    exact apart found.1
  refine ⟨?whole, ?key, ?dumped, ?marked⟩
  case whole =>
    constructor
    · intro uncut marked
      obtain ⟨front, start, _, _, cut, _⟩ := splitConfiguration_marked parsed marked
      rw [uncut] at cut
      cases cut
    · exact splitConfiguration_plain parsed
  case key =>
    intro Value source target targeted
    constructor
    · intro found marked
      exact missed marked source target found
    · intro plain
      exact named plain source target targeted
  case dumped =>
    intro plain size dumper target mode targeted held isTarget isInput
    apply Dumper.dump_of_resolved
    rw [isTarget, isInput]
    exact Source.resolve_of_subjectKey (named plain dumper.source target targeted) held
  case marked =>
    intro marked
    obtain ⟨front, start, isInput, lastMark, cut, _⟩ := splitConfiguration_marked parsed marked
    exact ⟨⟨front, start, isInput, lastMark, cut⟩, missed marked⟩

/-- Two targets in the target configuration: the name of the first one ends in a mark and a digit,
and marks stand all over the second one but not behind its last separator. -/
def lookalikes : List (Store.Change (Fin 1)) :=
  [.addNode (.buildConfiguration ⟨"8a1f"⟩) 0, .setTarget ⟨"8a1f"⟩,
    .addNode (.configuredTarget ⟨⟨"", "a"⟩, "b@c"⟩ ⟨"8a1f"⟩) 0,
    .addNode (.configuredTarget ⟨⟨"rules", "a@1"⟩, "b@2/c"⟩ ⟨"8a1f"⟩) 0]

/-- Dumps of the two targets. -/
def lookalikeDumper : Dumper 1 where
  heap :=
    { objects := #v[
        { className := "Target", category := .plain, shape := .instance 8, fields := [] }]
      earlier := by decide }
  source := .ofStore (Store.built lookalikes)
  builtins := none
  config := .standard
  measurers := Measurer.standard
  cancelled := false

/-- A label can be read, its target is in the graph in the target configuration, and its own text
does not address it. -/
theorem lookalike_unaddressed :
    Label.parse "//a:b@c" = .ok ⟨⟨"", "a"⟩, "b@c"⟩ ∧
      (Store.built lookalikes).target = some ⟨"8a1f"⟩ ∧
      (Store.built lookalikes).contains (.configuredTarget ⟨⟨"", "a"⟩, "b@c"⟩ ⟨"8a1f"⟩) = true ∧
      splitConfiguration "//a:b@c" = ("//a:b", some "c") ∧
      (Source.ofStore (Store.built lookalikes)).subjectKey .configuredTarget "//a:b@c" =
        .error (.resolution (.ambiguousConfiguration "c" 0)) := by
  decide

/-- The second target, as the dump of its label finds it. -/
def markedTarget : NodeKey :=
  .configuredTarget ⟨⟨"rules", "a@1"⟩, "b@2/c"⟩ ⟨"8a1f"⟩

/-- The label of the second target is left whole, is the key of the target, and is what a dump is
of. -/
theorem label_alone_means_target_marks :
    splitConfiguration "@rules//a@1:b@2/c" = ("@rules//a@1:b@2/c", none) ∧
      lookalikeDumper.source.subjectKey .configuredTarget "@rules//a@1:b@2/c" = .ok markedTarget ∧
      lookalikeDumper.dump (.plain .reachable .count .configuredTarget "@rules//a@1:b@2/c") =
        (lookalikeDumper.bill markedTarget .reachable .all none).1.map
          (lookalikeDumper.reportOf (.plain .reachable .count .configuredTarget "@rules//a@1:b@2/c")
            markedTarget) := by
  have parsed : Label.parse "@rules//a@1:b@2/c" = .ok ⟨⟨"rules", "a@1"⟩, "b@2/c"⟩ := rfl
  have plain : ¬ Label.LooksConfigured ⟨⟨"rules", "a@1"⟩, "b@2/c"⟩ := by
    unfold Label.LooksConfigured
    decide
  obtain ⟨whole, key, dumped, _⟩ := label_alone_means_target parsed
  refine ⟨whole.mpr plain, (key _ ⟨"8a1f"⟩ rfl).mpr plain, ?_⟩
  exact dumped plain lookalikeDumper ⟨"8a1f"⟩ _ rfl (by decide) rfl rfl

/-! ## A label with a whole checksum -/

/-- Hexadecimal digits are no mark and no separators. -/
theorem clean_of_digits {text : List Char}
    (digits : ∀ digit ∈ text, (hexValue? digit).isSome = true) :
    '@' ∉ text ∧ '/' ∉ text ∧ ':' ∉ text := by
  refine ⟨?_, ?_, ?_⟩ <;>
  · intro member
    have isDigit := digits _ member
    revert isDigit
    decide

namespace Store

variable {Value : Type} {store : Store Value} {configuration : ConfigurationKey}

/-- No other realized configuration's checksum starts with that of a configuration. -/
def StandsAlone (store : Store Value) (configuration : ConfigurationKey) : Prop :=
  ∀ other, store.contains (.buildConfiguration other) = true →
    configuration.checksum.toList <+: other.checksum.toList → other = configuration

/-- A realized configuration stands alone exactly if its checksum matches nothing else. -/
theorem standsAlone_iff (realized : store.contains (.buildConfiguration configuration) = true) :
    store.StandsAlone configuration ↔ store.matching configuration.checksum = {configuration} := by
  rw [Set.eq_singleton_iff_unique_mem]
  constructor
  · intro alone
    exact ⟨⟨realized, List.prefix_rfl⟩, fun other isMatch => alone other isMatch.1 isMatch.2⟩
  · intro only other isRealized starts
    exact only.2 other ⟨isRealized, starts⟩

/-- Checksums of one length stand alone. -/
theorem standsAlone_of_length (even : ∀ other, store.contains (.buildConfiguration other) = true →
    other.checksum.length = configuration.checksum.length) : store.StandsAlone configuration := by
  intro other realized starts
  have lengths := even other realized
  rw [← String.length_toList, ← String.length_toList] at lengths
  have same := String.toList_inj.mp (starts.eq_of_length lengths.symm)
  cases other
  cases configuration
  exact congrArg ConfigurationKey.mk same.symm

/-- Other configurations match the checksum of a realized one that does not stand alone. -/
theorem two_le_ncard_matching (realized : store.contains (.buildConfiguration configuration) = true)
    (crowded : ¬ store.StandsAlone configuration) :
    2 ≤ (store.matching configuration.checksum).ncard := by
  have isMatch : configuration ∈ store.matching configuration.checksum :=
    ⟨realized, List.prefix_rfl⟩
  have finite : (store.matching configuration.checksum).Finite := by
    rw [matching_eq_toFinset]
    exact Finset.finite_toSet _
  have filled : 0 < (store.matching configuration.checksum).ncard :=
    (Set.ncard_pos finite).mpr ⟨configuration, isMatch⟩
  have several : (store.matching configuration.checksum).ncard ≠ 1 := by
    intro single
    obtain ⟨only, isOnly⟩ := Set.ncard_eq_one.mp single
    rw [isOnly, Set.mem_singleton_iff] at isMatch
    rw [standsAlone_iff realized, isOnly, isMatch] at crowded
    exact crowded rfl
  omega

end Store

namespace Source

variable {Value : Type} {input : String} {label : Label} {configuration : ConfigurationKey}

/-- A configured target in a realized configuration is addressed by its label and its whole checksum
exactly if no other realized configuration's checksum starts with it; otherwise the address is
refused with the number of those that do, itself included. Checksums of one length never stand in
each other's way, so those computed from options do not. -/
theorem whole_checksum_addresses (store : Store Value) (parsed : Label.parse input = .ok label)
    (digits : ∀ digit ∈ configuration.checksum.toList, (hexValue? digit).isSome = true)
    (realized : store.contains (.buildConfiguration configuration) = true)
    (held : store.contains (.configuredTarget label configuration) = true) :
    ((ofStore store).resolveConfiguration (some configuration.checksum) = .ok configuration ↔
      store.StandsAlone configuration) ∧
    ((ofStore store).resolve .configuredTarget (label.render ++ "@" ++ configuration.checksum) =
      .ok (.configuredTarget label configuration) ↔ store.StandsAlone configuration) ∧
    (¬ store.StandsAlone configuration →
      2 ≤ (store.matching configuration.checksum).ncard ∧
      (ofStore store).resolveConfiguration (some configuration.checksum) = .error (.resolution
        (.ambiguousConfiguration configuration.checksum
          (store.matching configuration.checksum).ncard)) ∧
      (ofStore store).resolve .configuredTarget (label.render ++ "@" ++ configuration.checksum) =
        .error (.resolution (.ambiguousConfiguration configuration.checksum
          (store.matching configuration.checksum).ncard))) ∧
    ((∀ other, store.contains (.buildConfiguration other) = true →
      other.checksum.length = configuration.checksum.length) → store.StandsAlone configuration) ∧
    ((∀ other, store.contains (.buildConfiguration other) = true →
      ∃ options, other = .ofOptions options) → store.StandsAlone configuration) := by
  have again := Label.parse_render parsed
  have clean := clean_of_digits digits
  have alone := Store.standsAlone_iff realized
  refine ⟨?configuration, ?target, ?crowded, Store.standsAlone_of_length, ?computed⟩
  case configuration =>
    rw [resolveConfiguration_some, alone, Store.matching_eq_singleton_iff]
    split
    · next only single => simp [single]
    · next several =>
      refine iff_of_false nofun ?_
      intro single
      exact several configuration single
  case target =>
    rw [resolve_starting_eq_ok_iff again clean, alone]
    constructor
    · rintro ⟨only, single, same, _⟩
      cases same
      exact single
    · intro single
      exact ⟨configuration, single, rfl, held⟩
  case crowded =>
    intro crowded
    have several := Store.two_le_ncard_matching realized crowded
    refine ⟨several, ?_, ?_⟩
    · rw [Store.ncard_matching] at several ⊢
      rw [resolveConfiguration_some]
      split
      · next only single => simp [single] at several
      · rfl
    · rw [Store.ncard_matching] at several ⊢
      rw [resolve_starting store again clean]
      split
      · next only single => simp [single] at several
      · rfl
  case computed =>
    intro computed
    apply Store.standsAlone_of_length
    intro other isRealized
    obtain ⟨options, rfl⟩ := computed other isRealized
    obtain ⟨own, rfl⟩ := computed configuration realized
    rw [ConfigurationKey.ofOptions, ConfigurationKey.ofOptions, Options.length_checksum,
      Options.length_checksum]

/-- Two configurations of which the checksum of one starts that of the other, a third one, and a
target in each of the first and the third. -/
def nestedChecksums : List (Store.Change Unit) :=
  [.addNode (.buildConfiguration ⟨"8a"⟩) (), .addNode (.buildConfiguration ⟨"8a1f"⟩) (),
    .addNode (.buildConfiguration ⟨"c0ffee"⟩) (),
    .addNode (.configuredTarget ⟨⟨"", "a"⟩, "b"⟩ ⟨"8a"⟩) (),
    .addNode (.configuredTarget ⟨⟨"", "a"⟩, "b"⟩ ⟨"c0ffee"⟩) ()]

/-- A whole checksum does not address a realized configuration, nor a target in it, if another one
starts with it. -/
theorem nested_checksum_unaddressed :
    Label.parse "//a:b" = .ok ⟨⟨"", "a"⟩, "b"⟩ ∧
      (Store.built nestedChecksums).contains (.buildConfiguration ⟨"8a"⟩) = true ∧
      (Store.built nestedChecksums).contains (.configuredTarget ⟨⟨"", "a"⟩, "b"⟩ ⟨"8a"⟩) = true ∧
      (ofStore (Store.built nestedChecksums)).resolveConfiguration (some "8a") =
        .error (.resolution (.ambiguousConfiguration "8a" 2)) ∧
      (ofStore (Store.built nestedChecksums)).resolve .configuredTarget "//a:b@8a" =
        .error (.resolution (.ambiguousConfiguration "8a" 2)) := by
  decide

/-- The third checksum starts no other one, so it addresses the target in its configuration. -/
theorem whole_checksum_addresses_third :
    (ofStore (Store.built nestedChecksums)).resolveConfiguration (some "c0ffee") = .ok ⟨"c0ffee"⟩ ∧
      (ofStore (Store.built nestedChecksums)).resolve .configuredTarget "//a:b@c0ffee" =
        .ok (.configuredTarget ⟨⟨"", "a"⟩, "b"⟩ ⟨"c0ffee"⟩) := by
  have realized :
      (Store.built nestedChecksums).contains (.buildConfiguration ⟨"c0ffee"⟩) = true := by
    decide
  have alone : (Store.built nestedChecksums).StandsAlone ⟨"c0ffee"⟩ := by
    rw [Store.standsAlone_iff realized, Store.matching_eq_singleton_iff]
    decide
  have parsed : Label.parse "//a:b" = .ok ⟨⟨"", "a"⟩, "b"⟩ := rfl
  have digits : "c0ffee".toList.all (fun digit => (hexValue? digit).isSome) = true := by decide
  obtain ⟨configured, resolved, _⟩ := whole_checksum_addresses (Store.built nestedChecksums) parsed
    (List.all_eq_true.mp digits) realized (by decide)
  exact ⟨configured.mpr alone, resolved.mpr alone⟩

end Source

end Retained
