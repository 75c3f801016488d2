import Mathlib.Data.Set.Card
import Retained.Dump.Resolve
import Retained.Proofs.Label.Reading
import Retained.Proofs.Store.History

/-!
# Resolving a configured target

A label with a checksum start behind an `@` is cut at that `@` again, whatever the label holds,
since no checksum start holds a separator. What it resolves to depends only on which nodes the store
holds: on the configurations that the start matches, which have to be exactly one, and then on the
target in that one.
-/

namespace Retained

open Text

/-! ## Cutting the subject -/

/-- A text with a checksum start behind an `@` is cut there. -/
theorem splitConfiguration_append {input start : String} (filled : input ≠ "")
    (clean : '@' ∉ start.toList ∧ '/' ∉ start.toList ∧ ':' ∉ start.toList) :
    splitConfiguration (input ++ "@" ++ start) = (input, some start) := by
  have whole : (input ++ "@" ++ start).toList = input.toList ++ '@' :: start.toList := by simp
  have cut := splitLast?_append input.toList (clean.1)
  have nonempty : input.toList.isEmpty = false := by simpa using filled
  simp [splitConfiguration, whole, cut, nonempty, clean.2]

/-- No label is the empty text. -/
theorem Label.ne_empty_of_parse {input : String} {label : Label}
    (parsed : Label.parse input = .ok label) : input ≠ "" := by
  intro empty
  rw [empty] at parsed
  cases parsed

/-! ## Matching configurations -/

namespace Store

variable {Value Other : Type} {store : Store Value} {other : Store Other} {start : String}
  {configuration : ConfigurationKey}

/-- No configuration is realized twice. -/
theorem realizedConfigurations_nodup (store : Store Value) :
    store.realizedConfigurations.Nodup := by
  refine store.realizedConfigurations_ascending.imp ?_
  intro first second less equal
  rw [equal] at less
  exact String.lt_irrefl _ less

/-- Stores that hold the same nodes have the same realized configurations. -/
theorem realizedConfigurations_congr (same : ∀ key, store.contains key = other.contains key) :
    store.realizedConfigurations = other.realizedConfigurations := by
  have members : store.realizedConfigurations.Perm other.realizedConfigurations := by
    rw [List.perm_ext_iff_of_nodup store.realizedConfigurations_nodup
      other.realizedConfigurations_nodup]
    intro configuration
    rw [mem_realizedConfigurations, mem_realizedConfigurations, same]
  exact members.eq_of_pairwise (fun _ _ _ _ less more => absurd less (String.lt_asymm more))
    store.realizedConfigurations_ascending other.realizedConfigurations_ascending

/-- The realized configurations whose checksum has a start. -/
def matching (store : Store Value) (start : String) : Set ConfigurationKey :=
  {configuration | store.contains (.buildConfiguration configuration) = true ∧
    start.toList <+: configuration.checksum.toList}

/-- The same configurations as a list, as a source goes through them. -/
def candidates (store : Store Value) (start : String) : List ConfigurationKey :=
  store.realizedConfigurations.filter (·.startsWith start)

/-- The candidates are the matching configurations. -/
theorem mem_candidates : configuration ∈ store.candidates start ↔
    configuration ∈ store.matching start := by
  rw [candidates, List.mem_filter, mem_realizedConfigurations, ConfigurationKey.startsWith,
    List.isPrefixOf_iff_prefix]
  rfl

/-- No candidate is listed twice. -/
theorem candidates_nodup (store : Store Value) (start : String) : (store.candidates start).Nodup :=
  store.realizedConfigurations_nodup.filter _

/-- The matching configurations are those of a finite set. -/
theorem matching_eq_toFinset (store : Store Value) (start : String) :
    store.matching start = ↑(store.candidates start).toFinset := by
  ext configuration
  rw [List.coe_toFinset]
  exact mem_candidates.symm

/-- There are as many matching configurations as candidates. -/
theorem ncard_matching (store : Store Value) (start : String) :
    (store.matching start).ncard = (store.candidates start).length := by
  rw [matching_eq_toFinset, Set.ncard_coe_finset,
    List.toFinset_card_of_nodup (store.candidates_nodup start)]

/-- A configuration is the only one that matches if it is the only candidate. -/
theorem matching_eq_singleton_iff :
    store.matching start = {configuration} ↔ store.candidates start = [configuration] := by
  constructor
  · intro single
    have count := store.ncard_matching start
    rw [single, Set.ncard_singleton] at count
    obtain ⟨only, isOnly⟩ := List.length_eq_one_iff.mp count.symm
    have found : configuration ∈ store.candidates start := by
      rw [mem_candidates, single]
      exact Set.mem_singleton configuration
    rw [isOnly] at found ⊢
    rw [List.mem_singleton.mp found]
  · intro single
    ext other
    rw [← mem_candidates, single, List.mem_singleton, Set.mem_singleton_iff]

/-- A configuration that matches still does in a store that holds more. -/
theorem matching_mono (more : ∀ key, store.contains key = true → other.contains key = true) :
    store.matching start ⊆ other.matching start :=
  fun _ isMatch => ⟨more _ isMatch.1, isMatch.2⟩

end Store

/-! ## The answer -/

namespace Source

variable {Value Other : Type} {store : Store Value}

/-- What subjects resolve to depends only on which nodes a store holds, on its target configuration
and on the query that is out of order. -/
theorem resolve_congr {source : Source Value} {other : Source Other}
    (same : ∀ key, source.store.contains key = other.store.contains key)
    (sameTarget : source.store.target = other.store.target)
    (sameBroken : source.broken = other.broken) (kind : SubjectKind) (subject : String) :
    source.resolve kind subject = other.resolve kind subject := by
  have answers : ∀ {α : Type} query (value : α),
      source.answer query value = other.answer query value := by
    intro α query value
    unfold answer
    rw [sameBroken]
  have realized : source.realizedConfigurations = other.realizedConfigurations := by
    rw [realizedConfigurations, Store.realizedConfigurations_congr same, answers]
    rfl
  have target : source.targetConfiguration = other.targetConfiguration := by
    rw [targetConfiguration, sameTarget, answers]
    rfl
  have holds : source.contains = other.contains := by
    funext key
    rw [contains, same, answers]
    rfl
  have configured : source.resolveConfiguration = other.resolveConfiguration := by
    funext start
    cases start with
    | none => simp only [resolveConfiguration, requiredTarget, target]
    | some start => simp only [resolveConfiguration, configurationStarting, realized]
  simp only [resolve, subjectKey, configured, holds]

/-- A subject resolves to its key if that is in the graph. -/
theorem resolve_of_subjectKey {kind : SubjectKind} {subject : String} {key : NodeKey}
    {source : Source Value}
    (named : source.subjectKey kind subject = .ok key) (held : source.contains key = .ok true) :
    source.resolve kind subject = .ok key := by
  rw [resolve, named]
  simp only [bind, Except.bind, held]
  rfl

/-- A checksum start means the only candidate. -/
theorem resolveConfiguration_some (store : Store Value) (start : String) :
    (ofStore store).resolveConfiguration (some start) =
      match store.candidates start with
      | [configuration] => .ok configuration
      | candidates => .error (.resolution (.ambiguousConfiguration start candidates.length)) := by
  have listed : (ofStore store).realizedConfigurations.mapError .ofFetch =
      (.ok store.realizedConfigurations : Except DumpError _) := rfl
  simp only [resolveConfiguration, configurationStarting, listed, bind, Except.bind,
    Store.candidates]
  cases store.realizedConfigurations.filter (·.startsWith start) with
  | nil => rfl
  | cons configuration others => cases others <;> rfl

/-- A label with a checksum start resolves by the candidates: to the target in the only one, if the
store holds that. -/
theorem resolve_starting {input start : String} {label : Label} (store : Store Value)
    (parsed : Label.parse input = .ok label)
    (clean : '@' ∉ start.toList ∧ '/' ∉ start.toList ∧ ':' ∉ start.toList) :
    (ofStore store).resolve .configuredTarget (input ++ "@" ++ start) =
      match store.candidates start with
      | [configuration] =>
        if store.contains (.configuredTarget label configuration) then
          .ok (.configuredTarget label configuration)
        else
          .error (.resolution (.nodeNotPresent (.configuredTarget label configuration)))
      | candidates => .error (.resolution (.ambiguousConfiguration start candidates.length)) := by
  have cut := splitConfiguration_append (Label.ne_empty_of_parse parsed) clean
  have read : (Label.parse input).mapError DumpError.ofLabel = .ok label := by
    rw [parsed]
    rfl
  have asked : ∀ key, ((ofStore store).contains key).mapError .ofFetch =
      (.ok (store.contains key) : Except DumpError _) := fun _ => rfl
  simp only [resolve, subjectKey, cut, read, asked, bind, Except.bind]
  rw [resolveConfiguration_some]
  cases store.candidates start with
  | nil => rfl
  | cons configuration others => cases others <;> rfl

variable {input start : String} {label : Label}

/-- A label with a checksum start resolves to a key exactly if just one configuration matches and
the key is that of the label in it, which the store holds. -/
theorem resolve_starting_eq_ok_iff {key : NodeKey} (parsed : Label.parse input = .ok label)
    (clean : '@' ∉ start.toList ∧ '/' ∉ start.toList ∧ ':' ∉ start.toList) :
    (ofStore store).resolve .configuredTarget (input ++ "@" ++ start) = .ok key ↔
      ∃ configuration, store.matching start = {configuration} ∧
        key = .configuredTarget label configuration ∧ store.contains key = true := by
  rw [resolve_starting store parsed clean]
  simp only [Store.matching_eq_singleton_iff]
  split
  · next configuration single =>
    simp only [single, List.cons.injEq, and_true]
    by_cases held : store.contains (.configuredTarget label configuration) = true
    · rw [if_pos held]
      constructor
      · intro resolved
        cases resolved
        exact ⟨configuration, rfl, rfl, held⟩
      · intro only
        obtain ⟨_, rfl, rfl, _⟩ := only
        rfl
    · rw [if_neg held]
      refine iff_of_false nofun ?_
      intro only
      obtain ⟨_, rfl, rfl, isHeld⟩ := only
      exact held isHeld
  · next several =>
    refine iff_of_false nofun ?_
    intro only
    obtain ⟨configuration, single, _⟩ := only
    exact several configuration single

end Source

namespace Store

variable {Value : Type}

/-- A store's answer to a label with a checksum start. -/
def answer (store : Store Value) (input start : String) : Except DumpError NodeKey :=
  (Source.ofStore store).resolve .configuredTarget (input ++ "@" ++ start)

/-- A label with a checksum start never resolves to one of several targets: it resolves exactly if a
single realized configuration matches and the store holds the label in it; otherwise it is refused
with the number of configurations that match, or with the key that is missing. The answer is the
same for every history that adds the same nodes, and further changes may take it away but never turn
it into another key. -/
theorem answer_never_picks {input start : String} {label : Label}
    (parsed : Label.parse input = .ok label)
    (clean : '@' ∉ start.toList ∧ '/' ∉ start.toList ∧ ':' ∉ start.toList)
    (changes : List (Change Value)) :
    (∀ key, (built changes).answer input start = .ok key ↔
      ∃ configuration, (built changes).matching start = {configuration} ∧
        key = .configuredTarget label configuration ∧ (built changes).contains key = true) ∧
    ((built changes).matching start).Finite ∧
    (((built changes).matching start).ncard ≠ 1 →
      (built changes).answer input start = .error (.resolution
        (.ambiguousConfiguration start ((built changes).matching start).ncard))) ∧
    (∀ configuration, (built changes).matching start = {configuration} →
      (built changes).contains (.configuredTarget label configuration) = false →
      (built changes).answer input start = .error (.resolution
        (.nodeNotPresent (.configuredTarget label configuration)))) ∧
    (∀ other : List (Change Value), added other = added changes →
      (built other).answer input start = (built changes).answer input start) ∧
    (∀ more key later, (built changes).answer input start = .ok key →
      (built (changes ++ more)).answer input start = .ok later → later = key) := by
  have answers := Source.resolve_starting (built changes) parsed clean
  have resolves : ∀ (store : Store Value) key, store.answer input start = .ok key ↔
      ∃ configuration, store.matching start = {configuration} ∧
        key = .configuredTarget label configuration ∧ store.contains key = true :=
    fun _ _ => Source.resolve_starting_eq_ok_iff parsed clean
  refine ⟨resolves (built changes), ?finite, ?ambiguous, ?missing, ?order, ?stable⟩
  case finite =>
    rw [matching_eq_toFinset]
    exact Finset.finite_toSet _
  case ambiguous =>
    intro several
    rw [ncard_matching] at several ⊢
    rw [answer, answers]
    split
    · next single =>
      rw [single] at several
      exact absurd rfl several
    · rfl
  case missing =>
    intro configuration single missing
    rw [answer, answers, matching_eq_singleton_iff.mp single]
    simp only [missing, Bool.false_eq_true, if_false]
  case order =>
    intro other sameNodes
    have same : ∀ key, (built other).contains key = (built changes).contains key := by
      intro key
      rw [Bool.eq_iff_iff, contains_built, contains_built, sameNodes]
    rw [answer, answer, answers, Source.resolve_starting (built other) parsed clean]
    simp only [candidates, realizedConfigurations_congr same, same]
  case stable =>
    intro more key later before after
    obtain ⟨configuration, single, isKey, _⟩ := (resolves _ key).mp before
    obtain ⟨second, lone, isLater, _⟩ := (resolves _ later).mp after
    have kept : (built changes).matching start ⊆ (built (changes ++ more)).matching start := by
      apply matching_mono
      intro held
      rw [contains_built, contains_built, added_append]
      exact Or.inl
    rw [single, lone] at kept
    have equal : configuration = second := Set.singleton_subset_singleton.mp kept
    rw [isKey, isLater, equal]

/-- Two configurations, and a target of an external repository in the first one. -/
def twoConfigurations : List (Change Unit) :=
  [.addNode (.buildConfiguration ⟨"8a1f"⟩) (), .setTarget ⟨"ff00"⟩,
    .addNode (.buildConfiguration ⟨"ff00"⟩) (),
    .addNode (.configuredTarget ⟨⟨"rules", "a"⟩, "b"⟩ ⟨"8a1f"⟩) ()]

/-- A start of the first checksum picks the target in it, a start of the second one finds no target,
and the empty start matches both. -/
theorem answer_never_picks_two :
    (built twoConfigurations).answer "@rules//a:b" "8a" =
        .ok (.configuredTarget ⟨⟨"rules", "a"⟩, "b"⟩ ⟨"8a1f"⟩) ∧
      (built twoConfigurations).answer "@rules//a:b" "ff" =
        .error (.resolution (.nodeNotPresent (.configuredTarget ⟨⟨"rules", "a"⟩, "b"⟩ ⟨"ff00"⟩))) ∧
      (built twoConfigurations).answer "@rules//a:b" "" =
        .error (.resolution (.ambiguousConfiguration "" 2)) := by
  have parsed : Label.parse "@rules//a:b" = .ok ⟨⟨"rules", "a"⟩, "b"⟩ := rfl
  have count : ((built twoConfigurations).matching "").ncard = 2 := by
    rw [ncard_matching]
    decide
  have first : '@' ∉ "8a".toList ∧ '/' ∉ "8a".toList ∧ ':' ∉ "8a".toList := by decide
  have second : '@' ∉ "ff".toList ∧ '/' ∉ "ff".toList ∧ ':' ∉ "ff".toList := by decide
  have neither : '@' ∉ "".toList ∧ '/' ∉ "".toList ∧ ':' ∉ "".toList := by decide
  have resolves := (answer_never_picks parsed first twoConfigurations).1
  have missing := (answer_never_picks parsed second twoConfigurations).2.2.2.1
  have ambiguous := (answer_never_picks parsed neither twoConfigurations).2.2.1
  refine ⟨(resolves _).mpr ⟨⟨"8a1f"⟩, ?_, rfl, by decide⟩, missing ⟨"ff00"⟩ ?_ (by decide), ?_⟩
  · rw [matching_eq_singleton_iff]
    decide
  · rw [matching_eq_singleton_iff]
    decide
  · rw [count] at ambiguous
    exact ambiguous (by decide)

end Store

end Retained
