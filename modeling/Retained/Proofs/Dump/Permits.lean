import Retained.Proofs.Dump.Ordered
import Retained.Proofs.Dump.Outcome

/-!
# The permits of a schedule

A schedule asks for as many permits as walks may run at once, and for one at least. Settings of zero
are kept out on the way, and nothing else is: a setting is any 64-bit number that a text writes
(`Config.readWalks?_eq_some_iff`), while no pool is made for more than `Schedule.permitLimit`
permits. So a transitive dump can be started unless the setting is above that limit
(`Dumper.transitive_starts_iff`), and there are settings above it
(`Dumper.crowded_setting_accepted`).
-/

namespace Retained

/-! ## What a setting writes -/

namespace Config

/-- A text of decimal digits, perhaps behind a plus sign, spells a number. -/
def Spells (text : List Char) (number : Nat) : Prop :=
  ∃ sign digits, text = sign ++ digits ∧ (sign = [] ∨ sign = ['+']) ∧ digits ≠ [] ∧
    (∀ digit ∈ digits, digit.isDigit = true) ∧ Nat.ofDigitChars 10 digits 0 = number

/-- A text writes a number: it spells the number between blanks. -/
def Writes (text : String) (number : Nat) : Prop :=
  ∃ before core after, text.toList = before ++ core ++ after ∧ Spells core number ∧
    (∀ character ∈ before, Text.isBlank character = true) ∧
    ∀ character ∈ after, Text.isBlank character = true

/-- Digits have the value that they write. -/
theorem digitsValue?_eq_some_iff {digits : List Char} {value : Nat} :
    digitsValue? digits = some value ↔ digits ≠ [] ∧ (∀ digit ∈ digits, digit.isDigit = true) ∧
      Nat.ofDigitChars 10 digits 0 = value := by
  have sameValue : digits.foldl (fun value digit => value * 10 + (digit.toNat - '0'.toNat)) 0 =
      Nat.ofDigitChars 10 digits 0 := by
    simp only [Nat.ofDigitChars, Nat.mul_comm]
  unfold digitsValue?
  rw [sameValue]
  cases digits with
  | nil => simp
  | cons first rest =>
    by_cases digital : (first :: rest).all Char.isDigit = true
    · have each := List.all_eq_true.mp digital
      simp only [List.isEmpty_cons, digital, Bool.not_true, Bool.or_self, Bool.false_eq_true,
        if_false, Option.some.injEq]
      exact ⟨fun same => ⟨List.cons_ne_nil _ _, each, same⟩, fun written => written.2.2⟩
    · simp only [List.isEmpty_cons, digital, Bool.false_or, Bool.not_false, if_true, reduceCtorEq,
        false_iff]
      intro written
      exact digital (List.all_eq_true.mpr written.2.1)

/-- A digit is no blank. -/
theorem isBlank_of_isDigit {character : Char} (digit : character.isDigit = true) :
    Text.isBlank character = false := by
  obtain ⟨low, high⟩ := by simpa [Char.isDigit] using digit
  have above : 48 ≤ character.toNat := low
  have below : character.toNat ≤ 57 := high
  unfold Text.isBlank
  simp only [Bool.or_eq_false_iff, Bool.and_eq_false_iff, decide_eq_false_iff_not,
    beq_eq_false_iff_ne]
  omega

/-- A digit is no plus sign. -/
theorem ne_plus_of_isDigit {character : Char} (digit : character.isDigit = true) :
    character ≠ '+' := by
  rintro rfl
  contradiction

/-- The count that a text has is the 64-bit number that it spells. -/
theorem count?_eq_some_iff {text : List Char} {count : UInt64} :
    count? text = some count ↔ Spells text count.toNat := by
  unfold count?
  simp only [Option.bind_eq_bind, Option.bind_eq_some_iff, digitsValue?_eq_some_iff]
  constructor
  · rintro ⟨value, ⟨nonempty, digital, written⟩, counted⟩
    split at counted
    · next small =>
      cases counted
      rw [UInt64.toNat_ofNat_of_lt' small]
      split at nonempty
      · next signed =>
        rw [if_pos signed] at digital written
        refine ⟨['+'], text.drop 1, ?_, Or.inr rfl, nonempty, digital, written⟩
        rw [List.singleton_append, List.drop_one]
        exact List.eq_cons_of_mem_head? signed
      · next unsigned =>
        rw [if_neg unsigned] at digital written
        exact ⟨[], text, rfl, Or.inl rfl, nonempty, digital, written⟩
    · cases counted
  · rintro ⟨sign, digits, rfl, signed, nonempty, digital, written⟩
    have bare : (if (sign ++ digits).head? = some '+' then (sign ++ digits).drop 1
        else sign ++ digits) = digits := by
      rcases signed with rfl | rfl
      · refine if_neg ?_
        intro plus
        exact ne_plus_of_isDigit (digital '+' (List.mem_of_mem_head? plus)) rfl
      · rfl
    refine ⟨count.toNat, ?_, ?_⟩
    · rw [bare]
      exact ⟨nonempty, digital, written⟩
    · rw [if_pos count.toNat_lt, UInt64.ofNat_toNat]

/-- A text that spells a number has no blank at its ends. -/
theorem Spells.trimBlanks {core before after : List Char} {number : Nat}
    (spells : Spells core number)
    (blankBefore : ∀ character ∈ before, Text.isBlank character = true)
    (blankAfter : ∀ character ∈ after, Text.isBlank character = true) :
    Text.trimBlanks (before ++ core ++ after) = core := by
  obtain ⟨sign, digits, rfl, signed, nonempty, digital, _⟩ := spells
  have solid : ∀ character ∈ sign ++ digits, Text.isBlank character = false := by
    intro character member
    rcases List.mem_append.mp member with isSign | isDigit
    · rcases signed with rfl | rfl
      · contradiction
      · rw [List.mem_singleton.mp isSign]
        rfl
    · exact isBlank_of_isDigit (digital character isDigit)
  refine Text.trimBlanks_between (by simp [nonempty]) blankBefore blankAfter ?_ ?_
  · exact fun character first => solid character (List.mem_of_mem_head? first)
  · exact fun character last => solid character (List.mem_of_mem_getLast? last)

/-- The setting that a text makes is the positive 64-bit number that it writes. -/
theorem readWalks?_eq_some_iff {text : String} {walks : UInt64} :
    readWalks? text = some walks ↔ Writes text walks.toNat ∧ 0 < walks := by
  unfold readWalks?
  rw [Option.filter_eq_some_iff, count?_eq_some_iff, decide_eq_true_eq]
  apply and_congr_left
  intro _
  constructor
  · intro spells
    obtain ⟨before, after, split, blankBefore, blankAfter⟩ := Text.exists_blanks text.toList
    exact ⟨before, _, after, split, spells, blankBefore, blankAfter⟩
  · rintro ⟨before, core, after, split, spells, blankBefore, blankAfter⟩
    rw [split, spells.trimBlanks blankBefore blankAfter]
    exact spells

/-- A lookup of variables sets a number of walks: its text writes that number, which is positive and
has 64 bits. -/
def Sets (lookup : String → Option String) (number : Nat) : Prop :=
  ∃ text, lookup walksVariable = some text ∧ Writes text number ∧ 0 < number ∧ number < UInt64.size

/-- The number of permits that a schedule asks for on a machine with so many processors. -/
def permits (config : Config) (processors : Nat) : Nat :=
  max (config.parallelWalks processors) 1

variable {lookup : String → Option String}

/-- The setting of a configuration is the number that its lookup sets. -/
theorem maxParallelWalks_ofLookup {walks : UInt64} :
    (ofLookup lookup).maxParallelWalks = some walks ↔ Sets lookup walks.toNat := by
  simp only [ofLookup, Option.bind_eq_some_iff, readWalks?_eq_some_iff]
  constructor
  · rintro ⟨text, found, written, positive⟩
    exact ⟨text, found, written, UInt64.lt_iff_toNat_lt.mp positive, walks.toNat_lt⟩
  · rintro ⟨text, found, written, positive, _⟩
    exact ⟨text, found, written, UInt64.lt_iff_toNat_lt.mpr positive⟩

/-- A number that is set is the number of walks, whatever the machine. -/
theorem parallelWalks_of_sets {number : Nat} (sets : Sets lookup number) (processors : Nat) :
    (ofLookup lookup).parallelWalks processors = number := by
  have small : number < UInt64.size := sets.choose_spec.2.2.2
  have exactly : (UInt64.ofNat number).toNat = number := UInt64.toNat_ofNat_of_lt' small
  have setting : (ofLookup lookup).maxParallelWalks = some (UInt64.ofNat number) :=
    maxParallelWalks_ofLookup.mpr (exactly.symm ▸ sets)
  simp only [parallelWalks, setting, exactly]

/-- If no number is set, there are as many walks as processors. -/
theorem parallelWalks_of_unset (unset : ∀ number, ¬ Sets lookup number) (processors : Nat) :
    (ofLookup lookup).parallelWalks processors = processors := by
  cases setting : (ofLookup lookup).maxParallelWalks with
  | some walks => exact absurd (maxParallelWalks_ofLookup.mp setting) (unset walks.toNat)
  | none => simp only [parallelWalks, setting]

/-- A number that is set is the number of permits asked for. -/
theorem permits_of_sets {number : Nat} (sets : Sets lookup number) (processors : Nat) :
    (ofLookup lookup).permits processors = number := by
  have positive : 0 < number := sets.choose_spec.2.2.1
  simp only [permits, parallelWalks_of_sets sets, Nat.max_eq_left positive]

/-- A number of walks that is set directly is the number of permits asked for, but zero asks for
one. -/
theorem permits_withMaxParallelWalks (config : Config) (walks : UInt64) (processors : Nat) :
    (config.withMaxParallelWalks walks).permits processors = max walks.toNat 1 := by
  have atLeast : (max walks 1).toNat = max walks.toNat 1 := by
    change (if walks ≤ 1 then 1 else walks).toNat = _
    rw [apply_ite UInt64.toNat, Nat.max_def]
    rfl
  simp only [permits, withMaxParallelWalks, parallelWalks, atLeast, max_assoc, max_self]

end Config

/-! ## Units do not ask for pools -/

namespace Schedule

variable {size : Nat}

namespace State

variable {state next : State size} {plan : Plan size} {key : NodeKey}

/-- No unit has failed for want of a pool. -/
def Pooled (state : State size) : Prop :=
  ∀ (key : NodeKey) (walks : Nat), state.units[key]? ≠ some (.failed (.poolTooLarge walks))

/-- Putting a unit at a stage that is no failure for want of a pool makes no such failure. -/
theorem Pooled.put (pooled : state.Pooled) (key : NodeKey) {stage : Stage size}
    (other : ∀ walks, stage ≠ .failed (.poolTooLarge walks)) : (state.put key stage).Pooled := by
  intro unit walks
  rw [units_put]
  split
  · exact fun same => other walks (Option.some.inj same)
  · exact pooled unit walks

/-- A unit that begins may fail to fetch its node, or for a cancellation. -/
theorem Pooled.begin (pooled : state.Pooled) : (state.begin plan key).Pooled := by
  unfold State.begin
  split
  · exact pooled.put key nofun
  · split
    · exact pooled.put key nofun
    · exact pooled.put key nofun
    · split <;> exact pooled.put key nofun

/-- No move makes a unit fail for want of a pool. -/
theorem Pooled.moved (pooled : state.Pooled) (leads : LeadsInside plan state next) :
    next.Pooled := by
  obtain ⟨move, inside, moved⟩ := leads
  cases move with
  | cancel => exact absurd rfl inside
  | abandon key =>
    have abandoned : state.abandon key = some next := moved
    unfold State.abandon at abandoned
    split at abandoned
    · split at abandoned
      · cases abandoned
        exact pooled.put key nofun
      · cases abandoned
    · cases abandoned
  | advance key =>
    have advanced : state.advance plan key = some next := moved
    cases advance_moved advanced
    case miss held _ _ =>
      -- The rule does not say why the fetch fails, so the fetch itself is looked at.
      unfold State.advance at advanced
      rw [held] at advanced
      exact Option.some.inj advanced ▸ pooled.begin
    case inherit failed =>
      refine pooled.put key ?_
      rintro walks ⟨⟩
      exact pooled _ walks failed
    case claim value dep left deps _ _ =>
      have claiming : (state.put key (.claiming value left deps)).Pooled := pooled.put key nofun
      exact claiming.put dep nofun
    all_goals exact pooled.put key nofun

/-- No unit of a schedule fails for want of a pool. -/
theorem pooled_of_reaches {root : NodeKey} {marks : Marks size} {session : Bool}
    (reached : Reaches (LeadsInside plan) (start plan root marks session) state) :
    state.Pooled := by
  refine reached.induct ?_ fun _ _ leads pooled => pooled.moved leads
  intro key walks held
  have spawned := (units_start held).2
  cases spawned

/-- A schedule whose units have not failed for want of a pool has not failed for it either. -/
theorem Pooled.outcome_ne (pooled : state.Pooled) (root : NodeKey) (walks : Nat) :
    state.outcome root ≠ .error (.poolTooLarge walks) := by
  unfold outcome
  split
  · exact nofun
  · next cause failed =>
    rintro ⟨⟩
    exact pooled root walks failed
  · exact nofun

end State

/-- A run fails for want of a pool exactly if its permits are too many. -/
theorem run_poolTooLarge_iff (plan : Plan size) (root : NodeKey) (marks : Marks size)
    (session : Bool) (walks : Nat) :
    (run plan root marks session).1 = .error (.poolTooLarge walks) ↔
      walks = plan.permits ∧ permitLimit < walks := by
  by_cases large : permitLimit < plan.permits
  · rw [run_crowded large]
    constructor
    · rintro ⟨⟩
      exact ⟨rfl, large⟩
    · rintro ⟨rfl, _⟩
      rfl
  · have impossible : (run plan root marks session).1 ≠ .error (.poolTooLarge walks) := by
      unfold run
      rw [if_neg large]
      exact (State.pooled_of_reaches (State.drive_reaches .refl)).outcome_ne root walks
    constructor
    · exact fun failed => absurd failed impossible
    · rintro ⟨rfl, tooLarge⟩
      exact absurd tooLarge large

end Schedule

/-! ## Dumps that can be started -/

namespace Dumper

open Schedule

variable {size : Nat} {dumper : Dumper size} {key : NodeKey} {report : ReportOptions}
  {needle : Option String}

/-- A tally is missing for the reason that the bill is missing for. -/
theorem collect_eq_error_iff {policy : Policy} {error : DumpError} :
    dumper.collect key policy report needle = .error error ↔
      (dumper.bill key policy report needle).1 = .error error := by
  unfold collect
  cases (dumper.bill key policy report needle).1 <;> simp [Except.map]

/-- A transitive tally is missing for want of a pool exactly if the permits that the dumper asks for
are too many. -/
theorem collect_poolTooLarge_iff (live : dumper.cancelled = false) (walks : Nat) :
    dumper.collect key .transitive report needle = .error (.interrupted (.poolTooLarge walks)) ↔
      walks = dumper.config.permits dumper.processors ∧ permitLimit < walks := by
  obtain ⟨marks, marked, _⟩ := builtinsMarks_closed live (report.walkOptions needle)
  rw [collect_eq_error_iff, bill_of_marks .transitive marked]
  change
    billingOf (run (dumper.plan (report.walkOptions needle)) key marks dumper.cancelled).1 = _ ↔ _
  refine Iff.trans ?_ (run_poolTooLarge_iff (dumper.plan (report.walkOptions needle)) key marks
    dumper.cancelled walks)
  cases (run (dumper.plan (report.walkOptions needle)) key marks dumper.cancelled).1 <;>
    simp [billingOf, Except.map, Except.mapError]

/-- **Which settings start a transitive dump.** A lookup of variables asks for the number of permits
that it sets, and for one on each processor if it sets none; a number of walks set directly asks for
that number, and zero for one. So at least one permit is asked for, and more than a pool can have
exactly if the number set is above the limit. A transitive tally is missing for want of a pool in
that case and no other. -/
theorem transitive_starts_iff (lookup : String → Option String) {processors : Nat}
    (one : 1 ≤ processors) (few : processors ≤ permitLimit) (config : Config) (setting : UInt64)
    (dumper : Dumper size) (live : dumper.cancelled = false) (key : NodeKey)
    (report : ReportOptions) (needle : Option String) :
    (1 ≤ (Config.ofLookup lookup).permits processors ∧
      (permitLimit < (Config.ofLookup lookup).permits processors ↔
        ∃ number, Config.Sets lookup number ∧ permitLimit < number) ∧
      (∀ number, Config.Sets lookup number → (Config.ofLookup lookup).permits processors = number) ∧
      ((∀ number, ¬ Config.Sets lookup number) →
        (Config.ofLookup lookup).permits processors = processors)) ∧
    (config.withMaxParallelWalks setting).permits processors = max setting.toNat 1 ∧
    ∀ walks,
      dumper.collect key .transitive report needle = .error (.interrupted (.poolTooLarge walks)) ↔
        walks = dumper.config.permits dumper.processors ∧ permitLimit < walks := by
  refine ⟨?_, ?_, fun walks => collect_poolTooLarge_iff live walks⟩
  · have exactly : ∀ number, Config.Sets lookup number →
        (Config.ofLookup lookup).permits processors = number :=
      fun number sets => Config.permits_of_sets sets processors
    have standard : (∀ number, ¬ Config.Sets lookup number) →
        (Config.ofLookup lookup).permits processors = processors := by
      intro unset
      simp only [Config.permits, Config.parallelWalks_of_unset unset, Nat.max_eq_left one]
    refine ⟨Nat.le_max_right _ _, ?_, exactly, standard⟩
    constructor
    · intro large
      by_cases unset : ∀ number, ¬ Config.Sets lookup number
      · rw [standard unset] at large
        exact absurd few (Nat.not_le.mpr large)
      · obtain ⟨number, sets⟩ := not_forall_not.mp unset
        exact ⟨number, sets, exactly number sets ▸ large⟩
    · rintro ⟨number, sets, large⟩
      rw [exactly number sets]
      exact large
  · exact Config.permits_withMaxParallelWalks config setting processors

/-- An environment that allows six walks at once. -/
def sixLookup (name : String) : Option String :=
  if name = Config.walksVariable then some " +6\n" else none

/-- An environment that allows six walks at once asks for six permits, and the caching node is
tallied. -/
theorem transitive_starts_iff_six :
    (Config.ofLookup sixLookup).permits caching.processors = 6 ∧
      ∀ walks, ({ caching with config := .ofLookup sixLookup } : Dumper 3).collect (corner "whole")
        .transitive .all none ≠ .error (.interrupted (.poolTooLarge walks)) := by
  have six : Config.Sets sixLookup 6 := by
    have spells : Config.Spells ['+', '6'] 6 :=
      ⟨['+'], ['6'], rfl, Or.inr rfl, List.cons_ne_nil _ _, List.forall_mem_singleton.mpr rfl, rfl⟩
    exact ⟨" +6\n", rfl, ⟨[' '], _, ['\n'], rfl, spells, List.forall_mem_singleton.mpr rfl,
      List.forall_mem_singleton.mpr rfl⟩, by decide, by decide⟩
  have few : 6 ≤ permitLimit := by decide +kernel
  have one : 1 ≤ caching.processors := by decide
  have rule := transitive_starts_iff sixLookup one (by decide +kernel)
    .standard 6 { caching with config := .ofLookup sixLookup } rfl (corner "whole") .all none
  have asked := rule.1.2.2.1 6 six
  refine ⟨asked, ?_⟩
  intro walks failed
  obtain ⟨same, large⟩ := (rule.2.2 walks).mp failed
  rw [same] at large
  exact absurd (asked ▸ large) (Nat.not_lt.mpr few)

/-- An environment that allows 2^61 walks at once. -/
def crowdedLookup (name : String) : Option String :=
  if name = Config.walksVariable then some "2305843009213693952" else none

/-- **A setting that starts no transitive dump is accepted.** The configuration takes 2^61 walks
over from the environment, which is one more permit than a pool can have, so a transitive tally of
the caching node is missing, whatever its report. -/
theorem crowded_setting_accepted :
    (Config.ofLookup crowdedLookup).maxParallelWalks = some 2305843009213693952 ∧
      permitLimit < (Config.ofLookup crowdedLookup).permits caching.processors ∧
      ({ caching with config := .ofLookup crowdedLookup } : Dumper 3).collect (corner "whole")
        .transitive .all none = .error (.interrupted (.poolTooLarge 2305843009213693952)) := by
  have accepted : (Config.ofLookup crowdedLookup).maxParallelWalks = some 2305843009213693952 := by
    decide +kernel
  have asked : (Config.ofLookup crowdedLookup).permits caching.processors =
      2305843009213693952 := by
    rw [Config.permits, Config.parallelWalks, accepted]
    rfl
  have large : permitLimit < 2305843009213693952 := by decide +kernel
  refine ⟨accepted, asked ▸ large, (collect_poolTooLarge_iff rfl _).mpr ⟨?_, large⟩⟩
  exact asked.symm

end Dumper

end Retained
