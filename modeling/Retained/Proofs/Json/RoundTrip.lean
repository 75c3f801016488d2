import Mathlib.Data.List.Basic
import Mathlib.Data.List.TakeWhile
import Retained.Json.Read
import Retained.Json.Write

/-!
# Reading what was written

A value whose numbers are counts is read back from its text (`Json.read_write`). Reading goes
through a text from left to right, so it is told for the parts of a text and put together
(`Scanner.Reads`). A literal or number is complete only with the character behind it; a scanner that
needs no more than that for the value before it is settled (`Scanner.Settled`), and goes on like one
between two tokens.
-/

namespace Retained.Number

/-- The digits of a number start with a zero only if there is one digit. -/
theorem length_toDigits_of_zero (value : Nat) :
    (Nat.toDigits 10 value).head? = some '0' → (Nat.toDigits 10 value).length = 1 := by
  induction value using Nat.strongRecOn with
  | ind value further =>
    by_cases single : value < 10
    · rw [Nat.toDigits_of_lt_base single]
      exact fun _ => rfl
    · intro zero
      rw [Nat.toDigits_of_base_le (by decide) (Nat.not_lt.mp single),
        List.head?_append_of_ne_nil _ Nat.toDigits_ne_nil] at zero
      -- The digits in front would be a zero alone, though their number is positive.
      have short := further (value / 10) (by omega) zero
      have below : value / 10 < 10 :=
        (Nat.length_toDigits_le_iff (by decide) (by decide)).mp short.le
      rw [Nat.toDigits_of_lt_base below] at zero
      have isZero : value / 10 = 0 := by simpa using zero
      omega

/-- The digits of a number are decimal digits. -/
theorem isDigit_of_mem {value : Nat} {digit : Char} (member : digit ∈ Nat.toDigits 10 value) :
    digit.isDigit = true :=
  Nat.isDigit_of_mem_toDigits (by decide) (by decide) member

/-- The digits of a number are a literal for it. -/
theorem ofLiteral?_toDigits (value : Nat) :
    ofLiteral? (Nat.toDigits 10 value) = some (.natural value) := by
  have unsigned : (Nat.toDigits 10 value).head? ≠ some '-' := by
    intro sign
    have digit := isDigit_of_mem (List.mem_of_mem_head? sign)
    contradiction
  have whole : takeDigits? (Nat.toDigits 10 value) = some (Nat.toDigits 10 value, []) := by
    unfold takeDigits?
    rw [List.takeWhile_eq_self_iff.mpr fun digit => isDigit_of_mem,
      List.dropWhile_eq_nil_iff.mpr fun digit => isDigit_of_mem]
    split
    · next empty => exact absurd empty Nat.toDigits_ne_nil
    · rfl
  have written : ofDigits (Nat.toDigits 10 value) = value := by
    have sameValue :
        ofDigits (Nat.toDigits 10 value) = Nat.ofDigitChars 10 (Nat.toDigits 10 value) 0 := by
      simp only [ofDigits, digitValue, Nat.ofDigitChars, Nat.mul_comm]
    rw [sameValue, Nat.ofDigitChars_ten_toDigits]
  have canonical : (Nat.toDigits 10 value).head? = some '0' → (Nat.toDigits 10 value).length ≤ 1 :=
    fun zero => (length_toDigits_of_zero value zero).le
  simpa [ofLiteral?, unsigned, whole, written, takeFraction?, takeExponent?] using canonical

end Retained.Number

namespace Retained.Json

/-- A value all of whose numbers are counts. -/
inductive OfCounts : Json → Prop where
  /-- The literal `null`. -/
  | null : OfCounts .null
  /-- The literals `true` and `false`. -/
  | bool (value : Bool) : OfCounts (.bool value)
  /-- A count. -/
  | natural (value : Nat) : OfCounts (.ofNat value)
  /-- A string. -/
  | string (text : Option String) : OfCounts (.string text)
  /-- An array of such values. -/
  | array {elements : List Json} (each : ∀ element ∈ elements, OfCounts element) :
      OfCounts (.array elements)
  /-- An object with such values. -/
  | object {members : List (Option String × Json)} (each : ∀ member ∈ members, OfCounts member.2) :
      OfCounts (.object members)

/-! ## Characters -/

/-- A character of a word neither separates tokens nor starts a string. -/
theorem between_of_isWordCharacter {character : Char} (inWord : isWordCharacter character = true) :
    isSpace character = false ∧ character ≠ '"' := by
  constructor
  · rw [Bool.eq_false_iff]
    intro space
    simp only [isSpace, Bool.or_eq_true, beq_iff_eq] at space
    rcases space with ((rfl | rfl) | rfl) | rfl <;> contradiction
  · rintro rfl
    contradiction

/-- A punctuation character belongs to no word and no space, and starts no string. -/
theorem between_of_punctuation {character : Char} {token : Token}
    (mark : punctuation? character = some token) :
    isWordCharacter character = false ∧ isSpace character = false ∧ character ≠ '"' := by
  have known : ∀ code, character.toNat = code → character = Char.ofNat code := by
    rintro code rfl
    exact (Char.ofNat_toNat character).symm
  unfold punctuation? at mark
  split at mark
  · next code => rw [known _ code]; decide
  · next code => rw [known _ code]; decide
  · next code => rw [known _ code]; decide
  · next code => rw [known _ code]; decide
  · next code => rw [known _ code]; decide
  · next code => rw [known _ code]; decide
  · cases mark

/-- The letter that escapes a character stands for it. -/
theorem escaped?_escapeLetter {character letter : Char}
    (escapes : escapeLetter? character = some letter) :
    letter ≠ 'u' ∧ escaped? letter = some character := by
  unfold escapeLetter? at escapes
  split at escapes <;> cases escapes <;> exact ⟨by decide, rfl⟩

/-- No character is half of a surrogate pair. -/
theorem not_surrogate (character : Char) :
    ¬ (0xD800 ≤ character.toNat ∧ character.toNat ≤ 0xDFFF) := by
  have valid : character.toNat < 0xD800 ∨ 0xDFFF < character.toNat ∧ character.toNat < 0x110000 :=
    character.valid
  omega

/-- The codes of characters denote those characters. -/
theorem charactersOf?_map_toNat (text : List Char) :
    charactersOf? (text.map Char.toNat) = some text := by
  induction text with
  | nil => rfl
  | cons character rest further =>
    cases rest with
    | nil =>
      simp only [List.map_cons, List.map_nil, charactersOf?]
      rw [if_neg (not_surrogate character), Char.ofNat_toNat]
    | cons next others =>
      simp only [List.map_cons, charactersOf?] at further ⊢
      rw [if_neg (not_surrogate character), further, Char.ofNat_toNat]
      rfl

/-! ## Going through a text -/

namespace Scanner

variable {scanner middle last : Scanner} {builder after : Builder} {text further : List Char}
  {character : Char}

/-- Going on through a text leads a scanner to another one. -/
def Reads (scanner : Scanner) (text : List Char) (last : Scanner) : Prop :=
  text.foldlM step scanner = some last

/-- One character is read in one step. -/
theorem Reads.single (stepped : scanner.step character = some last) :
    scanner.Reads [character] last := by
  rw [Reads, List.foldlM_cons, stepped]
  rfl

/-- A text is read part by part. -/
theorem Reads.append (first : scanner.Reads text middle) (rest : middle.Reads further last) :
    scanner.Reads (text ++ further) last := by
  rw [Reads, List.foldlM_append, first]
  exact rest

/-- A text is read character by character. -/
theorem Reads.cons (stepped : scanner.step character = some middle)
    (rest : middle.Reads text last) :
    scanner.Reads (character :: text) last :=
  (Reads.single stepped).append rest

/-- A scanner that has all of the tokens that a builder has taken: it stands between two tokens, or
in a word that is complete if the text does not go on with it. -/
inductive Settled (builder : Builder) : Scanner → Prop where
  /-- It stands between two tokens. -/
  | between : Settled builder { mode := .between, builder }
  /-- It is in a word that the builder takes. -/
  | word {before : Builder} {characters : List Char}
      (taken : finishWord before characters = some builder) :
      Settled builder { mode := .word characters, builder := before }

/-- A settled scanner goes on like one between two tokens, unless the text goes on with a word. -/
theorem Settled.step_eq (settled : Settled builder scanner)
    (apart : isWordCharacter character = false) :
    scanner.step character = stepBetween builder character := by
  cases settled with
  | between => rfl
  | word taken => simp [step, apart, taken]

/-- A text may end at a settled scanner where its builder is complete. -/
theorem Settled.finish_eq (settled : Settled builder scanner) :
    scanner.finish = builder.finish := by
  cases settled with
  | between => rfl
  | word taken => simp [finish, taken]

/-- A settled scanner reads a punctuation character that its builder takes. -/
theorem Settled.reads_mark {token : Token} (settled : Settled builder scanner)
    (mark : punctuation? character = some token) (taken : builder.accept token = some after) :
    scanner.Reads [character] { mode := .between, builder := after } := by
  obtain ⟨apart, noSpace, noQuote⟩ := between_of_punctuation mark
  apply Reads.single
  rw [settled.step_eq apart, stepBetween]
  simp [noSpace, noQuote, apart, mark, taken]

/-! ## Words and strings -/

/-- The characters of a word are collected. -/
theorem reads_collected {word : List Char}
    (each : ∀ character ∈ word, isWordCharacter character = true) (collected : List Char) :
    Reads { mode := .word collected, builder } word
      { mode := .word (word.reverse ++ collected), builder } := by
  induction word generalizing collected with
  | nil => rfl
  | cons character word further =>
    have inWord := each character List.mem_cons_self
    have stepped : step { mode := .word collected, builder } character =
        some { mode := .word (character :: collected), builder } := by
      simp [step, inWord]
    have rest := further (fun other member => each other (List.mem_cons_of_mem _ member))
      (character :: collected)
    rw [List.reverse_cons, List.append_assoc]
    exact .cons stepped rest

/-- A word that spells a scalar is read, and settled as soon as it is through. -/
theorem reads_word {word : List Char} {value : Json} (nonempty : word ≠ [])
    (each : ∀ character ∈ word, isWordCharacter character = true)
    (spelled : ofWord? word = some value) (taken : builder.accept (.scalar value) = some after) :
    ∃ last, Reads { mode := .between, builder } word last ∧ Settled after last := by
  cases word with
  | nil => contradiction
  | cons character word =>
    have inWord := each character List.mem_cons_self
    obtain ⟨noSpace, noQuote⟩ := between_of_isWordCharacter inWord
    have stepped : step { mode := .between, builder } character =
        some { mode := .word [character], builder } := by
      simp [step, stepBetween, inWord, noSpace, noQuote]
    have rest : Reads { mode := .word [character], builder } word
        { mode := .word (word.reverse ++ [character]), builder } :=
      reads_collected (fun other member => each other (List.mem_cons_of_mem _ member)) [character]
    refine ⟨_, .cons stepped rest, .word ?_⟩
    have whole : (word.reverse ++ [character]).reverse = character :: word := by simp
    rw [finishWord, whole, spelled]
    exact taken

/-- A character inside a string is read from what is written for it. -/
theorem reads_character (character : Char) (codes : List Nat) :
    Reads { mode := .text codes, builder } (writeCharacter character)
      { mode := .text (character.toNat :: codes), builder } := by
  have backslash : step { mode := .text codes, builder } '\\' =
      some { mode := .escape codes, builder } := rfl
  unfold writeCharacter
  split
  · next letter escapes =>
    obtain ⟨noHex, stands⟩ := escaped?_escapeLetter escapes
    have stepped : step { mode := .escape codes, builder } letter =
        some { mode := .text (character.toNat :: codes), builder } := by
      simp [step, noHex, stands]
    exact .cons backslash (.single stepped)
  · next unescaped =>
    by_cases control : character.toNat < 0x20
    · rw [if_pos control]
      have high : Text.hexValue? (Text.hexDigit (character.toNat / 16)) =
          some (character.toNat / 16) :=
        Text.hexValue?_hexDigit _ (by omega)
      have low : Text.hexValue? (Text.hexDigit (character.toNat % 16)) =
          some (character.toNat % 16) :=
        Text.hexValue?_hexDigit _ (by omega)
      have value : character.toNat / 16 * 16 + character.toNat % 16 = character.toNat := by omega
      have stepHigh :
          step { mode := .hex codes 0 2, builder } (Text.hexDigit (character.toNat / 16)) =
          some { mode := .hex codes (character.toNat / 16) 1, builder } := by
        simp [step, high]
      have stepLow : step { mode := .hex codes (character.toNat / 16) 1, builder }
          (Text.hexDigit (character.toNat % 16)) =
          some { mode := .text (character.toNat :: codes), builder } := by
        simp [step, low, value]
      exact .cons backslash (.cons rfl (.cons rfl (.cons rfl (.cons stepHigh (.single stepLow)))))
    · rw [if_neg control]
      have noQuote : character ≠ '"' := by
        rintro rfl
        contradiction
      have noBackslash : character ≠ '\\' := by
        rintro rfl
        contradiction
      apply Reads.single
      simp [step, noQuote, noBackslash, control]

/-- The characters inside a string are read from what is written for them. -/
theorem reads_characters (text : List Char) (codes : List Nat) :
    Reads { mode := .text codes, builder } (text.flatMap writeCharacter)
      { mode := .text ((text.map Char.toNat).reverse ++ codes), builder } := by
  induction text generalizing codes with
  | nil => rfl
  | cons character text further =>
    rw [List.flatMap_cons, List.map_cons, List.reverse_cons, List.append_assoc]
    exact (reads_character character codes).append (further (character.toNat :: codes))

/-- A string is read from what is written for it. -/
theorem reads_text {text : Option String}
    (taken : builder.accept (.scalar (.string text)) = some after) :
    Reads { mode := .between, builder } (writeText text).toList
      { mode := .between, builder := after } := by
  have opened : step { mode := .between, builder } '"' = some { mode := .text [], builder } := rfl
  have closed : ∀ codes, (charactersOf? codes.reverse).map String.ofList = text →
      step { mode := .text codes, builder } '"' = some { mode := .between, builder := after } := by
    intro codes denotes
    simp [step, finishText, denotes, taken]
  cases text with
  | none =>
    -- The escape is half of a surrogate pair.
    have escape : Reads { mode := .text [], builder } ['\\', 'u', 'd', '8', '0', '0']
        { mode := .text [0xD800], builder } := rfl
    exact .cons opened (escape.append (.single (closed _ rfl)))
  | some text =>
    have written : (writeText (some text)).toList =
        '"' :: (text.toList.flatMap writeCharacter ++ ['"']) := by
      simp [writeText]
    have denotes : (charactersOf? ((text.toList.map Char.toNat).reverse ++ []).reverse).map
        String.ofList = some text := by
      rw [List.append_nil, List.reverse_reverse, charactersOf?_map_toNat, Option.map_some,
        String.ofList_toList]
    rw [written]
    exact .cons opened ((reads_characters text.toList []).append (.single (closed _ denotes)))

end Scanner

/-! ## What may come next -/

namespace Builder

/-- A value may come next. -/
inductive TakesValue : Position → Prop where
  /-- At the start of a text, and behind a colon or comma. -/
  | value : TakesValue .value
  /-- At the start of an array. -/
  | firstElement : TakesValue .firstElement

/-- A member may come next. -/
inductive TakesName : Position → Prop where
  /-- At the start of an object. -/
  | firstMember : TakesName .firstMember
  /-- Behind a comma. -/
  | nextMember : TakesName .nextMember

/-- Where a value may come next, a token that closes nothing is taken as the start of one. -/
theorem accept_value {position : Position} (takes : TakesValue position) (frames : List Frame)
    {token : Token} (opens : token ≠ .closeArray) :
    accept { frames, position } token = acceptValue frames token := by
  cases takes with
  | value => rfl
  | firstElement =>
    cases frames with
    | nil => cases token <;> rfl
    | cons frame frames => cases frame <;> cases token <;> first | rfl | contradiction

/-- Where a member may come next, a string is taken as its name. -/
theorem accept_name {position : Position} (takes : TakesName position) (frames : List Frame)
    (name : Option String) :
    accept { frames, position } (.scalar (.string name)) =
      some { frames, position := .afterName name } := by
  cases takes with
  | nextMember => rfl
  | firstMember =>
    cases frames with
    | nil => rfl
    | cons frame frames => cases frame <;> rfl

end Builder

open Scanner Builder

variable {frames : List Frame} {scanner : Scanner}

/-- A scanner between two tokens, with some containers open, that waits for what may come next. -/
abbrev Scanner.awaiting (frames : List Frame) (position : Position) : Scanner :=
  { mode := .between, builder := { frames, position } }

/-- A scanner that has all of a value, with some containers open. -/
abbrev Scanner.Completes (scanner : Scanner) (frames : List Frame) (value : Json) : Prop :=
  Settled { frames, position := .afterValue value } scanner

/-- The text of a value is read back as the value, wherever a value may come next. -/
def IsReadBack (json : Json) : Prop :=
  ∀ (frames : List Frame) (position : Position), TakesValue position →
    ∃ last, (awaiting frames position).Reads (write json).toList last ∧ last.Completes frames json

/-- Further elements of an array are read back, and the array with them. -/
theorem reads_elements {elements done : List Json} {value : Json}
    (each : ∀ element ∈ elements, IsReadBack element)
    (complete : scanner.Completes (.elements done :: frames) value) :
    scanner.Reads ((writeElements elements).toList ++ [']'])
      (awaiting frames (.afterValue (.array (done.reverse ++ value :: elements)))) := by
  induction elements generalizing done value scanner with
  | nil =>
    rw [← List.reverse_cons]
    exact complete.reads_mark rfl rfl
  | cons element elements further =>
    have comma : scanner.Reads [','] (awaiting (.elements (value :: done) :: frames) .value) :=
      complete.reads_mark rfl rfl
    obtain ⟨last, first, completes⟩ :=
      each element List.mem_cons_self (.elements (value :: done) :: frames) _ .value
    have rest := further (fun other member => each other (List.mem_cons_of_mem _ member)) completes
    have whole : (writeElements (element :: elements)).toList ++ [']'] =
        [','] ++ ((write element).toList ++ ((writeElements elements).toList ++ [']'])) := by
      simp [writeElements]
    rw [whole]
    simpa using comma.append (first.append rest)

/-- A member is read back where a member may come next. -/
theorem reads_member {position : Position} (takes : TakesName position)
    (frames : List Frame) (done : List (Option String × Json)) (name : Option String) {value : Json}
    (back : IsReadBack value) :
    ∃ last, (awaiting (.members done :: frames) position).Reads
        ((writeText name).toList ++ ([':'] ++ (write value).toList)) last ∧
      last.Completes (.member done name :: frames) value := by
  have named := reads_text (accept_name takes (.members done :: frames) name)
  have colon : (awaiting (.members done :: frames) (.afterName name)).Reads [':']
      (awaiting (.member done name :: frames) .value) :=
    Settled.between.reads_mark rfl rfl
  obtain ⟨last, first, completes⟩ := back (.member done name :: frames) _ .value
  exact ⟨last, named.append (colon.append first), completes⟩

/-- Further members of an object are read back, and the object with them. -/
theorem reads_members {members done : List (Option String × Json)} {name : Option String}
    {value : Json} (each : ∀ member ∈ members, IsReadBack member.2)
    (complete : scanner.Completes (.member done name :: frames) value) :
    scanner.Reads ((writeMembers members).toList ++ ['\x7d'])
      (awaiting frames (.afterValue (.object (done.reverse ++ (name, value) :: members)))) := by
  induction members generalizing done name value scanner with
  | nil =>
    rw [← List.reverse_cons]
    exact complete.reads_mark rfl rfl
  | cons member members further =>
    obtain ⟨nextName, next⟩ := member
    have comma :
        scanner.Reads [','] (awaiting (.members ((name, value) :: done) :: frames) .nextMember) :=
      complete.reads_mark rfl rfl
    obtain ⟨last, first, completes⟩ :=
      reads_member .nextMember frames ((name, value) :: done) nextName
      (each (nextName, next) List.mem_cons_self)
    have rest := further (fun other member => each other (List.mem_cons_of_mem _ member)) completes
    have whole : (writeMembers ((nextName, next) :: members)).toList ++ ['\x7d'] =
        [','] ++ (((writeText nextName).toList ++ ([':'] ++ (write next).toList)) ++
          ((writeMembers members).toList ++ ['\x7d'])) := by
      simp [writeMembers]
    rw [whole]
    simpa using comma.append (first.append rest)

/-- A scalar that a word spells is read back from the word. -/
theorem isReadBack_of_word {word : List Char} {value : Json} (nonempty : word ≠ [])
    (each : word.all isWordCharacter = true) (spelled : ofWord? word = some value)
    (written : (write value).toList = word) : IsReadBack value := by
  intro frames position takes
  rw [written]
  exact reads_word nonempty (List.all_eq_true.mp each) spelled (accept_value takes frames nofun)

/-- A count is read back from its digits. -/
theorem isReadBack_natural (value : Nat) : IsReadBack (.ofNat value) := by
  have written : (write (.ofNat value)).toList = Nat.toDigits 10 value := by
    simp [write, ofNat, Number.render, Nat.toString_eq_repr, Nat.toList_repr]
  have noLiteral : ∀ word : List Char, (∃ letter ∈ word, letter.isDigit = false) →
      Nat.toDigits 10 value ≠ word := by
    rintro word ⟨letter, member, noDigit⟩ rfl
    rw [Number.isDigit_of_mem member] at noDigit
    cases noDigit
  have spelled : ofWord? (Nat.toDigits 10 value) = some (.ofNat value) := by
    rw [ofWord?, if_neg (noLiteral _ ⟨'n', by decide, rfl⟩),
      if_neg (noLiteral _ ⟨'t', by decide, rfl⟩), if_neg (noLiteral _ ⟨'f', by decide, rfl⟩),
      Number.ofLiteral?_toDigits]
    rfl
  refine isReadBack_of_word Nat.toDigits_ne_nil (List.all_eq_true.mpr ?_) spelled written
  intro digit member
  simp [isWordCharacter, Number.isDigit_of_mem member]

/-- An array is read back if its elements are. -/
theorem isReadBack_array {elements : List Json} (each : ∀ element ∈ elements, IsReadBack element) :
    IsReadBack (.array elements) := by
  intro frames position takes
  have opened : (awaiting frames position).Reads ['[']
      (awaiting (.elements [] :: frames) .firstElement) :=
    Settled.between.reads_mark rfl (accept_value takes frames nofun)
  cases elements with
  | nil =>
    have closed : (awaiting (.elements [] :: frames) .firstElement).Reads [']']
        (awaiting frames (.afterValue (.array []))) := rfl
    exact ⟨_, opened.append closed, .between⟩
  | cons element elements =>
    obtain ⟨last, first, completes⟩ :=
      each element List.mem_cons_self (.elements [] :: frames) _ .firstElement
    have rest :=
      reads_elements (fun other member => each other (List.mem_cons_of_mem _ member)) completes
    have whole : (write (.array (element :: elements))).toList =
        ['['] ++ ((write element).toList ++ ((writeElements elements).toList ++ [']'])) := by
      simp [write]
    rw [whole]
    exact ⟨_, opened.append (first.append rest), .between⟩

/-- An object is read back if the values of its members are. -/
theorem isReadBack_object {members : List (Option String × Json)}
    (each : ∀ member ∈ members, IsReadBack member.2) : IsReadBack (.object members) := by
  intro frames position takes
  have opened : (awaiting frames position).Reads ['\x7b']
      (awaiting (.members [] :: frames) .firstMember) :=
    Settled.between.reads_mark rfl (accept_value takes frames nofun)
  cases members with
  | nil =>
    have closed : (awaiting (.members [] :: frames) .firstMember).Reads ['\x7d']
        (awaiting frames (.afterValue (.object []))) := rfl
    exact ⟨_, opened.append closed, .between⟩
  | cons member members =>
    obtain ⟨name, value⟩ := member
    obtain ⟨last, first, completes⟩ :=
      reads_member .firstMember frames [] name (each (name, value) List.mem_cons_self)
    have rest :=
      reads_members (fun other member => each other (List.mem_cons_of_mem _ member)) completes
    have whole : (write (.object ((name, value) :: members))).toList =
        ['\x7b'] ++ (((writeText name).toList ++ ([':'] ++ (write value).toList)) ++
          ((writeMembers members).toList ++ ['\x7d'])) := by
      simp [write]
    rw [whole]
    exact ⟨_, opened.append (first.append rest), .between⟩

/-- A value all of whose numbers are counts is read back. -/
theorem OfCounts.isReadBack {json : Json} (counts : OfCounts json) : IsReadBack json := by
  induction counts with
  | null => exact isReadBack_of_word (by decide) (by decide) rfl rfl
  | bool value => cases value <;> exact isReadBack_of_word (by decide) (by decide) rfl rfl
  | natural value => exact isReadBack_natural value
  | string text =>
    intro frames position takes
    exact ⟨_, reads_text (accept_value takes frames nofun), .between⟩
  | array _ further => exact isReadBack_array further
  | object _ further => exact isReadBack_object further

/-- **A value all of whose numbers are counts is read from its text.** -/
theorem read_write {json : Json} (counts : OfCounts json) : read (write json) = some json := by
  obtain ⟨last, through, settled⟩ := counts.isReadBack [] .value .value
  have scanned : (write json).toList.foldlM step Scanner.start = some last := through
  rw [read, scanned]
  exact settled.finish_eq

end Retained.Json
