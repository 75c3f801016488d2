/-!
# Cutting text at a character

Labels, packages and mode strings are read by cutting them at a separator. The functions here work
on lists of characters, keep every character that is not a separator, and never drop an empty field:
`joinFields_splitFields` says that joining the fields again gives the text back, and
`not_mem_of_mem_splitFields` that no field holds the separator.
-/

namespace Retained.Text

/-- The fields of a text between the separators: one more than there are separators. -/
def splitFields (separator : Char) : List Char → List (List Char)
  | [] => [[]]
  | character :: rest =>
    if character = separator then
      [] :: splitFields separator rest
    else
      match splitFields separator rest with
      | [] => [[character]]
      | field :: fields => (character :: field) :: fields

/-- The fields written one after the other with the separator between them. -/
def joinFields (separator : Char) : List (List Char) → List Char
  | [] => []
  | [field] => field
  | field :: fields => field ++ separator :: joinFields separator fields

/-- A text has at least one field. -/
theorem splitFields_ne_nil (separator : Char) (text : List Char) :
    splitFields separator text ≠ [] := by
  cases text with
  | nil => simp [splitFields]
  | cons character rest =>
    unfold splitFields
    split
    · simp
    · split <;> simp

/-- Cutting loses nothing: the fields joined by the separator are the text. -/
theorem joinFields_splitFields (separator : Char) (text : List Char) :
    joinFields separator (splitFields separator text) = text := by
  induction text with
  | nil => rfl
  | cons character rest ih =>
    have nonempty := splitFields_ne_nil separator rest
    unfold splitFields
    split
    · next equal =>
      cases fields : splitFields separator rest with
      | nil => exact absurd fields nonempty
      | cons field others =>
        rw [fields] at ih
        simp [joinFields, ih, equal]
    · cases fields : splitFields separator rest with
      | nil => exact absurd fields nonempty
      | cons field others =>
        rw [fields] at ih
        cases others with
        | nil => simpa [joinFields] using ih
        | cons next others => simpa [joinFields] using ih

/-- No field holds the separator. -/
theorem not_mem_of_mem_splitFields {separator : Char} {text field : List Char}
    (isField : field ∈ splitFields separator text) : separator ∉ field := by
  induction text generalizing field with
  | nil => simp_all [splitFields]
  | cons character rest ih =>
    unfold splitFields at isField
    split at isField
    · rcases List.mem_cons.1 isField with rfl | later
      · simp
      · exact ih later
    · next differs =>
      cases fields : splitFields separator rest with
      | nil => exact absurd fields (splitFields_ne_nil separator rest)
      | cons first others =>
        rw [fields] at isField ih
        rcases List.mem_cons.1 isField with rfl | later
        · have clean := ih List.mem_cons_self
          simp only [List.mem_cons, not_or]
          exact ⟨fun equal => differs equal.symm, clean⟩
        · exact ih (List.mem_cons_of_mem _ later)

/-- A text without the separator is its only field. -/
theorem splitFields_of_not_mem {separator : Char} {text : List Char} (clean : separator ∉ text) :
    splitFields separator text = [text] := by
  induction text with
  | nil => rfl
  | cons character rest ih =>
    rw [List.mem_cons, not_or] at clean
    simp [splitFields, Ne.symm clean.1, ih clean.2]

/-- The fields around a separator are those before it and those after it. -/
theorem splitFields_append (separator : Char) (before after : List Char) :
    splitFields separator (before ++ separator :: after) =
      splitFields separator before ++ splitFields separator after := by
  induction before with
  | nil => simp [splitFields]
  | cons character rest ih =>
    by_cases equal : character = separator
    · simp [splitFields, equal, ih]
    · cases fields : splitFields separator rest with
      | nil => exact absurd fields (splitFields_ne_nil separator rest)
      | cons field others => simp [splitFields, equal, ih, fields]

/-- Fields that do not hold the separator are those of the text that they are joined to. -/
theorem splitFields_joinFields {separator : Char} {fields : List (List Char)} (filled : fields ≠ [])
    (clean : ∀ field ∈ fields, separator ∉ field) :
    splitFields separator (joinFields separator fields) = fields := by
  induction fields with
  | nil => exact absurd rfl filled
  | cons field others ih =>
    have first := splitFields_of_not_mem (clean field List.mem_cons_self)
    cases others with
    | nil => exact first
    | cons next others =>
      have rest := ih (List.cons_ne_nil next others) fun other member =>
        clean other (List.mem_cons_of_mem field member)
      rw [joinFields, splitFields_append, first, rest]
      · rfl
      · exact List.cons_ne_nil next others

/-- A character of joined fields is the separator or one of a field. -/
theorem mem_joinFields {separator character : Char} {fields : List (List Char)}
    (member : character ∈ joinFields separator fields) :
    character = separator ∨ ∃ field ∈ fields, character ∈ field := by
  induction fields with
  | nil => cases member
  | cons field others ih =>
    cases others with
    | nil => exact Or.inr ⟨field, List.mem_cons_self, member⟩
    | cons next others =>
      rw [joinFields, List.mem_append, List.mem_cons] at member
      · rcases member with inside | isSeparator | later
        · exact Or.inr ⟨field, List.mem_cons_self, inside⟩
        · exact Or.inl isSeparator
        · refine (ih later).imp_right ?_
          rintro ⟨other, isOther, inside⟩
          exact ⟨other, List.mem_cons_of_mem field isOther, inside⟩
      · exact List.cons_ne_nil next others

/-- The characters of a field are those of the joined fields. -/
theorem mem_joinFields_of_mem {separator character : Char} {fields : List (List Char)}
    {field : List Char} (isField : field ∈ fields) (inside : character ∈ field) :
    character ∈ joinFields separator fields := by
  induction fields with
  | nil => cases isField
  | cons first others ih =>
    cases others with
    | nil =>
      rw [List.mem_singleton] at isField
      rwa [isField] at inside
    | cons next others =>
      rw [joinFields, List.mem_append, List.mem_cons]
      · rcases List.mem_cons.mp isField with rfl | later
        · exact Or.inl inside
        · exact Or.inr (Or.inr (ih later))
      · exact List.cons_ne_nil next others

/-- The last field behind others stands behind the last separator. -/
theorem joinFields_concat {separator : Char} {fields : List (List Char)} (filled : fields ≠ [])
    (last : List Char) : joinFields separator (fields ++ [last]) =
      joinFields separator fields ++ separator :: last := by
  induction fields with
  | nil => exact absurd rfl filled
  | cons field others ih =>
    cases others with
    | nil => rfl
    | cons next others =>
      have rest := ih (List.cons_ne_nil next others)
      simp only [List.cons_append, joinFields, List.append_assoc] at rest ⊢
      rw [rest]

/-- What stands before and after the first separator, if there is one. -/
def splitFirst? (separator : Char) : List Char → Option (List Char × List Char)
  | [] => none
  | character :: rest =>
    if character = separator then
      some ([], rest)
    else
      (splitFirst? separator rest).map fun (before, after) => (character :: before, after)

/-- What stands before and after the last separator, if there is one. -/
def splitLast? (separator : Char) : List Char → Option (List Char × List Char)
  | [] => none
  | character :: rest =>
    match splitLast? separator rest with
    | some (before, after) => some (character :: before, after)
    | none => if character = separator then some ([], rest) else none

/-- A cut at the first separator splits the text exactly there, and nothing before it is the
separator. -/
theorem splitFirst?_eq_some_iff {separator : Char} {text before after : List Char} :
    splitFirst? separator text = some (before, after) ↔
      text = before ++ separator :: after ∧ separator ∉ before := by
  induction text generalizing before with
  | nil => simp [splitFirst?]
  | cons character rest ih =>
    unfold splitFirst?
    split
    · next equal =>
      subst equal
      cases before with
      | nil => simp [eq_comm]
      | cons first others =>
        simp only [Option.some.injEq, Prod.mk.injEq, reduceCtorEq, false_and, List.cons_append,
          List.cons.injEq, List.mem_cons, not_or, false_iff, not_and]
        intro equal differs
        exact absurd equal.1 differs
    · next differs =>
      cases before with
      | nil => simp [differs]
      | cons first others =>
        simp only [Option.map_eq_some_iff, Prod.mk.injEq, List.cons.injEq, Prod.exists,
          List.cons_append, List.mem_cons, not_or]
        constructor
        · rintro ⟨cutBefore, cutAfter, found, ⟨rfl, rfl⟩, rfl⟩
          obtain ⟨rfl, clean⟩ := ih.1 found
          exact ⟨⟨rfl, rfl⟩, fun equal => differs equal.symm, clean⟩
        · rintro ⟨⟨rfl, rfl⟩, _, clean⟩
          exact ⟨others, after, ih.2 ⟨rfl, clean⟩, ⟨rfl, rfl⟩, rfl⟩

/-- There is no cut exactly when the separator does not occur. -/
theorem splitFirst?_eq_none_iff {separator : Char} {text : List Char} :
    splitFirst? separator text = none ↔ separator ∉ text := by
  induction text with
  | nil => simp [splitFirst?]
  | cons character rest ih =>
    unfold splitFirst?
    split
    · next equal => simp [equal]
    · next differs =>
      rw [Option.map_eq_none_iff, ih, List.mem_cons, not_or]
      exact ⟨fun absent => ⟨fun equal => differs equal.symm, absent⟩, And.right⟩

/-- There is no last separator exactly when the separator does not occur. -/
theorem splitLast?_eq_none_iff {separator : Char} {text : List Char} :
    splitLast? separator text = none ↔ separator ∉ text := by
  induction text with
  | nil => simp [splitLast?]
  | cons character rest ih =>
    rw [splitLast?, List.mem_cons, not_or]
    cases cut : splitLast? separator rest with
    | none =>
      have clean := ih.1 cut
      by_cases equal : character = separator
      · simp [equal]
      · simp [equal, clean, Ne.symm equal]
    | some halves =>
      have found : ¬ separator ∉ rest := fun absent => by simp [ih.2 absent] at cut
      simpa using fun _ => Decidable.not_not.1 found

/-- A separator with none after it is the last one. -/
theorem splitLast?_append {separator : Char} (before : List Char) {after : List Char}
    (clean : separator ∉ after) :
    splitLast? separator (before ++ separator :: after) = some (before, after) := by
  induction before with
  | nil => simp [splitLast?, splitLast?_eq_none_iff.2 clean]
  | cons character others ih => simp [splitLast?, ih]

/-- A cut at the last separator splits the text exactly there, and nothing after it is the
separator. -/
theorem splitLast?_eq_some_iff {separator : Char} {text before after : List Char} :
    splitLast? separator text = some (before, after) ↔
      text = before ++ separator :: after ∧ separator ∉ after := by
  constructor
  · intro cut
    induction text generalizing before with
    | nil => simp [splitLast?] at cut
    | cons character rest ih =>
      rw [splitLast?] at cut
      split at cut
      · next earlier later found =>
        cases cut
        obtain ⟨rfl, clean⟩ := ih found
        exact ⟨rfl, clean⟩
      · next none =>
        split at cut
        · next equal =>
          cases cut
          rw [equal]
          exact ⟨rfl, splitLast?_eq_none_iff.1 none⟩
        · cases cut
  · rintro ⟨rfl, clean⟩
    exact splitLast?_append before clean

/-- Whether `needle` occurs in the text as a run of consecutive characters. -/
def occursIn (needle : List Char) : List Char → Bool
  | [] => needle.isEmpty
  | character :: rest => needle.isPrefixOf (character :: rest) || occursIn needle rest

/-- `occursIn` decides being a run of consecutive characters of the text. -/
theorem occursIn_iff {needle text : List Char} :
    occursIn needle text = true ↔ ∃ before after, text = before ++ needle ++ after := by
  induction text with
  | nil => simp [occursIn]
  | cons character rest ih =>
    simp only [occursIn, Bool.or_eq_true, List.isPrefixOf_iff_prefix, ih]
    constructor
    · rintro (⟨after, equal⟩ | ⟨before, after, equal⟩)
      · exact ⟨[], after, by simp [equal]⟩
      · exact ⟨character :: before, after, by simp [equal]⟩
    · rintro ⟨before, after, equal⟩
      cases before with
      | nil => exact Or.inl ⟨after, by simpa using equal.symm⟩
      | cons first others =>
        simp only [List.cons_append, List.cons.injEq] at equal
        exact Or.inr ⟨others, after, equal.2⟩

end Retained.Text
