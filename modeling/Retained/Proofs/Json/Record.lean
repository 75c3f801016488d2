import Retained.Json.Record
import Retained.Proofs.Json.RoundTrip

/-!
# Decoding what was encoded

Encoders make objects of named members, counts, texts and lists; decoders take them apart. The
lemmas here say, for each part that decoders are made of, that it gives back what an encoder put
there: a record its members, a variant its tag and its record, a list its elements.
-/

namespace Retained.Json

variable {α : Type} {room : Nat}

/-! ## Encoded values -/

theorem OfCounts.ofText (text : String) : OfCounts (.ofText text) :=
  .string (some text)

/-- An object is made of counts if its members are. -/
theorem OfCounts.ofMembers {members : List (String × Json)}
    (each : ∀ member ∈ members, OfCounts member.2) : OfCounts (.ofMembers members) := by
  apply OfCounts.object
  intro member listed
  obtain ⟨original, present, rfl⟩ := List.mem_map.mp listed
  exact each original present

/-- An array is made of counts if its elements are encoded so. -/
theorem OfCounts.ofList {encode : α → Json} (each : ∀ value, OfCounts (encode value))
    (values : List α) : OfCounts (.array (values.map encode)) := by
  apply OfCounts.array
  intro element listed
  obtain ⟨value, _, rfl⟩ := List.mem_map.mp listed
  exact each value

/-- A value that may be missing is made of counts if it is encoded so. -/
theorem OfCounts.ofOption {encode : α → Json} (each : ∀ value, OfCounts (encode value))
    (value : Option α) : OfCounts (.ofOption encode value) := by
  cases value with
  | none => exact .null
  | some value => exact each value

/-! ## Scalars -/

@[simp] theorem text?_ofText (text : String) : text? (.ofText text) = some text := rfl

@[simp] theorem flag?_bool (value : Bool) : flag? (.bool value) = some value := rfl

@[simp] theorem word64?_ofNat (word : UInt64) : word64? (.ofNat word.toNat) = some word := by
  have small : word.toNat < UInt64.size := word.toNat_lt
  simp [word64?, natural?, ofNat, small]

@[simp] theorem word32?_ofNat (word : UInt32) : word32? (.ofNat word.toNat) = some word := by
  have small : word.toNat < UInt32.size := word.toNat_lt
  simp [word32?, natural?, ofNat, small]

/-- A value that may be missing is decoded, if no value is encoded as `null`. -/
theorem nullable?_ofOption {decode : Json → Option α} {encode : α → Json}
    (decodes : ∀ value, decode (encode value) = some value)
    (visible : ∀ value, encode value ≠ .null) (value : Option α) :
    nullable? decode (.ofOption encode value) = some value := by
  cases value with
  | none => rfl
  | some value =>
    rw [ofOption, nullable?, decodes, Option.map_some]
    exact visible value

/-! ## Lists and tables -/

/-- Values are decoded one after the other. -/
theorem mapM_map {β : Type} {decode : β → Option α} {encode : α → β}
    (decodes : ∀ value, decode (encode value) = some value) (values : List α) :
    (values.map encode).mapM decode = some values := by
  induction values with
  | nil => rfl
  | cons value values further =>
    rw [List.map_cons, List.mapM_cons, decodes, further]
    rfl

/-- A list is decoded if its elements are. -/
theorem list?_map {decode : Json → Option α} {encode : α → Json}
    (decodes : ∀ value, decode (encode value) = some value) (values : List α) :
    list? decode (.array (values.map encode)) = some values :=
  mapM_map decodes values

/-- A member as an object holds it. -/
def asMember (member : String × Json) : Option String × Json :=
  (some member.1, member.2)

/-- An object holds its members in their order. -/
theorem ofMembers_eq (members : List (String × Json)) :
    ofMembers members = .object (members.map asMember) := rfl

/-- An entry of a table, as a member decodes to it. -/
def decodeMember? (decode : Json → Option α) (member : Option String × Json) :
    Option (String × α) := do
  return (← member.1, ← decode member.2)

/-- The entries of a table are decoded in their order, and put into a table one after the other. -/
theorem table?_ofMembers {decode : Json → Option α} {encode : α → Json}
    (decodes : ∀ value, decode (encode value) = some value) (entries : List (String × α)) :
    table? decode (.ofMembers (entries.map fun entry => (entry.1, encode entry.2))) =
      some (entries.foldl (fun table entry => table.insert entry.1 entry.2) ∅) := by
  let fill (entries : List (String × α)) : Std.ExtTreeMap String α compare :=
    entries.foldl (fun table entry => table.insert entry.1 entry.2) ∅
  let members := (entries.map fun entry => (entry.1, encode entry.2)).map asMember
  have decoded : members.mapM (decodeMember? decode) = some entries := by
    simp only [members, List.map_map]
    apply mapM_map
    intro entry
    simp [decodeMember?, asMember, decodes]
  calc table? decode (.ofMembers (entries.map fun entry => (entry.1, encode entry.2)))
    _ = (members.mapM (decodeMember? decode)).bind fun entries => some (fill entries) := rfl
    _ = some (fill entries) := by rw [decoded, Option.bind_some]

/-! ## Records and variants -/

/-- The members of a record that are known, if none is there twice. -/
def knownOnce? (names : List String) (members : Members) : Option Members :=
  let known := members.filter fun member => names.contains member.1
  if (known.map Prod.fst).Nodup then some known else none

/-- A record is read with all of its members, if their names are known and distinct. -/
theorem record?_ofMembers {names : List String} {members : List (String × Json)}
    (known : ∀ member ∈ members, member.1 ∈ names) (distinct : (members.map Prod.fst).Nodup) :
    record? names (.ofMembers members) = some members := by
  have named : (members.map asMember).mapM (decodeMember? some) = some members := by
    apply mapM_map
    exact fun member => rfl
  have all : members.filter (fun member => names.contains member.1) = members := by
    rw [List.filter_eq_self]
    intro member listed
    simpa using known member listed
  calc record? names (.ofMembers members)
    _ = ((members.map asMember).mapM (decodeMember? some)).bind (knownOnce? names) := rfl
    _ = knownOnce? names members := by rw [named, Option.bind_some]
    _ = some members := by simp only [knownOnce?, all, if_pos distinct]

namespace Members

variable {members : Members} {name other : String} {value : Json} {decode : Json → Option α}
  {standard : α}

@[simp] theorem required_self : required ((name, value) :: members) name decode = decode value := by
  simp [required]

@[simp] theorem required_cons (apart : name ≠ other) :
    required ((other, value) :: members) name decode = required members name decode := by
  simp [required, List.lookup_cons, beq_false_of_ne apart]

@[simp] theorem withDefault_self :
    withDefault ((name, value) :: members) name standard decode = decode value := by
  simp [withDefault]

@[simp] theorem withDefault_cons (apart : name ≠ other) :
    withDefault ((other, value) :: members) name standard decode =
      withDefault members name standard decode := by
  simp [withDefault, List.lookup_cons, beq_false_of_ne apart]

end Members

/-- The members of a holdable object are holdable with room for one container less. -/
theorem isHoldable_ofMembers {members : List (String × Json)} :
    isHoldable (room + 1) (.ofMembers members) = true ↔
      ∀ member ∈ members, isHoldable room member.2 = true := by
  simp only [ofMembers, isHoldable]
  induction members with
  | nil => simp [areHoldableMembers]
  | cons member members further => simp [areHoldableMembers, further]

@[simp] theorem isHoldable_ofText (text : String) : isHoldable room (.ofText text) = true := by
  simp [ofText, isHoldable]

@[simp] theorem isHoldable_ofNat {value : Nat} (small : value < UInt64.size) :
    isHoldable room (.ofNat value) = true := by
  simp [ofNat, isHoldable, Number.fitsDouble, small]

/-- A variant is read as its tag and the record without it, if the record has no member of the name
of the tag and all of it can be held. -/
theorem variant?_ofMembers {tagName tag : String} {members : List (String × Json)}
    (apart : ∀ member ∈ members, member.1 ≠ tagName)
    (holdable : ∀ member ∈ members, isHoldable room member.2 = true) :
    variant? tagName (room + 1) (.ofMembers ((tagName, .ofText tag) :: members)) =
      some (tag, .ofMembers members) := by
  have held : isHoldable (room + 1) (.ofMembers ((tagName, .ofText tag) :: members)) = true := by
    rw [isHoldable_ofMembers, List.forall_mem_cons]
    exact ⟨isHoldable_ofText tag, holdable⟩
  have untagged : ∀ member ∈ members.map asMember, (member.1 == some tagName) = false := by
    intro member listed
    obtain ⟨original, present, rfl⟩ := List.mem_map.mp listed
    simpa [asMember] using apart original present
  have parted : (asMember (tagName, ofText tag) :: members.map asMember).partition
      (fun member => member.1 == some tagName) =
      ([asMember (tagName, ofText tag)], members.map asMember) := by
    have none : (members.map asMember).filter (fun member => member.1 == some tagName) = [] :=
      List.filter_eq_nil_iff.mpr fun member listed => by simp [untagged member listed]
    have all : (members.map asMember).filter (not ∘ fun member => member.1 == some tagName) =
        members.map asMember :=
      List.filter_eq_self.mpr fun member listed => by simp [untagged member listed]
    rw [List.partition_eq_filter_filter, List.filter_cons_of_pos (by simp [asMember]), none,
      List.filter_cons_of_neg (by simp [asMember]), all]
  unfold variant?
  rw [if_pos held]
  simp only [ofMembers_eq, List.map_cons]
  split
  · next name found others split =>
    cases parted.symm.trans split
    rfl
  · next other =>
    exact absurd parted (other _ _ _)

end Retained.Json
