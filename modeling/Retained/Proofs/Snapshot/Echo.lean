import Retained.Proofs.Configuration.Canonical
import Retained.Proofs.Json.Record
import Retained.Snapshot.Load

/-!
# Snapshots written and read again

A key and a snapshot are read back from their JSON values, and from the texts of these
(`NodeKey.ofJson?_toJson`, `Snapshot.File.read?_toText`): every record knows the names of its own
members, every variant can be held, and every table, list and count is decoded as it was encoded. So
the text of an accepted snapshot with every member filled in stands for the same snapshot
(`Snapshot.echo_faithful`).
-/

namespace Retained

open Json

/-! ## Keys -/

namespace PackageId

theorem ofJson?_toJson (package : PackageId) : ofJson? package.toJson = some package := by
  unfold ofJson? toJson
  rw [record?_ofMembers (by simp) (by simp)]
  simp

theorem isHoldable_toJson (room : Nat) (package : PackageId) :
    isHoldable (room + 1) package.toJson = true := by
  simp [toJson, isHoldable_ofMembers]

theorem ofCounts_toJson (package : PackageId) : OfCounts package.toJson := by
  apply OfCounts.ofMembers
  simp [OfCounts.ofText]

end PackageId

namespace Label

theorem ofJson?_toJson (label : Label) : ofJson? label.toJson = some label := by
  unfold ofJson? toJson
  rw [record?_ofMembers (by simp) (by simp)]
  simp [PackageId.ofJson?_toJson]

theorem isHoldable_toJson (room : Nat) (label : Label) :
    isHoldable (room + 2) label.toJson = true := by
  simp [toJson, isHoldable_ofMembers, PackageId.isHoldable_toJson]

theorem ofCounts_toJson (label : Label) : OfCounts label.toJson := by
  apply OfCounts.ofMembers
  simp [OfCounts.ofText, PackageId.ofCounts_toJson]

end Label

namespace ConfigurationKey

theorem ofJson?_toJson (key : ConfigurationKey) : ofJson? key.toJson = some key := by
  unfold ofJson? toJson
  rw [record?_ofMembers (by simp) (by simp)]
  simp

theorem isHoldable_toJson (room : Nat) (key : ConfigurationKey) :
    isHoldable (room + 1) key.toJson = true := by
  simp [toJson, isHoldable_ofMembers]

theorem ofCounts_toJson (key : ConfigurationKey) : OfCounts key.toJson := by
  apply OfCounts.ofMembers
  simp [OfCounts.ofText]

end ConfigurationKey

namespace NodeKey

/-- A key is read back from its JSON value with room for three containers around each other. -/
theorem ofJson?_toJson (room : Nat) (key : NodeKey) : ofJson? (room + 3) key.toJson = some key := by
  unfold ofJson?
  cases key with
  | package id =>
    rw [toJson, variant?_ofMembers (by simp) (by simp [PackageId.isHoldable_toJson])]
    simp [ofRecord?, record?_ofMembers, PackageId.ofJson?_toJson]
  | starlarkModule label =>
    rw [toJson, variant?_ofMembers (by simp) (by simp [Label.isHoldable_toJson])]
    simp [ofRecord?, record?_ofMembers, Label.ofJson?_toJson]
  | configuredTarget label configuration =>
    rw [toJson, variant?_ofMembers (by simp)
      (by simp [Label.isHoldable_toJson, ConfigurationKey.isHoldable_toJson])]
    simp [ofRecord?, record?_ofMembers, Label.ofJson?_toJson,
      ConfigurationKey.ofJson?_toJson]
  | buildConfiguration configuration =>
    rw [toJson, variant?_ofMembers (by simp) (by simp [ConfigurationKey.isHoldable_toJson])]
    simp [ofRecord?, record?_ofMembers, ConfigurationKey.ofJson?_toJson]
  | other function argument =>
    rw [toJson, variant?_ofMembers (by simp) (by simp)]
    simp [ofRecord?, record?_ofMembers]

theorem ofCounts_toJson (key : NodeKey) : OfCounts key.toJson := by
  cases key <;> apply OfCounts.ofMembers <;>
    simp [OfCounts.ofText, PackageId.ofCounts_toJson, Label.ofCounts_toJson,
      ConfigurationKey.ofCounts_toJson]

end NodeKey

/-! ## Objects -/

/-- A category is read back from its name. -/
theorem Category.ofJson?_render (category : Category) :
    ofJson? (.ofText category.render) = some category :=
  Category.ofName?_render category

namespace Shape

/-- A shape is read back from its JSON value. -/
theorem ofJson?_toJson (room : Nat) (shape : Shape) :
    ofJson? (room + 1) shape.toJson = some shape := by
  have word64 : ∀ word : UInt64, word.toNat < UInt64.size := fun word => word.toNat_lt
  have word32 : ∀ word : UInt32, word.toNat < UInt64.size :=
    fun word => Nat.lt_trans word.toNat_lt (by decide)
  unfold ofJson?
  cases shape with
  | «instance» shallowBytes =>
    rw [toJson, variant?_ofMembers (by simp) (by simp [word64])]
    simp [ofRecord?, record?_ofMembers]
  | array elementBytes length =>
    rw [toJson, variant?_ofMembers (by simp) (by simp [word64, word32])]
    simp [ofRecord?, record?_ofMembers]
  | collection headerBytes capacity entries entryBytes =>
    rw [toJson, variant?_ofMembers (by simp) (by simp [word64, word32])]
    simp [ofRecord?, record?_ofMembers]

theorem ofCounts_toJson (shape : Shape) : OfCounts shape.toJson := by
  cases shape <;> apply OfCounts.ofMembers <;> simp [OfCounts.ofText, OfCounts.natural]

end Shape

namespace Snapshot

/-- A field is read back from its JSON value. -/
theorem field?_fieldJson (field : Field UInt64) : field? (fieldJson field) = some field := by
  unfold field? fieldJson
  rw [record?_ofMembers (by simp) (by simp)]
  simp

theorem ofCounts_fieldJson (field : Field UInt64) : OfCounts (fieldJson field) := by
  apply OfCounts.ofMembers
  simp [OfCounts.ofText, OfCounts.natural, OfCounts.bool]

namespace ObjectRecord

/-- An object is read back from its JSON value. -/
theorem ofJson?_toJson (record : ObjectRecord) : ofJson? record.toJson = some record := by
  have shape : Shape.ofJson? (roomInside 3) record.object.shape.toJson = some record.object.shape :=
    Shape.ofJson?_toJson 123 _
  unfold ofJson? toJson
  rw [record?_ofMembers (by simp) (by simp)]
  simp [Category.ofJson?_render, shape, list?_map field?_fieldJson]

theorem ofCounts_toJson (record : ObjectRecord) : OfCounts record.toJson := by
  apply OfCounts.ofMembers
  simp [OfCounts.ofText, OfCounts.natural, Shape.ofCounts_toJson,
    OfCounts.ofList ofCounts_fieldJson]

end ObjectRecord

/-! ## Nodes and configurations -/

namespace NodeRecord

/-- A node is read back from its JSON value. -/
theorem ofJson?_toJson (record : NodeRecord) : ofJson? record.toJson = some record := by
  have key : NodeKey.ofJson? (roomInside 3) record.key.toJson = some record.key :=
    NodeKey.ofJson?_toJson 121 _
  have deps : ∀ dep : NodeKey, NodeKey.ofJson? (roomInside 4) dep.toJson = some dep :=
    NodeKey.ofJson?_toJson 120
  unfold ofJson? toJson
  rw [record?_ofMembers (by simp) (by simp)]
  simp [key, list?_map deps]

theorem ofCounts_toJson (record : NodeRecord) : OfCounts record.toJson := by
  apply OfCounts.ofMembers
  simp [OfCounts.natural, NodeKey.ofCounts_toJson, OfCounts.ofList NodeKey.ofCounts_toJson]

end NodeRecord

namespace ConfigurationRecord

/-- Options are read back from their JSON value: each name stands in it once. -/
theorem table?_optionsJson (options : Options) :
    table? text? (optionsJson options) = some options := by
  unfold optionsJson
  rw [table?_ofMembers text?_ofText]
  exact congrArg some options.ofList_toList

theorem ofCounts_optionsJson (options : Options) : OfCounts (optionsJson options) := by
  apply OfCounts.ofMembers
  intro member listed
  obtain ⟨setting, _, rfl⟩ := List.mem_map.mp listed
  exact OfCounts.ofText setting.2

/-- A configuration is read back from its JSON value. -/
theorem ofJson?_toJson (record : ConfigurationRecord) : ofJson? record.toJson = some record := by
  have checksum := nullable?_ofOption text?_ofText nofun record.checksum
  unfold ofJson? toJson
  rw [record?_ofMembers (by simp) (by simp)]
  simp [checksum, table?_optionsJson]

theorem ofCounts_toJson (record : ConfigurationRecord) : OfCounts record.toJson := by
  apply OfCounts.ofMembers
  simp [OfCounts.natural, OfCounts.ofOption OfCounts.ofText, ofCounts_optionsJson]

end ConfigurationRecord

/-! ## Files -/

namespace File

/-- A file is read back from its JSON value. -/
theorem ofJson?_toJson (file : File) : ofJson? file.toJson = some file := by
  have target := nullable?_ofOption text?_ofText nofun file.targetConfiguration
  have builtins := nullable?_ofOption word64?_ofNat nofun file.builtins
  unfold ofJson? toJson
  rw [record?_ofMembers (by simp) (by simp)]
  simp [list?_map ObjectRecord.ofJson?_toJson, list?_map NodeRecord.ofJson?_toJson,
    list?_map ConfigurationRecord.ofJson?_toJson, target, builtins]

theorem ofCounts_toJson (file : File) : OfCounts file.toJson := by
  apply OfCounts.ofMembers
  simp [OfCounts.ofList ObjectRecord.ofCounts_toJson, OfCounts.ofList NodeRecord.ofCounts_toJson,
    OfCounts.ofList ConfigurationRecord.ofCounts_toJson, OfCounts.ofOption OfCounts.ofText,
    OfCounts.ofOption fun id : UInt64 => OfCounts.natural id.toNat]

/-- The text of a file, with every member filled in. -/
def toText (file : File) : String :=
  write file.toJson

/-- A file is read back from its text. -/
theorem read?_toText (file : File) : read? file.toText = some file := by
  rw [read?, toText, read_write file.ofCounts_toJson]
  exact file.ofJson?_toJson

/-- The text of the file that a text writes, with every member filled in. -/
def echo? (text : String) : Option String :=
  (read? text).map toText

end File

/-- The text of a file loads as the file does. -/
theorem load_toText (file : File) : load file.toText = file.load := by
  unfold load File.parse
  rw [file.read?_toText]
  rfl

/-- Texts of one file load alike. -/
theorem load_congr {text other : String} (same : File.read? text = File.read? other) :
    load text = load other := by
  unfold load File.parse
  rw [same]

/-- **Keys and snapshots survive being written and read again.** A key is read back from its text,
and so is a file. So if a text writes a file, the text of the file with every member filled in
writes the same file, is itself written out again as it stands, and loads as the first text does. -/
theorem echo_faithful :
    (∀ key : NodeKey, (read (write key.toJson)).bind (NodeKey.ofJson? nestingLimit) = some key) ∧
    (∀ file : File, File.read? file.toText = some file) ∧
    ∀ text echoed : String, File.echo? text = some echoed →
      (∃ file, File.read? text = some file ∧ File.read? echoed = some file ∧
        read echoed = some file.toJson) ∧
      File.echo? echoed = some echoed ∧ load echoed = load text := by
  refine ⟨?_, File.read?_toText, ?_⟩
  · intro key
    rw [read_write key.ofCounts_toJson]
    exact NodeKey.ofJson?_toJson 124 key
  · intro text echoed echoes
    obtain ⟨file, written, rfl⟩ := Option.map_eq_some_iff.mp echoes
    have again := file.read?_toText
    refine ⟨⟨file, written, again, read_write file.ofCounts_toJson⟩, ?_, ?_⟩
    · rw [File.echo?, again, Option.map_some]
    · exact load_congr (again.trans written.symm)

/-- A snapshot of one object and one configuration that leaves out what may be left out, in another
order and with a member that no snapshot has. -/
def sparse : String :=
  "\x7b\"note\":1.5,\"configurations\":[\x7b\"value\":7\x7d],\"objects\":[\x7b\"class\":\"A\"," ++
    "\"shape\":\x7b\"shallow_bytes\":8,\"type\":\"instance\"\x7d,\"id\":7\x7d]\x7d"

/-- The same snapshot with every member filled in. -/
def filled : String :=
  "\x7b\"objects\":[\x7b\"id\":7,\"class\":\"A\",\"category\":\"plain\"," ++
    "\"shape\":\x7b\"type\":\"instance\",\"shallow_bytes\":8\x7d,\"fields\":[]\x7d]," ++
    "\"nodes\":[],\"configurations\":[\x7b\"checksum\":null,\"options\":\x7b\x7d," ++
    "\"value\":7\x7d],\"target_configuration\":null,\"builtins\":null\x7d"

/-- Filling in what a snapshot leaves out does not change it. -/
theorem echo_faithful_sparse :
    File.echo? sparse = some filled ∧ File.echo? filled = some filled ∧
      load filled = load sparse := by
  have echoes : File.echo? sparse = some filled := by decide +kernel
  exact ⟨echoes, (echo_faithful.2.2 sparse filled echoes).2⟩

end Snapshot

end Retained
