import Retained.Json.Read
import Retained.NodeKey.Json
import Retained.Snapshot.File

/-!
# Snapshot files in JSON

Lists and the members that say little (category, fields, cache flag, dependencies, options) may be
left out and are empty or plain then; the checksum, the target configuration and the builtins may
also be `null`. Writing fills every member in.
-/

namespace Retained

namespace Category

/-- The name of a category. -/
def render : Category → String
  | plain => "plain"
  | configuration => "configuration"
  | precomputed => "precomputed"
  | workspaceStatus => "workspace_status"

/-- The category of a name. -/
def ofName? : String → Option Category
  | "plain" => some plain
  | "configuration" => some configuration
  | "precomputed" => some precomputed
  | "workspace_status" => some workspaceStatus
  | _ => none

/-- The category that a JSON value writes: its name, alone or as the one member of an object whose
value is `null`. -/
def ofJson? : Json → Option Category
  | .string (some name) => ofName? name
  | .object [(some name, .null)] => ofName? name
  | _ => none

/-- The name of a category names it. -/
theorem ofName?_render (category : Category) : ofName? category.render = some category := by
  cases category <;> rfl

end Category

namespace Shape

/-- A shape as a JSON object. -/
def toJson : Shape → Json
  | .instance shallowBytes =>
    .ofMembers [("type", .ofText "instance"), ("shallow_bytes", .ofNat shallowBytes.toNat)]
  | .array elementBytes length =>
    .ofMembers [("type", .ofText "array"), ("element_bytes", .ofNat elementBytes.toNat),
      ("length", .ofNat length.toNat)]
  | .collection headerBytes capacity entries entryBytes =>
    .ofMembers [("type", .ofText "collection"), ("header_bytes", .ofNat headerBytes.toNat),
      ("capacity", .ofNat capacity.toNat), ("entries", .ofNat entries.toNat),
      ("entry_bytes", .ofNat entryBytes.toNat)]

/-- The shape of a type that a record without the type writes. -/
def ofRecord? (type : String) (json : Json) : Option Shape :=
  match type with
  | "instance" => do
    let members ← json.record? ["shallow_bytes"]
    return .instance (← members.required "shallow_bytes" Json.word64?)
  | "array" => do
    let members ← json.record? ["element_bytes", "length"]
    return .array (← members.required "element_bytes" Json.word32?)
      (← members.required "length" Json.word64?)
  | "collection" => do
    let members ← json.record? ["header_bytes", "capacity", "entries", "entry_bytes"]
    return .collection (← members.required "header_bytes" Json.word32?)
      (← members.required "capacity" Json.word64?) (← members.required "entries" Json.word64?)
      (← members.required "entry_bytes" Json.word32?)
  | _ => none

/-- The shape that a JSON value writes, with room for so many containers around each other. -/
def ofJson? (room : Nat) (json : Json) : Option Shape := do
  let (type, record) ← json.variant? "type" room
  ofRecord? type record

end Shape

namespace Snapshot

/-- The room for containers inside so many others. -/
def roomInside (depth : Nat) : Nat :=
  Json.nestingLimit - depth

/-- A field as a JSON object. -/
def fieldJson (field : Field UInt64) : Json :=
  .ofMembers [("name", .ofText field.name), ("target", .ofNat field.target.toNat),
    ("transient", .bool field.transient)]

/-- The field that a JSON value writes. -/
def field? (json : Json) : Option (Field UInt64) := do
  let members ← json.record? ["name", "target", "transient"]
  return {
    name := ← members.required "name" Json.text?
    target := ← members.required "target" Json.word64?
    transient := ← members.withDefault "transient" false Json.flag? }

namespace ObjectRecord

/-- An object as a JSON object. -/
def toJson (record : ObjectRecord) : Json :=
  .ofMembers [
    ("id", .ofNat record.id.toNat),
    ("class", .ofText record.object.className),
    ("category", .ofText record.object.category.render),
    ("shape", record.object.shape.toJson),
    ("fields", .array (record.object.fields.map fieldJson))]

/-- The object that a JSON value writes, inside the list of objects of a file. -/
def ofJson? (json : Json) : Option ObjectRecord := do
  let members ← json.record? ["id", "class", "category", "shape", "fields"]
  return {
    id := ← members.required "id" Json.word64?
    object := {
      className := ← members.required "class" Json.text?
      category := ← members.withDefault "category" .plain Category.ofJson?
      shape := ← members.required "shape" (Shape.ofJson? (roomInside 3))
      fields := ← members.withDefault "fields" [] (Json.list? field?) } }

end ObjectRecord

namespace NodeRecord

/-- A node as a JSON object. -/
def toJson (record : NodeRecord) : Json :=
  .ofMembers [
    ("key", record.key.toJson),
    ("value", .ofNat record.value.toNat),
    ("deps", .array (record.deps.map NodeKey.toJson))]

/-- The node that a JSON value writes, inside the list of nodes of a file. -/
def ofJson? (json : Json) : Option NodeRecord := do
  let members ← json.record? ["key", "value", "deps"]
  return {
    key := ← members.required "key" (NodeKey.ofJson? (roomInside 3))
    value := ← members.required "value" Json.word64?
    deps := ← members.withDefault "deps" [] (Json.list? (NodeKey.ofJson? (roomInside 4))) }

end NodeRecord

namespace ConfigurationRecord

/-- Options as a JSON object. -/
def optionsJson (options : Options) : Json :=
  .ofMembers (options.toList.map fun (name, value) => (name, .ofText value))

/-- A configuration as a JSON object. -/
def toJson (record : ConfigurationRecord) : Json :=
  .ofMembers [
    ("checksum", .ofOption .ofText record.checksum),
    ("options", optionsJson record.options),
    ("value", .ofNat record.value.toNat)]

/-- The configuration that a JSON value writes. -/
def ofJson? (json : Json) : Option ConfigurationRecord := do
  let members ← json.record? ["checksum", "options", "value"]
  return {
    checksum := ← members.withDefault "checksum" none (Json.nullable? Json.text?)
    options := ← members.withDefault "options" ∅ (Json.table? Json.text?)
    value := ← members.required "value" Json.word64? }

end ConfigurationRecord

namespace File

/-- A snapshot as a JSON object. -/
def toJson (file : File) : Json :=
  .ofMembers [
    ("objects", .array (file.objects.map ObjectRecord.toJson)),
    ("nodes", .array (file.nodes.map NodeRecord.toJson)),
    ("configurations", .array (file.configurations.map ConfigurationRecord.toJson)),
    ("target_configuration", .ofOption .ofText file.targetConfiguration),
    ("builtins", .ofOption (fun id => .ofNat id.toNat) file.builtins)]

/-- The snapshot that a JSON value writes. -/
def ofJson? (json : Json) : Option File := do
  let members ← json.record?
    ["objects", "nodes", "configurations", "target_configuration", "builtins"]
  return {
    objects := ← members.withDefault "objects" [] (Json.list? ObjectRecord.ofJson?)
    nodes := ← members.withDefault "nodes" [] (Json.list? NodeRecord.ofJson?)
    configurations :=
      ← members.withDefault "configurations" [] (Json.list? ConfigurationRecord.ofJson?)
    targetConfiguration :=
      ← members.withDefault "target_configuration" none (Json.nullable? Json.text?)
    builtins := ← members.withDefault "builtins" none (Json.nullable? Json.word64?) }

/-- The snapshot that a text writes. -/
def read? (text : String) : Option File := do
  ofJson? (← Json.read text)

end File

end Snapshot

end Retained
