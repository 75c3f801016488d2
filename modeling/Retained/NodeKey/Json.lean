import Retained.Json.Record
import Retained.NodeKey

/-!
# Node keys in JSON

A key is a variant tagged by its kind. Its parts are not checked as labels.
-/

namespace Retained

namespace PackageId

/-- A package as a JSON object. -/
def toJson (package : PackageId) : Json :=
  .ofMembers [("repository", .ofText package.repository), ("path", .ofText package.path)]

/-- The package that a JSON value writes. -/
def ofJson? (json : Json) : Option PackageId := do
  let members ← json.record? ["repository", "path"]
  return {
    repository := ← members.required "repository" Json.text?
    path := ← members.required "path" Json.text? }

end PackageId

namespace Label

/-- A label as a JSON object. -/
def toJson (label : Label) : Json :=
  .ofMembers [("package", label.package.toJson), ("name", .ofText label.name)]

/-- The label that a JSON value writes. -/
def ofJson? (json : Json) : Option Label := do
  let members ← json.record? ["package", "name"]
  return {
    package := ← members.required "package" PackageId.ofJson?
    name := ← members.required "name" Json.text? }

end Label

namespace ConfigurationKey

/-- A configuration key as a JSON object. -/
def toJson (key : ConfigurationKey) : Json :=
  .ofMembers [("checksum", .ofText key.checksum)]

/-- The configuration key that a JSON value writes. -/
def ofJson? (json : Json) : Option ConfigurationKey := do
  let members ← json.record? ["checksum"]
  return { checksum := ← members.required "checksum" Json.text? }

end ConfigurationKey

namespace NodeKey

/-- A key as a JSON object. -/
def toJson : NodeKey → Json
  | package id => .ofMembers [("kind", .ofText "package"), ("package", id.toJson)]
  | starlarkModule label =>
    .ofMembers [("kind", .ofText "starlark_module"), ("label", label.toJson)]
  | configuredTarget label configuration =>
    .ofMembers [("kind", .ofText "configured_target"), ("label", label.toJson),
      ("configuration", configuration.toJson)]
  | buildConfiguration configuration =>
    .ofMembers [("kind", .ofText "build_configuration"),
      ("configuration", configuration.toJson)]
  | other function argument =>
    .ofMembers [("kind", .ofText "other"), ("function", .ofText function),
      ("argument", .ofText argument)]

/-- The key of a kind that a record without the kind writes. -/
def ofRecord? (kind : String) (json : Json) : Option NodeKey :=
  match kind with
  | "package" => do
    let members ← json.record? ["package"]
    return .package (← members.required "package" PackageId.ofJson?)
  | "starlark_module" => do
    let members ← json.record? ["label"]
    return .starlarkModule (← members.required "label" Label.ofJson?)
  | "configured_target" => do
    let members ← json.record? ["label", "configuration"]
    return .configuredTarget (← members.required "label" Label.ofJson?)
      (← members.required "configuration" ConfigurationKey.ofJson?)
  | "build_configuration" => do
    let members ← json.record? ["configuration"]
    return .buildConfiguration (← members.required "configuration" ConfigurationKey.ofJson?)
  | "other" => do
    let members ← json.record? ["function", "argument"]
    return .other (← members.required "function" Json.text?)
      (← members.required "argument" Json.text?)
  | _ => none

/-- The key that a JSON value writes, with room for so many containers around each other. -/
def ofJson? (room : Nat) (json : Json) : Option NodeKey := do
  let (kind, record) ← json.variant? "kind" room
  ofRecord? kind record

end NodeKey

end Retained
