import Retained.Text.Blank

/-!
# The words of a dump

A dump says which objects are billed to a node (the policy), what is printed of them (the display),
what kind of node is meant, and which objects take part in the report at all.
-/

namespace Retained

/-- Which objects are billed to a node. -/
inductive Policy where
  /-- Those that none of its direct dependencies reaches. -/
  | isolated
  /-- All that its value reaches. -/
  | reachable
  /-- All that its value or the value of any node it depends on reaches. -/
  | transitive
deriving DecidableEq, Repr

namespace Policy

/-- The word for a policy. -/
def render : Policy → String
  | isolated => "isolated"
  | reachable => "reachable"
  | transitive => "transitive"

/-- The policy that a word names; two of them have a second name. -/
def ofWord? : String → Option Policy
  | "isolated" => some isolated
  | "shallow" => some isolated
  | "reachable" => some reachable
  | "deep" => some reachable
  | "transitive" => some transitive
  | _ => none

/-- The word for a policy names it. -/
theorem ofWord?_render (policy : Policy) : ofWord? policy.render = some policy := by
  cases policy <;> rfl

end Policy

/-- What is printed of the billed objects. -/
inductive Display where
  /-- Their number and bytes. -/
  | summary
  /-- Their number for each class. -/
  | count
  /-- Their bytes for each class. -/
  | bytes
deriving DecidableEq, Repr

namespace Display

/-- The word for a display. -/
def render : Display → String
  | summary => "summary"
  | count => "count"
  | bytes => "bytes"

/-- The display that a word names. -/
def ofWord? : String → Option Display
  | "summary" => some summary
  | "count" => some count
  | "bytes" => some bytes
  | _ => none

/-- The word for a display names it. -/
theorem ofWord?_render (display : Display) : ofWord? display.render = some display := by
  cases display <;> rfl

end Display

/-- What kind of node a subject names. -/
inductive SubjectKind where
  /-- A Starlark module, by its label. -/
  | starlarkModule
  /-- A package. -/
  | package
  /-- A target in a configuration. -/
  | configuredTarget
deriving DecidableEq, Repr

namespace SubjectKind

/-- The word for a kind. -/
def render : SubjectKind → String
  | starlarkModule => "starlark_module"
  | package => "package"
  | configuredTarget => "configured_target"

/-- The kind that a word names, in any case. -/
def ofWord? (word : String) : Option SubjectKind :=
  [starlarkModule, package, configuredTarget].find? fun kind =>
    Text.matchesWord kind.render word.toList

/-- The word for a kind names it. -/
theorem ofWord?_render (kind : SubjectKind) : ofWord? kind.render = some kind := by
  cases kind <;> rfl

end SubjectKind

/-- A group of objects or fields that a dump can leave out. -/
inductive ReportFlag where
  /-- Fields that only cache. -/
  | transient
  /-- Build configurations. -/
  | configuration
  /-- Values computed ahead of the build. -/
  | precomputed
  /-- The status of the workspace. -/
  | workspaceStatus
deriving DecidableEq, Repr

namespace ReportFlag

/-- The word that leaves a group out. -/
def omission : ReportFlag → String
  | transient => "notransient"
  | configuration => "noconfig"
  | precomputed => "noprecomputed"
  | workspaceStatus => "noworkspacestatus"

/-- The group that a word leaves out. -/
def ofOmission? : String → Option ReportFlag
  | "notransient" => some transient
  | "noconfig" => some configuration
  | "noprecomputed" => some precomputed
  | "noworkspacestatus" => some workspaceStatus
  | _ => none

/-- The word that leaves a group out names it. -/
theorem ofOmission?_omission (flag : ReportFlag) : ofOmission? flag.omission = some flag := by
  cases flag <;> rfl

end ReportFlag

/-- Which groups take part in a dump. -/
structure ReportOptions where
  /-- Fields that only cache. -/
  transient : Bool
  /-- Build configurations. -/
  configuration : Bool
  /-- Values computed ahead of the build. -/
  precomputed : Bool
  /-- The status of the workspace. -/
  workspaceStatus : Bool
deriving DecidableEq, Repr

namespace ReportOptions

/-- Every group takes part. -/
def all : ReportOptions :=
  { transient := true, configuration := true, precomputed := true, workspaceStatus := true }

/-- The groups that a list leaves out do not take part, and the others do. -/
def without (omitted : List ReportFlag) : ReportOptions :=
  { transient := !omitted.contains .transient
    configuration := !omitted.contains .configuration
    precomputed := !omitted.contains .precomputed
    workspaceStatus := !omitted.contains .workspaceStatus }

end ReportOptions

end Retained
