import Retained.Dump.Error

/-!
# Resolving subjects

A subject is the text of a package or label. A configured target also needs a configuration: a start
of its checksum may follow the last `@` of the subject, and then exactly one realized configuration
has to match it; without one the target configuration of the build is taken. The `@` of a repository
at the beginning of the subject, and one that a slash or colon follows, start no checksum.
-/

namespace Retained

open Text

/-- A subject without its checksum start, and the checksum start if it has one. -/
def splitConfiguration (subject : String) : String × Option String :=
  match splitLast? '@' subject.toList with
  | some (before, after) =>
    if before.isEmpty || after.contains '/' || after.contains ':' then (subject, none)
    else (String.ofList before, some (String.ofList after))
  | none => (subject, none)

namespace Source

variable {Value : Type}

/-- The one realized configuration whose checksum has a start. -/
def configurationStarting (source : Source Value) (start : String) :
    Except DumpError ConfigurationKey := do
  let realized ← source.realizedConfigurations.mapError .ofFetch
  match realized.filter (·.startsWith start) with
  | [configuration] => return configuration
  | candidates => throw (.resolution (.ambiguousConfiguration start candidates.length))

/-- The target configuration, which has to be set. -/
def requiredTarget (source : Source Value) : Except DumpError ConfigurationKey := do
  match ← source.targetConfiguration.mapError .ofFetch with
  | some configuration => return configuration
  | none => throw (.resolution .noTargetConfiguration)

/-- The configuration meant by a checksum start, or by its absence. -/
def resolveConfiguration (source : Source Value) (start : Option String) :
    Except DumpError ConfigurationKey :=
  match start with
  | some start => source.configurationStarting start
  | none => source.requiredTarget

/-- The key that a subject names, whether or not its node is in the graph. -/
def subjectKey (source : Source Value) (kind : SubjectKind) (subject : String) :
    Except DumpError NodeKey := do
  match kind with
  | .package => return .package (← (PackageId.parse subject).mapError .ofLabel)
  | .starlarkModule => return .starlarkModule (← (Label.parse subject).mapError .ofLabel)
  | .configuredTarget =>
    let (text, start) := splitConfiguration subject
    let label ← (Label.parse text).mapError .ofLabel
    return .configuredTarget label (← source.resolveConfiguration start)

/-- The key of the node that a subject names, which has to be in the graph. -/
def resolve (source : Source Value) (kind : SubjectKind) (subject : String) :
    Except DumpError NodeKey := do
  let key ← source.subjectKey kind subject
  if ← (source.contains key).mapError .ofFetch then return key
  else throw (.resolution (.nodeNotPresent key))

end Source

end Retained
