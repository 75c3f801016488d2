import Std.Data.ExtTreeMap
import Retained.Label.Basic
import Retained.Configuration.Key

/-!
# Node keys

The nodes of a build graph are keyed by what they hold: a loaded package, a Starlark module, a
target in a configuration, a build configuration, or the result of any other function of the build.
Keys are ordered by their kind and then by their parts, texts by their code points. The order is
lawful: it is transitive and equates only equal keys.
-/

namespace Retained

/-- The key of a node. -/
inductive NodeKey where
  /-- A loaded package. -/
  | package (id : PackageId)
  /-- A loaded Starlark module. -/
  | starlarkModule (label : Label)
  /-- A target in a configuration. -/
  | configuredTarget (label : Label) (configuration : ConfigurationKey)
  /-- A build configuration. -/
  | buildConfiguration (configuration : ConfigurationKey)
  /-- The result of another function of the build on an argument. -/
  | other (function argument : String)
deriving DecidableEq, Repr, Inhabited

namespace NodeKey

/-- The name of the build function that makes a node's value. -/
def functionName : NodeKey → String
  | package _ => "PACKAGE"
  | starlarkModule _ => "BZL_LOAD"
  | configuredTarget _ _ => "CONFIGURED_TARGET"
  | buildConfiguration _ => "BUILD_CONFIGURATION"
  | other function _ => function

/-- The text of the argument of a node's build function. -/
def argumentText : NodeKey → String
  | package id => id.render
  | starlarkModule label => label.render
  | configuredTarget label configuration => label.render ++ "@" ++ configuration.checksum
  | buildConfiguration configuration => configuration.checksum
  | other _ argument => argument

/-- The text of a key: the build function, a colon, and its argument. -/
def render (key : NodeKey) : String :=
  key.functionName ++ ":" ++ key.argumentText

/-- The configuration that a node holds, if it holds one. -/
def configuration? : NodeKey → Option ConfigurationKey
  | buildConfiguration configuration => some configuration
  | _ => none

/-! ## Order -/

/-- The place of a key's kind in the order of kinds. -/
def kindRank : NodeKey → Nat
  | package _ => 0
  | starlarkModule _ => 1
  | configuredTarget _ _ => 2
  | buildConfiguration _ => 3
  | other _ _ => 4

/-- The parts of a key in the order in which keys of one kind are compared. -/
def members : NodeKey → List String
  | package id => id.members
  | starlarkModule label => label.members
  | configuredTarget label configuration => label.members ++ [configuration.checksum]
  | buildConfiguration configuration => [configuration.checksum]
  | other function argument => [function, argument]

/-- A key is known from its kind and its parts. -/
theorem eq_of_members {left right : NodeKey} (sameKind : left.kindRank = right.kindRank)
    (sameMembers : left.members = right.members) : left = right := by
  cases left <;> cases right
  case package.package => exact congrArg _ (PackageId.members_injective sameMembers)
  case starlarkModule.starlarkModule => exact congrArg _ (Label.members_injective sameMembers)
  case configuredTarget.configuredTarget leftLabel leftKey rightLabel rightKey =>
    obtain ⟨sameLabel, sameKey⟩ := List.append_inj' sameMembers rfl
    cases leftKey
    cases rightKey
    cases Label.members_injective sameLabel
    cases sameKey
    rfl
  case buildConfiguration.buildConfiguration leftKey rightKey =>
    cases leftKey
    cases rightKey
    cases sameMembers
    rfl
  case other.other =>
    cases sameMembers
    rfl
  all_goals simp [kindRank] at sameKind

/-- Keys are compared by kind, then by parts. -/
instance : Ord NodeKey where
  compare := compareLex (compareOn kindRank) (compareOn members)

instance : Std.TransOrd NodeKey :=
  inferInstanceAs (Std.TransCmp (compareLex (compareOn kindRank) (compareOn members)))

instance : Std.LawfulEqOrd NodeKey where
  eq_of_compare {left right} same := by
    have parts : (compare left.kindRank right.kindRank).then
        (compare left.members right.members) = .eq := same
    rw [Ordering.then_eq_eq] at parts
    exact eq_of_members (Std.LawfulEqOrd.eq_of_compare parts.1)
      (Std.LawfulEqOrd.eq_of_compare parts.2)

end NodeKey

end Retained
