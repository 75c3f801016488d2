import Retained.Configuration.Options

/-!
# Configuration keys

A configuration is known by its checksum. People write only the first digits of it, so a checksum is
also addressed by any text it starts with.
-/

namespace Retained

/-- The key of a build configuration. -/
structure ConfigurationKey where
  /-- The checksum of the configuration's options. -/
  checksum : String
deriving DecidableEq, Repr, Inhabited

namespace ConfigurationKey

/-- The key computed from a configuration's options. -/
def ofOptions (options : Options) : ConfigurationKey :=
  { checksum := options.checksum }

/-- Whether the checksum starts with a text. -/
def startsWith (key : ConfigurationKey) (start : String) : Bool :=
  start.toList.isPrefixOf key.checksum.toList

end ConfigurationKey

end Retained
