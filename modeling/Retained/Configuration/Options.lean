import Std.Data.ExtTreeMap
import Retained.Digest.Xxh64
import Retained.Text.Hex

/-!
# Build options and their canonical form

A configuration is a set of named options. Its canonical bytes list the options in the order of
their names, each name and value led by its length in bytes as eight little-endian bytes, and its
checksum is the digest of those bytes in sixteen hexadecimal digits. The lengths make the form
readable from left to right without separators.
-/

namespace Retained

/-- Options by name, in the order of the names. -/
abbrev Options := Std.ExtTreeMap String String compare

namespace Options

/-- The options set one after the other: the last value given to a name stays. -/
def ofList (settings : List (String × String)) : Options :=
  settings.foldl (fun options (name, value) => options.insert name value) ∅

/-- The UTF-8 bytes of a text. -/
def utf8 (text : String) : List UInt8 :=
  text.toByteArray.toList

/-- A number as eight bytes, the least significant first. -/
def wordBytes (number : UInt64) : List UInt8 :=
  (List.range 8).map fun place => (number >>> (8 * UInt64.ofNat place)).toUInt8

/-- A text led by its length in bytes. -/
def measuredBytes (text : String) : List UInt8 :=
  let bytes := utf8 text
  wordBytes (UInt64.ofNat bytes.length) ++ bytes

/-- The canonical bytes of a set of options. -/
def canonicalBytes (options : Options) : List UInt8 :=
  options.toList.flatMap fun (name, value) => measuredBytes name ++ measuredBytes value

/-- The digest of the canonical bytes. -/
def digest (options : Options) : UInt64 :=
  Xxh64.digest 0 options.canonicalBytes

/-- The checksum of a set of options: its digest in sixteen digits, the most significant first. -/
def checksum (options : Options) : String :=
  Text.hex (wordBytes options.digest).reverse

end Options

end Retained
