import Retained.Text.Blank

/-!
# Configuration of dumps

A dump is configured by how many object walks may run at once and by whether the objects of the
builtins root are left out. Both are read from environment variables; a value that cannot be read
counts as absent.
-/

namespace Retained

/-- The configuration of dumps. -/
structure Config where
  /-- The number of walks that may run at once; `none` leaves it to the number of processors. -/
  maxParallelWalks : Option UInt64
  /-- Whether the objects reached from the builtins root are left out. -/
  excludeBuiltins : Bool
deriving DecidableEq, Repr

namespace Config

/-- The configuration without any setting. -/
def standard : Config :=
  { maxParallelWalks := none, excludeBuiltins := true }

/-- The number of processors to count on if the system does not tell. -/
def assumedProcessors : Nat := 4

/-- The variable for the number of walks. -/
def walksVariable : String := "FOOTPRINT_MAX_PARALLEL_WALKS"

/-- The variable for the builtins. -/
def builtinsVariable : String := "FOOTPRINT_EXCLUDE_BUILTINS"

/-- The value that a run of decimal digits writes, if it has a digit and nothing else. -/
def digitsValue? (digits : List Char) : Option Nat :=
  if digits.isEmpty || !digits.all Char.isDigit then none
  else some (digits.foldl (fun value digit => value * 10 + (digit.toNat - '0'.toNat)) 0)

/-- The 64-bit count that a text writes: decimal digits, perhaps behind a plus sign. -/
def count? (text : List Char) : Option UInt64 := do
  let value ← digitsValue? (if text.head? = some '+' then text.drop 1 else text)
  if value < UInt64.size then some (UInt64.ofNat value) else none

/-- The number of walks that a text sets: a positive count, surrounding blanks aside. -/
def readWalks? (text : String) : Option UInt64 :=
  (count? (Text.trimBlanks text.toList)).filter (0 < ·)

/-- The words that switch the exclusion of builtins off. -/
def offWords : List String := ["0", "false", "no", "off"]

/-- Whether a text leaves the exclusion of builtins on: it does unless it is a word for off, in any
case and surrounding blanks aside. -/
def readExclude (text : String) : Bool :=
  !offWords.any fun word => Text.matchesWord word (Text.trimBlanks text.toList)

/-- The configuration that a lookup of variables gives. -/
def ofLookup (lookup : String → Option String) : Config :=
  { maxParallelWalks := (lookup walksVariable).bind readWalks?
    excludeBuiltins := ((lookup builtinsVariable).map readExclude).getD true }

/-- The configuration with the number of walks set; zero counts as one. -/
def withMaxParallelWalks (config : Config) (walks : UInt64) : Config :=
  { config with maxParallelWalks := some (max walks 1) }

/-- The configuration with the exclusion of builtins set. -/
def withExcludeBuiltins (config : Config) (exclude : Bool) : Config :=
  { config with excludeBuiltins := exclude }

/-- The number of walks that may run at once on a machine with so many processors. -/
def parallelWalks (config : Config) (processors : Nat) : Nat :=
  match config.maxParallelWalks with
  | some walks => walks.toNat
  | none => processors

end Config

end Retained
