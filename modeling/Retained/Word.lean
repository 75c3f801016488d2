/-!
# Clamped 64-bit arithmetic

Sizes are 64-bit words. Computing one never wraps: a sum or product that does not fit is the largest
word. The laws give each operation's value as the exact natural number cut off at that word.
-/

namespace Retained.Word

/-- The largest word. -/
def largest : UInt64 := 0xFFFFFFFFFFFFFFFF

/-- The word nearest to a number from below: the number itself if it fits, else the largest. -/
def clamp (value : Nat) : UInt64 :=
  if value < UInt64.size then UInt64.ofNat value else largest

/-- Clamping cuts a number off at the largest word. -/
theorem toNat_clamp (value : Nat) : (clamp value).toNat = min value (UInt64.size - 1) := by
  unfold clamp
  split
  · next fits =>
    have bound : value < UInt64.size := fits
    rw [UInt64.toNat_ofNat_of_lt' fits]
    omega
  · next exceeds =>
    have bound : ¬ value < UInt64.size := exceeds
    have top : largest.toNat = UInt64.size - 1 := by decide
    omega

/-- The sum of two words, clamped. -/
def addClamped (left right : UInt64) : UInt64 :=
  clamp (left.toNat + right.toNat)

/-- The product of two words, clamped. -/
def mulClamped (left right : UInt64) : UInt64 :=
  clamp (left.toNat * right.toNat)

/-- A clamped sum is the exact sum cut off at the largest word. -/
theorem toNat_addClamped (left right : UInt64) :
    (addClamped left right).toNat = min (left.toNat + right.toNat) (UInt64.size - 1) :=
  toNat_clamp _

/-- A clamped product is the exact product cut off at the largest word. -/
theorem toNat_mulClamped (left right : UInt64) :
    (mulClamped left right).toNat = min (left.toNat * right.toNat) (UInt64.size - 1) :=
  toNat_clamp _

end Retained.Word
