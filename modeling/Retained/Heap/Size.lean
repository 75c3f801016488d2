import Retained.Word
import Retained.Heap.Object

/-!
# Object sizes

Sizes are in bytes. Arrays and hash tables are laid out in aligned blocks, so the bytes of a block
are rounded up to a multiple of the alignment. All computations are clamped: a size that does not
fit is the largest one that the computation can give.
-/

namespace Retained

/-- Blocks are aligned to multiples of this many bytes. -/
def blockAlignment : UInt64 := 8

/-- The bytes of an array in front of its elements. -/
def arrayHeaderBytes : UInt64 := 16

/-- The bytes of a reference. -/
def referenceBytes : UInt64 := 4

/-- The bytes of the aligned block for so many bytes. -/
def align (bytes : UInt64) : UInt64 :=
  Word.addClamped bytes (blockAlignment - 1) / blockAlignment * blockAlignment

/-- The bytes of an array. -/
def arrayBytes (elementBytes length : UInt64) : UInt64 :=
  align (Word.addClamped arrayHeaderBytes (Word.mulClamped elementBytes length))

namespace Shape

/-- The bytes of an object alone: of a hash table only the header. -/
def shallowBytes : Shape → UInt64
  | .instance shallowBytes => shallowBytes
  | .array elementBytes length => arrayBytes elementBytes.toUInt64 length
  | .collection headerBytes _ _ _ => headerBytes.toUInt64

/-- The bytes of the table of references for a capacity; an empty table is not made. -/
def tableBytes (capacity : UInt64) : UInt64 :=
  if capacity = 0 then 0 else arrayBytes referenceBytes capacity

/-- The bytes of an object with the table and the entries of a hash table. -/
def ownedBytes : Shape → UInt64
  | .collection headerBytes capacity entries entryBytes =>
    Word.addClamped (Word.addClamped headerBytes.toUInt64 (tableBytes capacity))
      (Word.mulClamped entries entryBytes.toUInt64)
  | shape => shape.shallowBytes

/-- Whether a shape is that of a hash table. -/
def isCollection : Shape → Bool
  | .collection _ _ _ _ => true
  | _ => false

end Shape

end Retained
