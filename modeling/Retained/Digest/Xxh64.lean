/-!
# The XXH64 digest

A 64-bit digest of a byte sequence. The input is read as little-endian 64-bit words; every four of
them go through four parallel lanes, which are then folded together, and what is left over, at most
three words and seven bytes, is mixed in one piece at a time. All arithmetic is modulo `2^64`.
-/

namespace Retained.Xxh64

/-- The five multipliers of the digest. -/
def prime1 : UInt64 := 0x9E3779B185EBCA87
/-- The second multiplier. -/
def prime2 : UInt64 := 0xC2B2AE3D27D4EB4F
/-- The third multiplier. -/
def prime3 : UInt64 := 0x165667B19E3779F9
/-- The fourth multiplier. -/
def prime4 : UInt64 := 0x85EBCA77C2B2AE63
/-- The fifth multiplier. -/
def prime5 : UInt64 := 0x27D4EB2F165667C5

/-- A word turned left by a number of bits below its width. -/
def rotateLeft (word amount : UInt64) : UInt64 :=
  (word <<< amount) ||| (word >>> (64 - amount))

/-- The number that bytes write with the least significant first. -/
def littleEndian : List UInt8 → UInt64
  | [] => 0
  | byte :: rest => byte.toUInt64 ||| (littleEndian rest <<< 8)

/-- The whole 64-bit words of a byte sequence and the at most seven bytes after them. -/
def words : List UInt8 → List UInt64 × List UInt8
  | b0 :: b1 :: b2 :: b3 :: b4 :: b5 :: b6 :: b7 :: rest =>
    let (following, left) := words rest
    (littleEndian [b0, b1, b2, b3, b4, b5, b6, b7] :: following, left)
  | left => ([], left)

/-- One word goes into a lane. -/
def round (lane word : UInt64) : UInt64 :=
  rotateLeft (lane + word * prime2) 31 * prime1

/-- One lane goes into the digest. -/
def mergeLane (digest lane : UInt64) : UInt64 :=
  (digest ^^^ round 0 lane) * prime1 + prime4

/-- The four lanes. -/
structure Lanes where
  /-- Takes words 0, 4, 8 and so on. -/
  first : UInt64
  /-- Takes words 1, 5, 9 and so on. -/
  second : UInt64
  /-- Takes words 2, 6, 10 and so on. -/
  third : UInt64
  /-- Takes words 3, 7, 11 and so on. -/
  fourth : UInt64

/-- The lanes before the first word. -/
def Lanes.start (seed : UInt64) : Lanes :=
  { first := seed + prime1 + prime2, second := seed + prime2, third := seed,
    fourth := seed - prime1 }

/-- The lanes after every whole group of four words, and the words of no whole group. -/
def Lanes.absorb (lanes : Lanes) : List UInt64 → Lanes × List UInt64
  | w0 :: w1 :: w2 :: w3 :: rest =>
    Lanes.absorb
      { first := round lanes.first w0, second := round lanes.second w1
        third := round lanes.third w2, fourth := round lanes.fourth w3 }
      rest
  | left => (lanes, left)

/-- The lanes folded together. -/
def Lanes.fold (lanes : Lanes) : UInt64 :=
  let digest := rotateLeft lanes.first 1 + rotateLeft lanes.second 7 +
    rotateLeft lanes.third 12 + rotateLeft lanes.fourth 18
  [lanes.first, lanes.second, lanes.third, lanes.fourth].foldl mergeLane digest

/-- A word outside the lanes goes into the digest. -/
def mixWord (digest word : UInt64) : UInt64 :=
  rotateLeft (digest ^^^ round 0 word) 27 * prime1 + prime4

/-- A byte outside the words goes into the digest. -/
def mixByte (digest : UInt64) (byte : UInt8) : UInt64 :=
  rotateLeft (digest ^^^ (byte.toUInt64 * prime5)) 11 * prime1

/-- The at most seven last bytes go into the digest, the first four of them together. -/
def mixTail (digest : UInt64) : List UInt8 → UInt64
  | b0 :: b1 :: b2 :: b3 :: rest =>
    let half := littleEndian [b0, b1, b2, b3]
    rest.foldl mixByte (rotateLeft (digest ^^^ (half * prime1)) 23 * prime2 + prime3)
  | rest => rest.foldl mixByte digest

/-- The last scrambling, after which every input bit reaches every output bit. -/
def scramble (digest : UInt64) : UInt64 :=
  let digest := (digest ^^^ (digest >>> 33)) * prime2
  let digest := (digest ^^^ (digest >>> 29)) * prime3
  digest ^^^ (digest >>> 32)

/-- The digest of a byte sequence under a seed. -/
def digest (seed : UInt64) (bytes : List UInt8) : UInt64 :=
  let (allWords, lastBytes) := words bytes
  let (start, lastWords) :=
    if 4 ≤ allWords.length then
      let (lanes, lastWords) := (Lanes.start seed).absorb allWords
      (lanes.fold, lastWords)
    else
      (seed + prime5, allWords)
  scramble (mixTail (lastWords.foldl mixWord (start + UInt64.ofNat bytes.length)) lastBytes)

-- The digest of nothing under the zero seed.
example : digest 0 [] = 0xEF46DB3751D8E999 := by decide

end Retained.Xxh64
