import GameArchive.Bytes

/-!
# The 64-bit xxHash

Four lanes absorb stripes of 32 bytes; their mix, the length and the remaining bytes make the
digest.  All arithmetic is modulo `2 ^ 64`, and the seed is zero.
-/

namespace GameArchive
namespace XxHash64

def prime1 : UInt64 := 11400714785074694791

def prime2 : UInt64 := 14029467366897019727

def prime3 : UInt64 := 1609587929392839161

def prime4 : UInt64 := 9650029242287828579

def prime5 : UInt64 := 2870177450012600261

def rotateLeft (word : UInt64) (count : UInt64) : UInt64 :=
  (word <<< count) ||| (word >>> (64 - count))

def word (bytes : Bytes) : UInt64 :=
  bytes.foldr (fun byte high => (high <<< 8) ||| byte.toUInt64) 0

/-- One lane after it absorbed a word. -/
def round (lane input : UInt64) : UInt64 :=
  rotateLeft (lane + input * prime2) 31 * prime1

structure Lanes where
  first : UInt64
  second : UInt64
  third : UInt64
  fourth : UInt64

def Lanes.initial : Lanes where
  first := prime1 + prime2
  second := prime2
  third := 0
  fourth := 0 - prime1

def Lanes.absorb (lanes : Lanes) (stripe : Bytes) : Lanes where
  first := round lanes.first (word (stripe.take 8))
  second := round lanes.second (word ((stripe.drop 8).take 8))
  third := round lanes.third (word ((stripe.drop 16).take 8))
  fourth := round lanes.fourth (word ((stripe.drop 24).take 8))

/-- The digest so far after one more lane was merged into it. -/
def mergeLane (digest lane : UInt64) : UInt64 :=
  (digest ^^^ round 0 lane) * prime1 + prime4

def Lanes.merge (lanes : Lanes) : UInt64 :=
  let sum := rotateLeft lanes.first 1 + rotateLeft lanes.second 7 +
    rotateLeft lanes.third 12 + rotateLeft lanes.fourth 18
  [lanes.first, lanes.second, lanes.third, lanes.fourth].foldl mergeLane sum

/-- Absorbs `count` stripes and gives the lanes with the bytes that remain. -/
def absorbStripes : (count : Nat) → Lanes → Bytes → Lanes × Bytes
  | 0, lanes, bytes => (lanes, bytes)
  | count + 1, lanes, bytes => absorbStripes count (lanes.absorb (bytes.take 32)) (bytes.drop 32)

/-- The digest after `count` groups of eight bytes. -/
def absorbWords : (count : Nat) → UInt64 → Bytes → UInt64 × Bytes
  | 0, digest, bytes => (digest, bytes)
  | count + 1, digest, bytes =>
      absorbWords count
        (rotateLeft (digest ^^^ round 0 (word (bytes.take 8))) 27 * prime1 + prime4)
        (bytes.drop 8)

/-- The digest after a group of four bytes, if that many remain. -/
def absorbHalfWord (digest : UInt64) (bytes : Bytes) : UInt64 × Bytes :=
  if 4 ≤ bytes.length then
    (rotateLeft (digest ^^^ (word (bytes.take 4) * prime1)) 23 * prime2 + prime3, bytes.drop 4)
  else
    (digest, bytes)

def absorbByte (digest : UInt64) (byte : UInt8) : UInt64 :=
  rotateLeft (digest ^^^ (byte.toUInt64 * prime5)) 11 * prime1

def avalanche (digest : UInt64) : UInt64 :=
  let first := (digest ^^^ (digest >>> 33)) * prime2
  let second := (first ^^^ (first >>> 29)) * prime3
  second ^^^ (second >>> 32)

def digest (bytes : Bytes) : UInt64 :=
  let (lanes, rest) := absorbStripes (bytes.length / 32) Lanes.initial bytes
  let start := (if bytes.length < 32 then prime5 else lanes.merge) + UInt64.ofNat bytes.length
  let (wide, rest) := absorbWords (rest.length / 8) start rest
  let (half, rest) := absorbHalfWord wide rest
  avalanche (rest.foldl absorbByte half)

end XxHash64
end GameArchive
