import GameArchive.Bytes

/-!
# The 32-bit xxHash

Four lanes absorb stripes of 16 bytes; their mix, the length and the remaining bytes make the
digest.  All arithmetic is modulo `2 ^ 32`, and the seed is zero.
-/

namespace GameArchive
namespace XxHash32

def prime1 : UInt32 := 2654435761

def prime2 : UInt32 := 2246822519

def prime3 : UInt32 := 3266489917

def prime4 : UInt32 := 668265263

def prime5 : UInt32 := 374761393

/-- The bits of a word moved towards its high end, those that leave it entering below. -/
def rotateLeft (word : UInt32) (count : UInt32) : UInt32 :=
  (word <<< count) ||| (word >>> (32 - count))

def word (bytes : Bytes) : UInt32 :=
  bytes.foldr (fun byte high => (high <<< 8) ||| byte.toUInt32) 0

/-- One lane after it absorbed a word. -/
def round (lane input : UInt32) : UInt32 :=
  rotateLeft (lane + input * prime2) 13 * prime1

structure Lanes where
  first : UInt32
  second : UInt32
  third : UInt32
  fourth : UInt32

def Lanes.initial : Lanes where
  first := prime1 + prime2
  second := prime2
  third := 0
  fourth := 0 - prime1

def Lanes.absorb (lanes : Lanes) (stripe : Bytes) : Lanes where
  first := round lanes.first (word (stripe.take 4))
  second := round lanes.second (word ((stripe.drop 4).take 4))
  third := round lanes.third (word ((stripe.drop 8).take 4))
  fourth := round lanes.fourth (word ((stripe.drop 12).take 4))

def Lanes.merge (lanes : Lanes) : UInt32 :=
  rotateLeft lanes.first 1 + rotateLeft lanes.second 7 +
    rotateLeft lanes.third 12 + rotateLeft lanes.fourth 18

/-- Absorbs `count` stripes and gives the lanes with the bytes that remain. -/
def absorbStripes : (count : Nat) → Lanes → Bytes → Lanes × Bytes
  | 0, lanes, bytes => (lanes, bytes)
  | count + 1, lanes, bytes => absorbStripes count (lanes.absorb (bytes.take 16)) (bytes.drop 16)

/-- The digest after `count` groups of four bytes. -/
def absorbWords : (count : Nat) → UInt32 → Bytes → UInt32 × Bytes
  | 0, digest, bytes => (digest, bytes)
  | count + 1, digest, bytes =>
      absorbWords count
        (rotateLeft (digest + word (bytes.take 4) * prime3) 17 * prime4) (bytes.drop 4)

def absorbByte (digest : UInt32) (byte : UInt8) : UInt32 :=
  rotateLeft (digest + byte.toUInt32 * prime5) 11 * prime1

def avalanche (digest : UInt32) : UInt32 :=
  let first := (digest ^^^ (digest >>> 15)) * prime2
  let second := (first ^^^ (first >>> 13)) * prime3
  second ^^^ (second >>> 16)

def digest (bytes : Bytes) : UInt32 :=
  let (lanes, rest) := absorbStripes (bytes.length / 16) Lanes.initial bytes
  let start := (if bytes.length < 16 then prime5 else lanes.merge) + UInt32.ofNat bytes.length
  let (wide, rest) := absorbWords (rest.length / 4) start rest
  avalanche (rest.foldl absorbByte wide)

end XxHash32
end GameArchive
