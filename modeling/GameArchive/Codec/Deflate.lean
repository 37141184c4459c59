import GameArchive.Codec.Inflate
import GameArchive.Codec.Repetition

/-!
# Writing deflate streams

A stream is one block of symbols of the fixed codes, built from the repetitions of the contents.
`storedStream` writes the contents as they are, in blocks of at most 65535 bytes.
-/

namespace GameArchive
namespace Deflate

def maximumDistance : Nat := 32768

def maximumLength : Nat := 258

/-- The bits of a number, lowest first. -/
def numberBits : (width value : Nat) → List Bool
  | 0, _ => []
  | width + 1, value => (value % 2 == 1) :: numberBits width (value / 2)

/-- The bits of a code word, highest first. -/
def wordBits (width value : Nat) : List Bool :=
  (numberBits width value).reverse

def symbolBits (symbol : Nat) : List Bool :=
  if symbol < 144 then wordBits 8 (0x30 + symbol)
  else if symbol < 256 then wordBits 9 (0x190 + (symbol - 144))
  else if symbol < 280 then wordBits 7 (symbol - 256)
  else wordBits 8 (0xC0 + (symbol - 280))

/-- The last entry of a table whose base is at most `value`: its index, base and extra width. -/
def tableEntry (table : Array (Nat × Nat)) (value : Nat) : Nat × Nat × Nat :=
  (table.toList.zipIdx.filter fun ((base, _), _) => base ≤ value).foldl
    (fun _ ((base, width), index) => (index, base, width)) (0, 0, 0)

def copyBits (length distance : Nat) : List Bool :=
  let (lengthIndex, lengthBase, lengthWidth) := tableEntry Inflate.lengthTable length
  let (distanceIndex, distanceBase, distanceWidth) := tableEntry Inflate.distanceTable distance
  symbolBits (257 + lengthIndex) ++ numberBits lengthWidth (length - lengthBase) ++
    wordBits 5 distanceIndex ++ numberBits distanceWidth (distance - distanceBase)

/-- Cuts a length into lengths that one copy can have; each cut takes at least one byte, and
`fuel` is the length. -/
def cutLength : (fuel length : Nat) → List Nat
  | 0, _ => []
  | fuel + 1, length =>
      if length = 0 then []
      else if length ≤ maximumLength then [length]
      else if length < maximumLength + 3 then [length - 3, 3]
      else maximumLength :: cutLength fuel (length - maximumLength)

def literalBits (bytes : Bytes) : List Bool :=
  bytes.flatMap fun byte => symbolBits byte.toNat

/-- The bits of some repetitions and of the literal bytes after them. -/
def contentBits : List Repetition → Bytes → List Bool
  | [], bytes => literalBits bytes
  | repetition :: rest, bytes =>
      literalBits (bytes.take repetition.literals) ++
        (cutLength repetition.length repetition.length).flatMap
          (copyBits · repetition.offset) ++
        contentBits rest (bytes.drop (repetition.literals + repetition.length))

def packByte (bits : List Bool) : UInt8 :=
  bits.foldr (fun bit high => high * 2 + (if bit then 1 else 0)) 0

/-- The bytes of some bits, `fuel` at most. -/
def packBits : (fuel : Nat) → List Bool → Bytes
  | 0, _ => []
  | fuel + 1, bits =>
      if bits.isEmpty then [] else packByte (bits.take 8) :: packBits fuel (bits.drop 8)

def condensedStream (bytes : Bytes) : Bytes :=
  let repetitions := Repetition.find bytes.toArray maximumDistance 0
  let bits := [true, true, false] ++ contentBits repetitions bytes ++ symbolBits 256
  packBits (bits.length / 8 + 1) bits

def storedBlockSize : Nat := 65535

def storedBlock (last : Bool) (bytes : Bytes) : Bytes :=
  (if last then 1 else 0) ::
    (LittleEndian.encode 2 bytes.length ++ LittleEndian.encode 2 (0xFFFF - bytes.length) ++ bytes)

/-- The stored blocks of a byte string, after `count` full blocks the last one. -/
def storedBlocks : (count : Nat) → Bytes → Bytes
  | 0, bytes => storedBlock true bytes
  | count + 1, bytes =>
      storedBlock false (bytes.take storedBlockSize) ++
        storedBlocks count (bytes.drop storedBlockSize)

def storedStream (bytes : Bytes) : Bytes :=
  storedBlocks (bytes.length / storedBlockSize) bytes

end Deflate
end GameArchive
