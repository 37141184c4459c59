import GameArchive.Codec.Lz4.Frame
import GameArchive.Codec.Repetition

/-!
# Packing into LZ4

A block is built from the repetitions of its contents.  Every packed form is read again before it
is used, and a form without copies takes its place if the contents do not come back.
-/

namespace GameArchive
namespace Lz4

def maximumOffset : Nat := 65535

/-- The number of bytes at the end of a block that are always literal. -/
def literalMargin : Nat := 12

/-- The sequences for some repetitions, and the literal bytes after them. -/
def blockOf : List Repetition → Bytes → Block
  | [], bytes => ⟨[], bytes⟩
  | repetition :: rest, bytes =>
      let block := blockOf rest (bytes.drop (repetition.literals + repetition.length))
      { block with
        sequences :=
          ⟨bytes.take repetition.literals, repetition.offset, repetition.length⟩ ::
            block.sequences }

def condensed (bytes : Bytes) : Block :=
  blockOf (Repetition.find bytes.toArray maximumOffset literalMargin) bytes

def packBlock (bytes : Bytes) : Bytes :=
  let packed := (condensed bytes).write
  if decodeBlock? bytes.length packed = some bytes then packed
  else (⟨[], bytes⟩ : Block).write

/-- A block of a frame, stored as it is. -/
def storedFrameBlock (bytes : Bytes) : Bytes :=
  LittleEndian.encode 4 (0x80000000 + bytes.length) ++ bytes

/-- A block of a frame, packed if that makes it shorter. -/
def packedFrameBlock (bytes : Bytes) : Bytes :=
  let packed := packBlock bytes
  if packed.length < bytes.length then LittleEndian.encode 4 packed.length ++ packed
  else storedFrameBlock bytes

def frameBlockSize : Nat := 64 * 1024

/-- Cuts a byte string into `count` blocks of the frame block size. -/
def frameBlocks : (count : Nat) → Bytes → List Bytes
  | 0, _ => []
  | count + 1, bytes => bytes.take frameBlockSize :: frameBlocks count (bytes.drop frameBlockSize)

/-- A frame whose blocks are written in a given way. -/
def writeFrame (writeBlock : Bytes → Bytes) (bytes : Bytes) : Bytes :=
  let count := (bytes.length + frameBlockSize - 1) / frameBlockSize
  writtenHeader ++ (frameBlocks count bytes).flatMap writeBlock ++ LittleEndian.encode 4 0

def packFrame (bytes : Bytes) : Bytes :=
  let packed := writeFrame packedFrameBlock bytes
  if (decodeFrame packed).all? = some bytes then packed else writeFrame storedFrameBlock bytes

end Lz4
end GameArchive
