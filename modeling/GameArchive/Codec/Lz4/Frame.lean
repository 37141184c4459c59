import GameArchive.Codec.Delivery
import GameArchive.Codec.Lz4.Block
import GameArchive.Digest.XxHash32

/-!
# LZ4 frames

A frame is a header, blocks with their sizes before them, and an end mark.  Flags in the header
tell whether blocks may copy from their predecessors, and which sizes and checksums are written.
A frame of the legacy format has no flags after its magic number.

Blocks that copy from their predecessors are expanded into a buffer that holds two blocks and the
longest distance of a copy.  When there is no room for another block, the last bytes become a
dictionary, and the output starts over in front of it; as long as the dictionary is needed, a
block may grow up to it, beyond the size that the header allows.

A frame that ends where its magic number or a block would begin ends quietly; so does one at a
block without contents.  The total size and the checksum of the contents are known to be wrong
only when the end mark is read.
-/

namespace GameArchive
namespace Lz4

def frameMagic : Nat := 0x184D2204

def legacyMagic : Nat := 0x184C2102

structure FrameHeader where
  /-- Blocks do not copy from their predecessors. -/
  independent : Bool
  blockChecksums : Bool
  contentChecksum : Bool
  contentSize : Option Nat
  blockLimit : Nat
  deriving Repr, DecidableEq

/-- What the magic number of a frame of the legacy format says. -/
def legacyHeader : FrameHeader where
  independent := true
  blockChecksums := false
  contentChecksum := false
  contentSize := none
  blockLimit := 8 * 1024 * 1024

inductive FrameStart where
  | absent
  | invalid
  | frame (header : FrameHeader) (rest : Bytes)
  deriving Repr, DecidableEq

/-- The greatest block size that the identifier in the second descriptor byte stands for. -/
def blockLimit? (descriptor : UInt8) : Option Nat :=
  match (descriptor >>> 4).toNat with
  | 4 => some (64 * 1024)
  | 5 => some (256 * 1024)
  | 6 => some (1024 * 1024)
  | 7 => some (4 * 1024 * 1024)
  | _ => none

def hasFlag (flags bit : UInt8) : Bool :=
  flags &&& bit != 0

def descriptorCheck (descriptor : Bytes) : UInt8 :=
  (XxHash32.digest descriptor >>> 8).toUInt8

def readDescriptor? (bytes : Bytes) : Option (FrameHeader × Bytes) :=
  match bytes with
  | flags :: block :: _ => do
      let hasSize := hasFlag flags 0x08
      let (descriptor, rest) ← bytes.split? (if hasSize then 10 else 2)
      let (check, rest) ← rest.split? 1
      if flags >>> 6 = 1 ∧ flags &&& 0x03 = 0 ∧ block &&& 0x8F = 0 ∧
          check = [descriptorCheck descriptor] then
        let limit ← blockLimit? block
        let size := if hasSize then some (LittleEndian.decode (descriptor.drop 2)) else none
        pure (⟨hasFlag flags 0x20, hasFlag flags 0x10, hasFlag flags 0x04, size, limit⟩, rest)
      else
        none
  | _ => none

def readFrameStart (bytes : Bytes) : FrameStart :=
  if bytes.isEmpty then
    .absent
  else
    match LittleEndian.read? 4 bytes with
    | none => .invalid
    | some (magic, rest) =>
        if rest.isEmpty then
          .absent
        else if magic = frameMagic then
          match readDescriptor? rest with
          | some (header, rest) => .frame header rest
          | none => .invalid
        else if magic = legacyMagic then
          .frame legacyHeader rest
        else
          .invalid

/-- How the output of linked blocks lies in the buffer of a decoder. -/
structure LinkedBuffer where
  position : Nat
  /-- Where the bytes begin that came before the start of the buffer. -/
  dictionaryStart : Nat
  dictionaryLength : Nat
  deriving Repr, DecidableEq

namespace LinkedBuffer

def start : LinkedBuffer where
  position := 0
  dictionaryStart := 0
  dictionaryLength := 0

def reach : Nat := 64 * 1024

/-- The buffer made ready for another block: it starts over when that block might not fit in
behind the others, and it drops the part of the dictionary that is out of reach. -/
def prepare (blockLimit : Nat) (buffer : LinkedBuffer) : LinkedBuffer :=
  if blockLimit + reach < buffer.position then
    ⟨0, buffer.position - reach, reach⟩
  else
    let surplus := min buffer.dictionaryLength
      (buffer.position + buffer.dictionaryLength - reach)
    {
      buffer with
      dictionaryStart := buffer.dictionaryStart + surplus
      dictionaryLength := buffer.dictionaryLength - surplus }

def room (blockLimit : Nat) (buffer : LinkedBuffer) : Nat :=
  if buffer.dictionaryLength = 0 then blockLimit else buffer.dictionaryStart - buffer.position

def advance (count : Nat) (buffer : LinkedBuffer) : LinkedBuffer :=
  { buffer with position := buffer.position + count }

end LinkedBuffer

def readBlockBody? (header : FrameHeader) (size : Nat) (rest : Bytes) :
    Option (Bytes × Bytes) := do
  let (body, rest) ← rest.split? size
  if header.blockChecksums then
    let (check, rest) ← LittleEndian.read? 4 rest
    if check = (XxHash32.digest body).toNat then pure (body, rest) else none
  else
    pure (body, rest)

/-- The output after a block of the given size word, and the bytes after the block.  `room` is how
many bytes the contents of a packed block may have when it is linked to those before it. -/
def readBlock? (header : FrameHeader) (room word : Nat) (rest : Bytes) (output : Array UInt8) :
    Option (Array UInt8 × Bytes) := do
  let plain := 0x80000000 ≤ word
  let size := if plain then word - 0x80000000 else word
  if header.blockLimit < size then
    none
  else
    let (body, rest) ← readBlockBody? header size rest
    if plain then
      pure (output ++ body.toArray, rest)
    else
      let block ← Block.read? body
      if header.independent then
        let expanded ← block.expandInto? header.blockLimit #[]
        pure (output ++ expanded, rest)
      else
        let expanded ← block.expandInto? (output.size + room) output
        pure (expanded, rest)

/-- How a delivery ends at the end mark. -/
def endingAtMark (header : FrameHeader) (output : Array UInt8) (rest : Bytes) : Ending :=
  if header.contentSize.any (· != output.size) then
    .rejected
  else if header.contentChecksum then
    match LittleEndian.read? 4 rest with
    | some (check, _) =>
        if check = (XxHash32.digest output.toList).toNat then .finished else .rejected
    | none => .rejected
  else
    .finished

/-- Reads blocks up to the end mark.  Every block takes four bytes at least, and `fuel` exceeds
the number of bytes. -/
def readBlocks (header : FrameHeader) :
    (fuel : Nat) → LinkedBuffer → Bytes → Array UInt8 → Array UInt8 × Ending
  | 0, _, _, output => (output, .rejected)
  | fuel + 1, buffer, bytes, output =>
      match LittleEndian.read? 4 bytes with
      | none => (output, .finished)
      | some (0, rest) => (output, endingAtMark header output rest)
      | some (word, rest) =>
          let buffer := buffer.prepare header.blockLimit
          match readBlock? header (buffer.room header.blockLimit) word rest output with
          | none => (output, .rejected)
          | some (extended, rest) =>
              if extended.size = output.size then
                (output, .finished)
              else
                let buffer := buffer.advance (extended.size - output.size)
                readBlocks header fuel buffer rest extended

/-- What the decoder of a frame delivers; bytes after the frame are ignored. -/
def decodeFrame (bytes : Bytes) : Delivery :=
  match readFrameStart bytes with
  | .absent => .ready []
  | .invalid => .failing []
  | .frame header rest =>
      let (output, ending) := readBlocks header (rest.length + 1) .start rest #[]
      ⟨output.toList, [], ending⟩

/-- The header of the frames that are written: independent blocks of at most 64 KiB, without
sizes and checksums. -/
def writtenHeader : Bytes :=
  LittleEndian.encode 4 frameMagic ++ [0x60, 0x40, descriptorCheck [0x60, 0x40]]

end Lz4
end GameArchive
