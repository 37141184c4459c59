import GameArchive.Codec.Lz4.Packing
import GameArchive.Codec.Zlib
import GameArchive.Error

/-!
# Entry compression

Four ways to store the data of an entry, with the decoder and the packer of each.  A stored entry
is as long as its contents; a packed one is cut to its packed length first.  A raw LZ4 block does
not tell its own size, and a declared size beyond what its bytes could ever expand to is refused
before anything is decoded.

The packers and decoders themselves are exchangeable: `Codecs` names those that a program is
built with, and `Codecs.standard` are the ones of this library.
-/

namespace GameArchive

/-- A packer of byte strings, and what the decoder of its output delivers. -/
structure StreamCodec where
  pack : Bytes → Bytes
  decode : Bytes → Delivery

/-- A packer into blocks that do not tell their own size, and a decoder that is told a limit. -/
structure BlockCodec where
  pack : Bytes → Bytes
  decode? : (limit : Nat) → Bytes → Option Bytes

/-- The packers and decoders that a program is built with. -/
class Codecs where
  zlib : StreamCodec
  lz4Frame : StreamCodec
  lz4Block : BlockCodec

/-- The packers and decoders of this library. -/
instance Codecs.standard : Codecs where
  zlib := ⟨Zlib.pack, Zlib.decode⟩
  lz4Frame := ⟨Lz4.packFrame, Lz4.decodeFrame⟩
  lz4Block := ⟨Lz4.packBlock, Lz4.decodeBlock?⟩

/-- How the data of an entry are stored. -/
inductive Compression where
  | stored
  | zlib
  | lz4Frame
  | lz4Block
  deriving Repr, DecidableEq

namespace Compression

/-- The greatest number of bytes that one byte of an LZ4 block can stand for. -/
def blockRatio : Nat := 255

/-- The greatest size that an LZ4 block of the given length is trusted to have. -/
def blockLimit (packedLength : Nat) : Nat :=
  packedLength * blockRatio + 16

/-- What the decoder of an entry delivers.  `input` begins with the entry. -/
def deliver [Codecs] (compression : Compression) (input : Bytes)
    (packedLength unpackedLength : Nat) : Except IoError Delivery :=
  match compression with
  | stored => .ok (.ready (input.take unpackedLength))
  | zlib => .ok (Codecs.zlib.decode (input.take packedLength))
  | lz4Frame => .ok (Codecs.lz4Frame.decode (input.take packedLength))
  | lz4Block =>
      let packed := input.take packedLength
      if blockLimit packed.length < unpackedLength then
        .error (.oversizedBlock unpackedLength packed.length)
      else
        match Codecs.lz4Block.decode? unpackedLength packed with
        | some bytes => .ok (.ready bytes)
        | none => .error .codec

def pack [Codecs] (compression : Compression) (bytes : Bytes) : Bytes :=
  match compression with
  | stored => bytes
  | zlib => Codecs.zlib.pack bytes
  | lz4Frame => Codecs.lz4Frame.pack bytes
  | lz4Block => Codecs.lz4Block.pack bytes

end Compression
end GameArchive
