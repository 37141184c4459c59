import GameArchive.Codec.Deflate
import GameArchive.Digest.Checksums

/-!
# Zlib streams

A zlib stream is a header of two bytes, a deflate stream and the Adler-32 checksum of its
contents, most significant byte first.  Bytes after the stream are ignored.  A checksum that is
wrong shows as soon as the last byte of the contents is read, unless it lies in a later piece of
the input; one that is missing shows only when more is asked for.
-/

namespace GameArchive
namespace Zlib

/-- Whether two bytes are the header of a stream that needs no preset dictionary. -/
def isHeader (method flags : UInt8) : Bool :=
  (256 * method.toNat + flags.toNat) % 31 == 0 && method &&& 0x0F == 8 && method ≤ 0x7F &&
    flags &&& 0x20 == 0

def checksumBytes (bytes : Bytes) : Bytes :=
  (LittleEndian.encode 4 (Adler32.checksum bytes)).reverse

def pieceSize : Nat := 32 * 1024

def readHeader : BitReader Unit := do
  let method ← BitReader.number 8
  let flags ← BitReader.number 8
  BitReader.require (isHeader (UInt8.ofNat method) (UInt8.ofNat flags))

def readChecksum (contents : Bytes) : BitReader Unit := do
  BitReader.align
  let check ← BitReader.number 32
  BitReader.require (LittleEndian.encode 4 check == checksumBytes contents)

/-- Expands a whole stream, which lies among the given bytes. -/
def stream (bytes : Bytes) : Inflate.Expansion Unit := do
  Inflate.read readHeader
  Inflate.stream bytes
  let progress ← get
  Inflate.read (readChecksum progress.output.toList)

def decode (bytes : Bytes) : Delivery :=
  Inflate.deliver (stream bytes) pieceSize bytes

/-- The zlib stream around a deflate stream of the given contents. -/
def wrap (contents deflated : Bytes) : Bytes :=
  [0x78, 0x9C] ++ deflated ++ checksumBytes contents

/-- A packed stream.  It is read again before it is used, and a stream of stored blocks takes its
place if the contents do not come back. -/
def pack (bytes : Bytes) : Bytes :=
  let packed := wrap bytes (Deflate.condensedStream bytes)
  if (decode packed).all? = some bytes then packed else wrap bytes (Deflate.storedStream bytes)

end Zlib
end GameArchive
