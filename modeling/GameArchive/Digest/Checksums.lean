import GameArchive.Bytes

/-!
# Checksums of compressed streams

Adler-32 closes a zlib stream, and the CRC-32 of an entry stands in a zip directory.
-/

namespace GameArchive

namespace Adler32

def modulus : Nat := 65521

/-- The two running sums after one byte. -/
def step (sums : Nat × Nat) (byte : UInt8) : Nat × Nat :=
  let low := (sums.1 + byte.toNat) % modulus
  (low, (sums.2 + low) % modulus)

def checksum (bytes : Bytes) : Nat :=
  let (low, high) := bytes.foldl step (1, 0)
  high * 65536 + low

end Adler32

namespace Crc32

def polynomial : UInt32 := 0xEDB88320

def shiftBit (remainder : UInt32) : UInt32 :=
  if remainder &&& 1 = 1 then (remainder >>> 1) ^^^ polynomial else remainder >>> 1

def step (remainder : UInt32) (byte : UInt8) : UInt32 :=
  Nat.repeat shiftBit 8 (remainder ^^^ byte.toUInt32)

def checksum (bytes : Bytes) : UInt32 :=
  bytes.foldl step 0xFFFFFFFF ^^^ 0xFFFFFFFF

end Crc32

end GameArchive
