import GameArchive.Bytes

/-!
# Zip containers

What the directory of a zip container tells about an entry, and the ways in which a container
can be unreadable.
-/

namespace GameArchive
namespace Zip

/-- A way in which a container cannot be read. -/
inductive Fault where
  | malformed
  /-- The container is split, or an entry is encrypted or packed in an unknown way. -/
  | unsupported
  | locked
  /-- An extra field ends before what belongs to it. -/
  | shortField
  /-- An entry lies at a position that no file has. -/
  | outOfReach
  deriving Repr, DecidableEq

/-- An entry as the directory describes it. -/
structure Entry where
  rawName : Bytes
  name : String
  comment : String
  /-- Whether the entry is marked as encrypted. -/
  isEncrypted : Bool
  /-- Whether a field describes how the entry is encrypted. -/
  isLocked : Bool
  method : Nat
  crc : Nat
  packedLength : Nat
  unpackedLength : Nat
  /-- Where the local header of the entry stands. -/
  offset : Nat
  deriving Repr, DecidableEq

structure Container where
  bytes : Bytes
  entries : List Entry
  deriving Repr, DecidableEq

/-- The number in a field of a record. -/
def fieldAt (bytes : Bytes) (offset width : Nat) : Nat :=
  LittleEndian.decode (bytes.window offset width)

/-- Whether a record begins with a signature and has at least the given length. -/
def isRecord (signature : Bytes) (length : Nat) (bytes : Bytes) : Bool :=
  signature.isPrefixOf bytes && length ≤ bytes.length

/-- The value of a field of two bytes that leaves the value to a wider field. -/
def fullWord16 : Nat := 0xFFFF

/-- The value of a field of four bytes that leaves the value to a wider field. -/
def fullWord32 : Nat := 0xFFFFFFFF

end Zip
end GameArchive
