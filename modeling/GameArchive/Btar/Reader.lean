import GameArchive.Path
import GameArchive.Reading

/-!
# Reading BTAR streams

A BTAR is a header and a sequence of records.  A record is the length of its name, the name, the
length of its data, and the data.  Reading a record tells where its data stand and passes over
them, so that the records lie in disjoint windows.
-/

namespace GameArchive
namespace Btar

def magic : Bytes := [0x42, 0x54, 0x41, 0x52]

def majorVersion : Nat := 1

def leastMinorVersion : Nat := 2

/-- The greatest minor version that is read, which is the one that is written. -/
def greatestMinorVersion : Nat := 4

def headerLength : Nat := 8

/-- Where the data of a record stand. -/
structure Record where
  name : String
  offset : Nat
  length : Nat
  deriving Repr, DecidableEq

def openHeader (source : Source) : Except ExtractError Nat :=
  let invalid := fun (fault : FormatFault) => Except.error (.invalidFormat source.name fault)
  let minor := LittleEndian.decode (source.bytes.window 6 2)
  if source.bytes.length < headerLength then invalid .notBtar
  else if source.bytes.take 4 ≠ magic then invalid .notBtar
  else if LittleEndian.decode (source.bytes.window 4 2) ≠ majorVersion then
    invalid .unknownBtarMajor
  else if minor < leastMinorVersion ∨ greatestMinorVersion < minor then
    invalid .unknownBtarMinor
  else .ok minor

/-- Reads the record at the start of `bytes`, which begin at `position` of the stream, and gives
what follows it. -/
def readRecord (archive : String) (position : Nat) (bytes : Bytes) :
    Except ExtractError (Record × Bytes) := do
  let (nameLength, bytes) ← readBlock archive none 2 bytes
  let nameLength := LittleEndian.decode nameLength
  let (nameBytes, bytes) ← readBlock archive none nameLength bytes
  match Utf8.decode nameBytes with
  | .error _ => .error (.invalidFormat archive (.malformedRecordName position))
  | .ok name => do
      let (length, bytes) ← readBlock archive (some name) 8 bytes
      let length := LittleEndian.decode length
      if bytes.length < length then
        .error (.truncated archive (some name) length bytes.length)
      else
        pure (⟨Path.toArchive name, position + 2 + nameLength + 8, length⟩, bytes.drop length)

/-- The records of a stream, and the failure that ended the reading, if one did. -/
structure Listing where
  records : List Record
  failure : Option ExtractError
  deriving Repr, DecidableEq

/-- Reads records until the end of the stream or the first failure.  Every record takes ten bytes
at least, so as many steps as there are bytes are enough. -/
def readRecords (archive : String) : (fuel : Nat) → (position : Nat) → Bytes → Listing
  | 0, _, _ => ⟨[], none⟩
  | fuel + 1, position, bytes =>
      if bytes.isEmpty then
        ⟨[], none⟩
      else
        match readRecord archive position bytes with
        | .error failure => ⟨[], some failure⟩
        | .ok (record, rest) =>
            let listing := readRecords archive fuel (record.offset + record.length) rest
            { listing with records := record :: listing.records }

def records (source : Source) : Listing :=
  readRecords source.name source.bytes.length headerLength (source.bytes.drop headerLength)

end Btar
end GameArchive
