import GameArchive.Digest.Checksums
import GameArchive.Text.Utf8
import GameArchive.Zip.Basic

/-!
# Extra fields of zip entries

The directory may say more about an entry than its fixed fields hold, in extra fields of a kind
and a length.  Some of them replace sizes, names or the packing method; others are only checked.
A field of an unknown kind is passed over.
-/

namespace GameArchive
namespace Zip

/-- A reader of the extra fields of an entry. -/
abbrev FieldReader := StateT Bytes (Except Fault)

namespace FieldReader

/-- Takes `count` bytes; `fault` is what it means that they are not there. -/
def take (fault : Fault) (count : Nat) : FieldReader Bytes := fun bytes =>
  match bytes.split? count with
  | some cut => .ok cut
  | none => .error fault

/-- Reads a number of `width` bytes; `fault` is what it means that they are not there. -/
def numberOr (fault : Fault) (width : Nat) : FieldReader Nat :=
  LittleEndian.decode <$> take fault width

def number (width : Nat) : FieldReader Nat :=
  numberOr .shortField width

def require (condition : Bool) (fault : Fault) : FieldReader Unit :=
  if condition then pure () else throw fault

end FieldReader

namespace ExtraField

def allSizesLength : Nat := 24

/-- A size of the directory, which a field of the given length may replace by eight of its last
`room` bytes; gives the size and the room that is left. -/
def wideSize (length room size : Nat) : FieldReader (Nat × Nat) :=
  if allSizesLength ≤ length || size == fullWord32 then do
    FieldReader.require (8 ≤ room) .malformed
    let size ← FieldReader.numberOr .malformed 8
    pure (size, room - 8)
  else
    pure (size, room)

/-- Reads the sizes and the position that have no room in the directory. -/
def wideSizes (length : Nat) (entry : Entry) : FieldReader Entry := do
  let (unpackedLength, room) ← wideSize length length entry.unpackedLength
  let (packedLength, room) ← wideSize length room entry.packedLength
  let (offset, room) ← wideSize length room entry.offset
  let _ ← FieldReader.take .malformed room
  pure { entry with unpackedLength, packedLength, offset }

/-- Checks a field of times in the notation of NTFS. -/
def preciseTimes (length : Nat) : FieldReader Unit := do
  FieldReader.require (length == 32) .unsupported
  let _ ← FieldReader.number 4
  let tag ← FieldReader.number 2
  FieldReader.require (tag == 1) .unsupported
  let size ← FieldReader.number 2
  FieldReader.require (size == 24) .unsupported
  let _ ← FieldReader.take .shortField 24

def bitCount (byte : Nat) : Nat :=
  (List.range 8).countP fun index => byte.testBit index

/-- Checks a field of times in seconds.  Its first byte tells which times follow, and the length
has to fit, except that a single time may always stand alone. -/
def times (length : Nat) : FieldReader Unit := do
  FieldReader.require (length != 0) .malformed
  let flags ← FieldReader.number 1
  FieldReader.require (length == 5 || length == 1 + 4 * bitCount flags) .shortField
  let _ ← FieldReader.take .shortField (length - 1)

def encryption (length : Nat) (entry : Entry) : FieldReader Entry := do
  FieldReader.require (length == 7) .unsupported
  let version ← FieldReader.number 2
  let vendor ← FieldReader.number 2
  let strength ← FieldReader.number 1
  let method ← FieldReader.number 2
  FieldReader.require (vendor == 0x4541) .malformed
  FieldReader.require (version == 1 || version == 2) .malformed
  FieldReader.require (1 ≤ strength && strength ≤ 3) .malformed
  pure { entry with isLocked := true, method }

/-- Reads a text that replaces another one, whose checksum it holds. -/
def replacement (length : Nat) (replaced : Bytes) : FieldReader (Bytes × String) := do
  let _ ← FieldReader.number 1
  let crc ← FieldReader.number 4
  FieldReader.require (5 ≤ length) .malformed
  let text ← FieldReader.take .shortField (length - 5)
  FieldReader.require ((Crc32.checksum replaced).toNat == crc) .malformed
  match Utf8.decode text with
  | .ok decoded => pure (text, decoded)
  | .error _ => throw .malformed

def contents (kind length : Nat) (entry : Entry) : FieldReader Entry :=
  match kind with
  | 0x0001 => wideSizes length entry
  | 0x000A => do
      preciseTimes length
      pure entry
  | 0x5455 => do
      times length
      pure entry
  | 0x9901 => encryption length entry
  | 0x6375 => do
      let (_, comment) ← replacement length (Utf8.encode entry.comment)
      pure { entry with comment }
  | 0x7075 => do
      let (rawName, name) ← replacement length entry.rawName
      pure { entry with rawName, name }
  | _ => do
      let _ ← FieldReader.take .malformed length
      pure entry

/-- The entry after all its fields.  A field takes four bytes at least, so as many steps as there
are bytes are enough; a single byte at the end belongs to no field. -/
def applyWithin : (fuel : Nat) → Entry → Bytes → Except Fault Entry
  | 0, entry, _ => .ok entry
  | fuel + 1, entry, bytes =>
      if bytes.length < 2 then
        .ok entry
      else do
        let field : FieldReader Entry := do
          let kind ← FieldReader.number 2
          let length ← FieldReader.take .malformed 2
          contents kind (LittleEndian.decode length) entry
        let (entry, rest) ← field.run bytes
        applyWithin fuel entry rest

def apply (entry : Entry) (bytes : Bytes) : Except Fault Entry :=
  applyWithin bytes.length entry bytes

end ExtraField
end Zip
end GameArchive
