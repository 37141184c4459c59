import GameArchive.Codec.Inflate
import GameArchive.Zip.Directory

/-!
# Contents of zip entries

Entries are stored or deflated, and each has a checksum, which is looked at when its end is
reached.  The directory tells where the local header of an entry stands, and only the length of
that header counts.
-/

namespace GameArchive
namespace Zip

def localSignature : Bytes := [0x50, 0x4B, 0x03, 0x04]

/-- The length of a local header without its variable fields. -/
def localLength : Nat := 30

/-- The greatest position in a file. -/
def maximumPosition : Nat := 0x7FFFFFFFFFFFFFFF

/-- The number of bytes of a deflated entry that the decoder sees at a time. -/
def pieceSize : Nat := 8 * 1024

/-- The numbers of the packing methods that are known.  Only entries that are stored or deflated can
be read, but an entry of any known method can be locked. -/
def knownMethods : List Nat := [0, 8, 9, 12, 14, 93, 95, 98, describedMethod]

/-- The delivery of some contents, whose checksum is looked at when none of them is missing. -/
def checked (crc : Nat) (delivery : Delivery) : Delivery :=
  match delivery.ending with
  | .finished =>
      if (Crc32.checksum delivery.bytes).toNat = crc then delivery
      else { delivery with ending := .rejected }
  | _ => delivery

namespace Container

/-- The entry with a name; the last one of several. -/
def entryNamed? (container : Container) (name : String) : Option Entry :=
  container.entries.reverse.find? fun entry => entry.name = name

/-- The first entry of a container, or the last one with its name. -/
def firstEntry? (container : Container) : Option Entry :=
  container.entries.head?.bind fun entry => container.entryNamed? entry.name

def packed (container : Container) (entry : Entry) : Except Fault Bytes :=
  let header := container.bytes.drop entry.offset
  if maximumPosition < entry.offset then
    .error .outOfReach
  else if isRecord localSignature localLength header then
    let start := localLength + fieldAt header 26 2 + fieldAt header 28 2
    .ok (Bytes.window header start entry.packedLength)
  else
    .error .malformed

def deliver (container : Container) (entry : Entry) : Except Fault Delivery := do
  if entry.isEncrypted then
    throw .unsupported
  let packed ← container.packed entry
  if !knownMethods.contains entry.method then
    throw .unsupported
  if entry.isLocked then
    throw .locked
  match entry.method with
  | 0 => pure (checked entry.crc (.ready packed))
  | 8 => pure (checked entry.crc (Inflate.decode pieceSize packed))
  | _ => throw .unsupported

end Container
end Zip
end GameArchive
