import GameArchive.Text.CodePage437
import GameArchive.Zip.ExtraField

/-!
# Directories of zip containers

The directory of a container stands before a record that ends it, and that record tells where.
Other bytes may stand before the container; all its positions are then short by their number,
which shows in the distance between where the directory should be and where it is.  A container
with great numbers has a second, wider end record, which a locator just before the first one
points at.

Bytes that look like an end record need not be one.  The candidates are tried from the last one
back, and the first whose directory can be read counts.
-/

namespace GameArchive
namespace Zip

def endSignature : Bytes := [0x50, 0x4B, 0x05, 0x06]

def wideEndSignature : Bytes := [0x50, 0x4B, 0x06, 0x06]

def locatorSignature : Bytes := [0x50, 0x4B, 0x06, 0x07]

def directorySignature : Bytes := [0x50, 0x4B, 0x01, 0x02]

/-- The length of the end record without its comment. -/
def endLength : Nat := 22

/-- The length of the wider end record without what may be added to it. -/
def wideEndLength : Nat := 56

def locatorLength : Nat := 20

/-- The length of an entry of the directory without its variable fields. -/
def directoryLength : Nat := 46

/-- Where a directory stands and what it holds, as the end records tell. -/
structure Directory where
  start : Nat
  count : Nat
  /-- The number of bytes before the container. -/
  shift : Nat
  /-- Whether the end record and the directory are in different parts of a split container. -/
  isSplit : Bool
  /-- Whether this part of the container holds no more entries than the whole. -/
  isConsistent : Bool
  deriving Repr, DecidableEq

/-- The positions at which a signature stands, the first byte counted as `position`. -/
def positionsFrom (signature : Bytes) : (position : Nat) → Bytes → List Nat
  | _, [] => []
  | position, byte :: rest =>
      if signature.isPrefixOf (byte :: rest) then
        position :: positionsFrom signature (position + 1) rest
      else
        positionsFrom signature (position + 1) rest

/-- The positions between two bounds at which a signature stands in full. -/
def positionsBetween (signature bytes : Bytes) (first last : Nat) : List Nat :=
  positionsFrom signature first (bytes.window first (last - first))

/-- The directory that an end record describes on its own. -/
def Directory.ofEnd? (bytes record : Bytes) (position : Nat) : Option Directory :=
  let offset := fieldAt record 16 4
  let describe := fun (start : Nat) => {
    start
    count := fieldAt record 8 2
    shift := start - offset
    isSplit := fieldAt record 4 2 != fieldAt record 6 2
    isConsistent := true : Directory }
  if fieldAt record 10 2 = 0 then
    some (describe (max offset position))
  else
    (positionsBetween directorySignature bytes offset position).head?.map describe

/-- The directory that the wider end record at a position describes, where the locator, which
stands at `locatorPosition`, expects that record at `expected` and the directory in `part`. -/
def Directory.ofWideEnd? (bytes : Bytes) (locatorPosition expected part position : Nat) :
    Option Directory :=
  let record := bytes.drop position
  let count := fieldAt record 32 8
  let offset := fieldAt record 48 8
  if isRecord wideEndSignature wideEndLength record ∧
      wideEndLength ≤ fieldAt record 4 8 + 12 ∧
      fieldAt record 4 8 + 12 = locatorPosition - position ∧
      fieldAt record 20 4 = part ∧
      count * directoryLength + offset ≤ position then
    let shift := position - expected
    some {
      start := offset + shift
      count, shift
      isSplit := fieldAt record 16 4 != part
      isConsistent := fieldAt record 24 8 ≤ count }
  else
    none

def Directory.ofLocator? (bytes locator : Bytes) (position : Nat) : Option Directory :=
  let expected := fieldAt locator 8 8
  if 1 < fieldAt locator 16 4 then
    none
  else
    (positionsBetween wideEndSignature bytes expected position).findSome?
      (ofWideEnd? bytes position expected (fieldAt locator 4 4))

/-- The directory that the end record at a position leads to, if it is one. -/
def Directory.locate? (bytes : Bytes) (position : Nat) : Option Directory :=
  let record := bytes.drop position
  if record.length < endLength ∨ record.length < endLength + fieldAt record 20 2 then
    none
  else
    let isFull := fieldAt record 10 2 == fullWord16 || fieldAt record 16 4 == fullWord32
    let locatorPosition := position - locatorLength
    let locator := bytes.drop locatorPosition
    if isFull && locatorLength ≤ position && isRecord locatorSignature locatorLength locator then
      ofLocator? bytes locator locatorPosition
    else
      ofEnd? bytes record position

/-- The text of a name or a comment, which the flags of the entry say how to read. -/
def decodeText (flags : Nat) (text : Bytes) : String :=
  if flags.testBit 11 then Utf8.decodeReplacing text else CodePage437.decode text

/-- The method of an entry that is described by an extra field. -/
def describedMethod : Nat := 99

def readEntry (shift : Nat) (bytes : Bytes) : Except Fault (Entry × Bytes) :=
  let flags := fieldAt bytes 8 2
  let nameLength := fieldAt bytes 28 2
  let extraLength := fieldAt bytes 30 2
  let commentLength := fieldAt bytes 32 2
  let length := directoryLength + nameLength + extraLength + commentLength
  if isRecord directorySignature length bytes then do
    let rawName := bytes.window directoryLength nameLength
    let extra := bytes.window (directoryLength + nameLength) extraLength
    let comment := bytes.window (directoryLength + nameLength + extraLength) commentLength
    let entry ← ExtraField.apply {
      rawName
      name := decodeText flags rawName
      comment := decodeText flags comment
      isEncrypted := flags.testBit 0
      isLocked := false
      method := fieldAt bytes 10 2
      crc := fieldAt bytes 16 4
      packedLength := fieldAt bytes 20 4
      unpackedLength := fieldAt bytes 24 4
      offset := fieldAt bytes 42 4 } extra
    if entry.method = describedMethod ∧ !entry.isLocked ∨ UInt64.size ≤ entry.offset + shift then
      .error .malformed
    else
      pure ({ entry with offset := entry.offset + shift }, bytes.drop length)
  else
    .error .malformed

def readEntries (shift : Nat) : (count : Nat) → Bytes → Except Fault (List Entry)
  | 0, _ => .ok []
  | count + 1, bytes => do
      let (entry, rest) ← readEntry shift bytes
      let entries ← readEntries shift count rest
      pure (entry :: entries)

def Directory.read (bytes : Bytes) (directory : Directory) : Except Fault (List Entry) :=
  if !directory.isConsistent then .error .malformed
  else if directory.isSplit then .error .unsupported
  else readEntries directory.shift directory.count (bytes.drop directory.start)

/-- Opens a container by the first candidate for its end record that leads to a readable
directory.  Without one, the fault of the last directory that was tried counts. -/
def openByEnds (bytes : Bytes) (fault : Fault) : List Nat → Except Fault Container
  | [] => .error fault
  | position :: positions =>
      match Directory.locate? bytes position with
      | none => openByEnds bytes fault positions
      | some directory =>
          match directory.read bytes with
          | .ok entries => .ok ⟨bytes, entries⟩
          | .error fault => openByEnds bytes fault positions

def Container.ofBytes (bytes : Bytes) : Except Fault Container :=
  openByEnds bytes .malformed (positionsFrom endSignature 0 bytes).reverse

end Zip
end GameArchive
