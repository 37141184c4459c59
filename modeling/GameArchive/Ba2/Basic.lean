import GameArchive.Codec.Compression
import GameArchive.Reading
import GameArchive.Text.Encoding

/-!
# BA2 archives

The archives of Fallout 4, Fallout 76 and Starfield.  Only general archives are handled; texture
archives keep their data in chunks.  After the header come records of equal length, the data,
and a table of names, whose offset in the header is zero when there is none.  Versions 2 and 3
add words to the header.
-/

namespace GameArchive
namespace Ba2

def magicText : String := "BTDX"

def magic : Bytes := [0x42, 0x54, 0x44, 0x58]

def generalKind : Bytes := [0x47, 0x4E, 0x52, 0x4C]

def textureKinds : List Bytes := [[0x44, 0x58, 0x31, 0x30], [0x47, 0x4E, 0x4D, 0x46]]

def recordLength : Nat := 36

def encoding : Encoding := .windows1252

/-- What is needed to write the header of an archive again. -/
structure State where
  version : UInt32
  magic : String
  kind : String
  hasNameTable : Bool
  /-- The first extra word of versions 2 and 3. -/
  extra1 : UInt32
  /-- The second extra word of versions 2 and 3. -/
  extra2 : UInt32
  /-- The compression number of version 3. -/
  compression : UInt32
  deriving Repr, DecidableEq

/-- What is needed to write an entry again. -/
structure FileState where
  path : String
  index : Nat
  nameHash : UInt32
  extension : String
  dirHash : UInt32
  flags : UInt32
  align : UInt32
  compressed : Bool
  deriving Repr, DecidableEq

def isKnownVersion (version : UInt32) : Bool :=
  version == 1 || version == 2 || version == 3 || version == 7 || version == 8

def headerLength (version : UInt32) : Nat :=
  if version = 2 then 32 else if version = 3 then 36 else 24

/-- How compressed entries are packed: by LZ4 if version 3 says so, else by zlib. -/
def State.packing (state : State) : Compression :=
  if state.version = 3 ∧ state.compression = 3 then .lz4Block else .zlib

structure Record where
  nameHash : UInt32
  /-- Four bytes. -/
  extension : Bytes
  dirHash : UInt32
  flags : UInt32
  offset : UInt64
  /-- Zero for an entry that is not compressed. -/
  packedSize : UInt32
  unpackedSize : UInt32
  align : UInt32
  deriving Repr, DecidableEq

namespace Record

def ofBytes (bytes : Bytes) : Record where
  nameHash := UInt32.ofNat (LittleEndian.decode (bytes.window 0 4))
  extension := bytes.window 4 4
  dirHash := UInt32.ofNat (LittleEndian.decode (bytes.window 8 4))
  flags := UInt32.ofNat (LittleEndian.decode (bytes.window 12 4))
  offset := UInt64.ofNat (LittleEndian.decode (bytes.window 16 8))
  packedSize := UInt32.ofNat (LittleEndian.decode (bytes.window 24 4))
  unpackedSize := UInt32.ofNat (LittleEndian.decode (bytes.window 28 4))
  align := UInt32.ofNat (LittleEndian.decode (bytes.window 32 4))

def write (record : Record) : Bytes :=
  Bytes.ofWord32 record.nameHash ++ record.extension ++ Bytes.ofWord32 record.dirHash ++
    Bytes.ofWord32 record.flags ++ Bytes.ofWord64 record.offset ++
    Bytes.ofWord32 record.packedSize ++ Bytes.ofWord32 record.unpackedSize ++
    Bytes.ofWord32 record.align

def onDisk (record : Record) : Nat :=
  if record.packedSize = 0 then record.unpackedSize.toNat else record.packedSize.toNat

end Record
end Ba2
end GameArchive
