import GameArchive.Codec.Compression
import GameArchive.Reading
import GameArchive.Text.PrefixedName

/-!
# Archives of the TES4 family

The archives of Oblivion, Fallout 3, New Vegas and Skyrim share one layout: a header, folder
records, file records by folder, an optional block of file names, and the data of the entries.
This module holds what the header and the records say.
-/

namespace GameArchive
namespace Tes4

inductive Version where
  /-- Oblivion. -/
  | tes4
  /-- Fallout 3, New Vegas and the first Skyrim. -/
  | fo3
  /-- Skyrim Special Edition. -/
  | sse
  deriving Repr, DecidableEq

namespace Version

def number : Version → UInt32
  | tes4 => 0x67
  | fo3 => 0x68
  | sse => 0x69

def ofNumber? (number : UInt32) : Option Version :=
  if number = 0x67 then some tes4
  else if number = 0x68 then some fo3
  else if number = 0x69 then some sse
  else none

def compression : Version → Compression
  | sse => .lz4Frame
  | tes4 | fo3 => .zlib

def folderRecordLength : Version → Nat
  | sse => 24
  | tes4 | fo3 => 16

def encoding : Version → Encoding
  | fo3 => .utf8
  | tes4 | sse => .windows1252

end Version

def magicText : String := "BSA\x00"

def magic : Bytes := [0x42, 0x53, 0x41, 0x00]

def headerLength : Nat := 0x24

def fileRecordLength : Nat := 16

/-- The bit of a size field that turns the default compression around. -/
def flipBit : Nat := 0x40000000

structure Flags where
  bits : UInt32
  deriving Repr, DecidableEq

namespace Flags

def contains (flags : Flags) (bit : UInt32) : Bool :=
  flags.bits &&& bit != 0

def hasFolderNames (flags : Flags) : Bool :=
  flags.contains 0x1

def hasFileNames (flags : Flags) : Bool :=
  flags.contains 0x2

/-- Whether entries are compressed unless their size field says otherwise. -/
def compressedByDefault (flags : Flags) : Bool :=
  flags.contains 0x4

/-- Whether every entry begins with its path. -/
def hasNameBlobs (flags : Flags) (version : Version) : Bool :=
  version != .tes4 && flags.contains 0x100

end Flags

structure State where
  magic : String
  version : Version
  archiveFlags : UInt32
  fileFlags : UInt32
  deriving Repr, DecidableEq

/-- What is needed to write an entry again. -/
structure FileState where
  path : String
  /-- The position within the folder. -/
  index : Nat
  /-- Whether the size field turns the default compression around. -/
  flipCompression : Bool
  deriving Repr, DecidableEq

structure Header where
  version : Version
  folderRecordOffset : UInt32
  archiveFlags : Flags
  folderCount : UInt32
  fileCount : UInt32
  folderNamesLength : UInt32
  fileNamesLength : UInt32
  fileFlags : UInt32
  deriving Repr, DecidableEq

namespace Header

/-- Whether every entry begins with its path. -/
def hasNameBlobs (header : Header) : Bool :=
  header.archiveFlags.hasNameBlobs header.version

def write (header : Header) : Bytes :=
  magic ++ Bytes.ofWord32 header.version.number ++ Bytes.ofWord32 header.folderRecordOffset ++
    Bytes.ofWord32 header.archiveFlags.bits ++ Bytes.ofWord32 header.folderCount ++
    Bytes.ofWord32 header.fileCount ++ Bytes.ofWord32 header.folderNamesLength ++
    Bytes.ofWord32 header.fileNamesLength ++ Bytes.ofWord32 header.fileFlags

end Header

/-- A file record and where it stands. -/
structure FileRecord where
  hash : UInt64
  /-- The size of the data on disk, with the flip bit. -/
  sizeField : UInt32
  offset : UInt32
  /-- The position within the folder. -/
  index : Nat
  /-- The position within the archive. -/
  overallIndex : Nat
  path : String
  deriving Repr, DecidableEq

namespace FileRecord

/-- Whether the size field turns the default compression around. -/
def flipCompression (file : FileRecord) : Bool :=
  file.sizeField.toNat.testBit 30

/-- The size of the data on disk. -/
def dataLength (file : FileRecord) : Nat :=
  if file.flipCompression then file.sizeField.toNat - flipBit else file.sizeField.toNat

def dataEnd (file : FileRecord) : Nat :=
  file.offset.toNat + file.dataLength

def state (file : FileRecord) : FileState where
  path := file.path
  index := file.index
  flipCompression := file.flipCompression

end FileRecord

structure Folder where
  hash : UInt64
  fileCount : UInt32
  offset : UInt64
  name : Option String
  files : List FileRecord
  deriving Repr, DecidableEq

end Tes4
end GameArchive
