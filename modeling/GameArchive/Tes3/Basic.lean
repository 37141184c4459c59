import GameArchive.Reading
import GameArchive.Text.Encoding

/-!
# Morrowind archives

A Morrowind archive has neither folders nor compression.  Its directory is a table of sizes and
offsets, a table of name offsets, a block of names and a table of hashes; the data follow.
Offsets of data count from the end of the directory, and the offset of the hash table counts
from the end of the first three header words.
-/

namespace GameArchive
namespace Tes3

def versionNumber : UInt32 := 0x100

/-- The magic number of an archive, which is its version number. -/
def magic : Bytes := [0x00, 0x01, 0x00, 0x00]

def headerLength : Nat := 12

def encoding : Encoding := .windows1252

/-- What is needed to write the header of an archive again, with what else it says. -/
structure State where
  versionNumber : UInt32
  fileCount : UInt32
  dataOffset : UInt64
  hashOffset : UInt32
  deriving Repr, DecidableEq

/-- What is needed to write an entry again, with what else its records say. -/
structure FileState where
  path : String
  index : Nat
  size : UInt32
  offset : UInt32
  nameOffset : UInt32
  hash1 : UInt32
  hash2 : UInt32
  deriving Repr, DecidableEq

end Tes3
end GameArchive
