import GameArchive.Btar.Reader

/-!
# Writing BTAR streams

A record announces the length of its data before the data are read.  Data that turn out to be
shorter make the record fail, but what was written of it stays.
-/

namespace GameArchive
namespace Btar

structure Writer where
  bytes : Bytes
  /-- The number of records that were written in full. -/
  count : Nat
  deriving Repr, DecidableEq

namespace Writer

def start : Writer where
  bytes := magic ++ LittleEndian.encode 2 majorVersion ++
    LittleEndian.encode 2 greatestMinorVersion
  count := 0

/-- The start of a record up to its data. -/
def recordHead (name : Bytes) (length : Nat) : Bytes :=
  LittleEndian.encode 2 name.length ++ name ++ LittleEndian.encode 8 length

/-- Appends a record of `length` bytes from `data`, and tells whether that failed. -/
def add (writer : Writer) (name : String) (length : Nat) (data : Bytes) :
    Writer × Option IoError :=
  let name := Path.toArchive name
  let nameBytes := Utf8.encode name
  if UInt16.size ≤ nameBytes.length then
    (writer, some (.longRecordName name))
  else
    let copied := data.take length
    let bytes := writer.bytes ++ recordHead nameBytes length ++ copied
    if copied.length = length then
      (⟨bytes, writer.count + 1⟩, none)
    else
      (⟨bytes, writer.count⟩, some (.shortRecord name length copied.length))

end Writer
end Btar
end GameArchive
