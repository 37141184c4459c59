import GameArchive.Tes3.Basic

/-!
# Reading Morrowind archives

The whole directory is read on opening.  A name ends at the first zero byte after its offset,
and every entry must lie inside the archive.
-/

namespace GameArchive
namespace Tes3

structure Archive where
  source : Source
  state : State
  files : List FileState
  deriving Repr, DecidableEq

/-- The header with the tables of fixed shape. -/
structure Tables where
  versionNumber : UInt32
  hashOffset : UInt32
  fileCount : UInt32
  records : Bytes
  nameOffsets : Bytes
  rest : Bytes
  deriving Repr, DecidableEq

def Tables.read? (bytes : Bytes) : Option Tables := do
  let (versionNumber, bytes) ← Bytes.word32? bytes
  let (hashOffset, bytes) ← Bytes.word32? bytes
  let (fileCount, bytes) ← Bytes.word32? bytes
  let (records, bytes) ← Bytes.split? (8 * fileCount.toNat) bytes
  let (nameOffsets, rest) ← Bytes.split? (4 * fileCount.toNat) bytes
  pure { versionNumber, hashOffset, fileCount, records, nameOffsets, rest }

def tableWord (table : Bytes) (index : Nat) : UInt32 :=
  UInt32.ofNat (LittleEndian.decode (table.window (4 * index) 4))

def nameAt (archive : String) (names : Bytes) (offset : UInt32) : Except ExtractError String :=
  if names.length < offset.toNat then
    .error (.invalidFormat archive (.nameOffsetOutOfRange offset.toNat))
  else
    .ok (encoding.decode ((names.drop offset.toNat).takeWhile (· != 0)))

def readFile (source : Source) (dataOffset : Nat) (tables : Tables) (names hashes : Bytes)
    (index : Nat) : Except ExtractError FileState := do
  let size := tableWord tables.records (2 * index)
  let offset := tableWord tables.records (2 * index + 1)
  let nameOffset := tableWord tables.nameOffsets index
  let path ← nameAt source.name names nameOffset
  if source.bytes.length < dataOffset + offset.toNat + size.toNat then
    .error (.invalidFormat source.name (.entryBeyondEnd path))
  else
    .ok {
      path, index, size, offset, nameOffset
      hash1 := tableWord hashes (2 * index)
      hash2 := tableWord hashes (2 * index + 1) }

def readFiles (source : Source) (dataOffset : Nat) (tables : Tables) (names hashes : Bytes) :
    (count : Nat) → (index : Nat) → Except ExtractError (List FileState)
  | 0, _ => .ok []
  | count + 1, index => do
      let file ← readFile source dataOffset tables names hashes index
      let files ← readFiles source dataOffset tables names hashes count (index + 1)
      pure (file :: files)

def Archive.open (source : Source) : Except ExtractError Archive :=
  match Tables.read? source.bytes with
  | none => .error (.invalidFormat source.name .truncatedHeader)
  | some tables =>
      if tables.versionNumber ≠ versionNumber then
        .error (.invalidFormat source.name (.unknownTes3Version tables.versionNumber.toNat))
      else
        let count := tables.fileCount.toNat
        let namesStart := headerLength + 12 * count
        let hashTable := headerLength + tables.hashOffset.toNat
        if hashTable < namesStart then
          .error (.invalidFormat source.name .overlappingHashTable)
        else do
          let (names, bytes) ← readBlock source.name none (hashTable - namesStart) tables.rest
          let (hashes, _) ← readBlock source.name none (8 * count) bytes
          let dataOffset := hashTable + 8 * count
          let files ← readFiles source dataOffset tables names hashes count 0
          pure {
            source
            state := {
              versionNumber := tables.versionNumber
              fileCount := tables.fileCount
              dataOffset := UInt64.ofNat dataOffset
              hashOffset := tables.hashOffset }
            files }

def Archive.contents (archive : Archive) (file : FileState) : Except ExtractError Bytes := do
  let start := archive.state.dataOffset.toNat + file.offset.toNat
  let (contents, _) ← readBlock archive.source.name (some file.path) file.size.toNat
    (archive.source.bytes.drop start)
  pure contents

end Tes3
end GameArchive
