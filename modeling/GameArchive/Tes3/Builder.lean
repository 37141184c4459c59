import GameArchive.Tes3.Basic

/-!
# Building Morrowind archives

Files are written in the order of their indices, with the hashes of their states; sizes and
offsets are computed anew.
-/

namespace GameArchive
namespace Tes3

structure PendingFile where
  state : FileState
  contents : Bytes
  deriving Repr, DecidableEq

structure Builder where
  archive : String
  versionNumber : UInt32
  files : List PendingFile
  deriving Repr, DecidableEq

def Builder.create (archive : String) (state : State) : Builder :=
  ⟨archive, state.versionNumber, []⟩

def Builder.add (builder : Builder) (state : FileState) (contents : Bytes) : Builder :=
  { builder with files := builder.files ++ [⟨state, contents⟩] }

def word32 (archive : String) (value : Nat) : Except ExtractError UInt32 :=
  if value < UInt32.size then .ok (UInt32.ofNat value)
  else .error (.invalidFormat archive .oversizedBsa)

def PendingFile.name (file : PendingFile) : Bytes :=
  encoding.encode file.state.path ++ [0]

def PendingFile.hashes (file : PendingFile) : Bytes :=
  Bytes.ofWord32 file.state.hash1 ++ Bytes.ofWord32 file.state.hash2

/-- The record and the name offset of a file whose data and name begin at the given offsets. -/
def PendingFile.entry (archive : String) (dataOffset nameOffset : Nat) (file : PendingFile) :
    Except ExtractError (Bytes × Bytes) := do
  let nameOffset ← word32 archive nameOffset
  let size ← word32 archive file.contents.length
  let offset ← word32 archive dataOffset
  pure (Bytes.ofWord32 size ++ Bytes.ofWord32 offset, Bytes.ofWord32 nameOffset)

def entries (archive : String) :
    (dataOffset nameOffset : Nat) → List PendingFile → Except ExtractError (Bytes × Bytes)
  | _, _, [] => .ok ([], [])
  | dataOffset, nameOffset, file :: files => do
      let (record, offset) ← file.entry archive dataOffset nameOffset
      let (records, offsets) ←
        entries archive (dataOffset + file.contents.length) (nameOffset + file.name.length) files
      pure (record ++ records, offset ++ offsets)

def Builder.sortedFiles (builder : Builder) : List PendingFile :=
  builder.files.mergeSort fun first second => first.state.index ≤ second.state.index

def Builder.build (builder : Builder) : Except ExtractError Bytes := do
  let files := builder.sortedFiles
  let (records, nameOffsets) ← entries builder.archive 0 0 files
  let names := files.flatMap PendingFile.name
  let hashOffset ← word32 builder.archive (12 * files.length + names.length)
  let fileCount ← word32 builder.archive files.length
  pure (Bytes.ofWord32 builder.versionNumber ++ Bytes.ofWord32 hashOffset ++
    Bytes.ofWord32 fileCount ++ records ++ nameOffsets ++ names ++
    files.flatMap PendingFile.hashes ++ files.flatMap PendingFile.contents)

end Tes3
end GameArchive
