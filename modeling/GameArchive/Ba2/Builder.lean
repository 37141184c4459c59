import GameArchive.Ba2.Basic
import GameArchive.Text.Utf8

/-!
# Building BA2 archives

Files are written in the order of their indices: header, records, data, and the table of names
if the archive has one.
-/

namespace GameArchive
namespace Ba2

/-- A file that waits to be written. -/
structure PendingFile where
  state : FileState
  contents : Bytes
  deriving Repr, DecidableEq

/-- An archive that is being put together. -/
structure Builder where
  archive : String
  state : State
  files : List PendingFile
  deriving Repr, DecidableEq

def Builder.create (archive : String) (state : State) : Except ExtractError Builder :=
  if state.magic ≠ magicText then
    .error (.invalidFormat archive (.unknownHeaderType state.magic))
  else if Utf8.encode state.kind ≠ generalKind then
    .error (.invalidFormat archive (.unbuildableKind state.kind))
  else if !isKnownVersion state.version then
    .error (.invalidFormat archive (.unknownBa2Version state.version.toNat))
  else
    .ok ⟨archive, state, []⟩

def Builder.add (builder : Builder) (state : FileState) (contents : Bytes) : Builder :=
  { builder with files := builder.files ++ [⟨state, contents⟩] }

def word32 (archive : String) (value : Nat) : Except ExtractError UInt32 :=
  if value < UInt32.size then .ok (UInt32.ofNat value)
  else .error (.invalidFormat archive .oversizedBa2Entry)

def extensionBytes (extension : String) : Bytes :=
  let bytes := (Utf8.encode extension).take 4
  bytes ++ Bytes.zeros (4 - bytes.length)

/-- The data of a file as they will be stored. -/
def Builder.payload [Codecs] (builder : Builder) (file : PendingFile) : Bytes :=
  if file.state.compressed then builder.state.packing.pack file.contents else file.contents

def Builder.record [Codecs] (builder : Builder) (offset : Nat) (file : PendingFile) :
    Except ExtractError Record := do
  let unpackedSize ← word32 builder.archive file.contents.length
  let packedSize ←
    if file.state.compressed then word32 builder.archive (builder.payload file).length else pure 0
  pure {
    nameHash := file.state.nameHash
    extension := extensionBytes file.state.extension
    dirHash := file.state.dirHash
    flags := file.state.flags
    offset := UInt64.ofNat offset
    packedSize, unpackedSize
    align := file.state.align }

/-- The records of some files, and where the data of the last of them end. -/
def Builder.records [Codecs] (builder : Builder) :
    (offset : Nat) → List PendingFile → Except ExtractError (Bytes × Nat)
  | offset, [] => .ok ([], offset)
  | offset, file :: files => do
      let record ← builder.record offset file
      let (records, dataEnd) ←
        builder.records (offset + (builder.payload file).length) files
      pure (record.write ++ records, dataEnd)

def Builder.sortedFiles (builder : Builder) : List PendingFile :=
  builder.files.mergeSort fun first second => first.state.index ≤ second.state.index

def Builder.extras (builder : Builder) : Bytes :=
  let words := Bytes.ofWord32 builder.state.extra1 ++ Bytes.ofWord32 builder.state.extra2
  if builder.state.version = 2 then words
  else if builder.state.version = 3 then words ++ Bytes.ofWord32 builder.state.compression
  else []

def Builder.name (builder : Builder) (file : PendingFile) : Except ExtractError Bytes :=
  let name := encoding.encode file.state.path
  if name.length < UInt16.size then .ok (LittleEndian.encode 2 name.length ++ name)
  else .error (.invalidFormat builder.archive (.longPath file.state.path))

def Builder.build [Codecs] (builder : Builder) : Except ExtractError Bytes := do
  let files := builder.sortedFiles
  let dataStart := headerLength builder.state.version + recordLength * files.length
  let (records, dataEnd) ← builder.records dataStart files
  let fileCount ← word32 builder.archive files.length
  let nameTableOffset := if builder.state.hasNameTable then dataEnd else 0
  let names ← if builder.state.hasNameTable then files.mapM builder.name else pure []
  pure (magic ++ Bytes.ofWord32 builder.state.version ++ generalKind ++
    Bytes.ofWord32 fileCount ++ Bytes.ofWord64 (UInt64.ofNat nameTableOffset) ++
    builder.extras ++ records ++ files.flatMap builder.payload ++ names.flatten)

end Ba2
end GameArchive
