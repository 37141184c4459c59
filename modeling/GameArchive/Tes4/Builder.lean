import GameArchive.Tes4.Basic
import GameArchive.Tes4.NameHash

/-!
# Building archives of the TES4 family

Files are put into folders by the part of their path before the last separator; folders whose
names differ only in case are one folder, spelled as in its first file.  Folders are ordered by
the hash of their names and the files of a folder by the hash of theirs, because the records are
searched by hash; two files of one folder with the same hash cannot both be found, so they are
refused.

All offsets are computed before anything is written.  The offset in a folder record is where the
block of the folder begins, plus the length of the block of file names.
-/

namespace GameArchive
namespace Tes4

structure PendingFile where
  path : String
  name : String
  hash : UInt64
  /-- The contents as they will be stored. -/
  payload : Bytes
  unpackedLength : Nat
  compressed : Bool
  flipCompression : Bool
  deriving Repr, DecidableEq

structure Builder where
  archive : String
  version : Version
  flags : Flags
  fileFlags : UInt32
  files : List PendingFile
  deriving Repr, DecidableEq

def Builder.create (archive : String) (state : State) : Except ExtractError Builder :=
  if state.magic = magicText then
    .ok ⟨archive, state.version, ⟨state.archiveFlags⟩, state.fileFlags, []⟩
  else
    .error (.invalidFormat archive (.unbuildableMagic state.magic))

/-- The file with a given state and contents, packed if its state says so. -/
def Builder.pend [Codecs] (builder : Builder) (state : FileState) (contents : Bytes) :
    PendingFile :=
  let path := Path.toArchive state.path
  let name := Path.leaf path
  let compressed := state.flipCompression != builder.flags.compressedByDefault
  { path
    name
    hash := fileHash name
    payload := if compressed then builder.version.compression.pack contents else contents
    unpackedLength := contents.length
    compressed
    flipCompression := state.flipCompression }

def Builder.add [Codecs] (builder : Builder) (state : FileState) (contents : Bytes) : Builder :=
  { builder with files := builder.files ++ [builder.pend state contents] }

structure Group where
  /-- The lower-case name, which is the same for all files. -/
  key : String
  hash : UInt64
  /-- The name as it will be stored. -/
  nameBytes : Bytes
  files : List PendingFile
  deriving Repr, DecidableEq

def PendingFile.folder (file : PendingFile) : String :=
  (Path.parent? file.path).getD ""

def Group.start (archive : String) (encoding : Encoding) (file : PendingFile) :
    Except ExtractError Group :=
  match PrefixedName.writeTerminated (encoding.encode file.folder) with
  | .error cause => .error (.io archive cause)
  | .ok nameBytes =>
      .ok ⟨Lowercase.text file.folder, folderHash file.folder, nameBytes, [file]⟩

/-- Puts a file into the group of its folder, which is added at the end if there is none. -/
def Group.insert (archive : String) (encoding : Encoding) (file : PendingFile) :
    List Group → Except ExtractError (List Group)
  | [] => do
      let group ← Group.start archive encoding file
      pure [group]
  | group :: groups =>
      if group.key = Lowercase.text file.folder then
        .ok ({ group with files := group.files ++ [file] } :: groups)
      else do
        let groups ← Group.insert archive encoding file groups
        pure (group :: groups)

/-- The groups of some files, in the order of their first files. -/
def Builder.groups (builder : Builder) : Except ExtractError (List Group) :=
  builder.files.foldlM
    (fun groups file => Group.insert builder.archive builder.version.encoding file groups) []

/-- The first file that has the hash of the file before it. -/
def repeatedFile? : List PendingFile → Option PendingFile
  | first :: second :: rest =>
      if first.hash = second.hash then some second else repeatedFile? (second :: rest)
  | _ => none

def Group.sortFiles (group : Group) : Group :=
  { group with files := group.files.mergeSort fun first second => first.hash ≤ second.hash }

/-- Groups in the order of their hashes, with their files in the order of theirs. -/
def sortGroups (groups : List Group) : List Group :=
  (groups.mergeSort fun first second => first.hash ≤ second.hash).map Group.sortFiles

/-- Refuses groups with two files of one hash. -/
def requireDistinct (archive : String) (groups : List Group) : Except ExtractError Unit :=
  match groups.findSome? fun group => repeatedFile? group.files with
  | some file => .error (.duplicateEntry archive file.path)
  | none => .ok ()

/-- A file with the bytes that stand before its payload. -/
structure FramedFile where
  file : PendingFile
  /-- The path before the data, where paths are written. -/
  blob : Bytes
  deriving Repr, DecidableEq

/-- The number of bytes that the data of a file take. -/
def FramedFile.storedLength (framed : FramedFile) : Nat :=
  framed.file.payload.length + framed.blob.length + (if framed.file.compressed then 4 else 0)

structure FramedGroup where
  hash : UInt64
  nameBytes : Bytes
  files : List FramedFile
  deriving Repr, DecidableEq

/-- Puts the path before a file, where paths are written. -/
def Builder.frame (builder : Builder) (file : PendingFile) : Except ExtractError FramedFile :=
  if builder.flags.hasNameBlobs builder.version then
    match PrefixedName.writePlain (builder.version.encoding.encode file.path) with
    | .error cause => .error (.io builder.archive cause)
    | .ok blob => .ok ⟨file, blob⟩
  else
    .ok ⟨file, []⟩

/-- Puts the paths before the files of a group. -/
def Builder.frameGroup (builder : Builder) (group : Group) : Except ExtractError FramedGroup := do
  let files ← group.files.mapM builder.frame
  pure ⟨group.hash, group.nameBytes, files⟩

def Builder.folderName (builder : Builder) (group : FramedGroup) : Bytes :=
  if builder.flags.hasFolderNames then group.nameBytes else []

/-- The length of the block of a folder: its name and its file records. -/
def Builder.blockLength (builder : Builder) (group : FramedGroup) : Nat :=
  (builder.folderName group).length + fileRecordLength * group.files.length

def Builder.fileName (builder : Builder) (framed : FramedFile) : Bytes :=
  builder.version.encoding.encode framed.file.name ++ [0]

def Builder.fileNames (builder : Builder) (groups : List FramedGroup) : Bytes :=
  groups.flatMap fun group => group.files.flatMap builder.fileName

def word32 (archive : String) (value : Nat) : Except ExtractError UInt32 :=
  if value < UInt32.size then .ok (UInt32.ofNat value)
  else .error (.invalidFormat archive .oversizedBsa)

/-- The bytes of the folder records.  `offset` is the offset of the first one. -/
def Builder.folderRecords (builder : Builder) :
    (offset : Nat) → List FramedGroup → Except ExtractError Bytes
  | _, [] => .ok []
  | offset, group :: groups => do
      let start := Bytes.ofWord64 group.hash ++
        Bytes.ofWord32 (UInt32.ofNat group.files.length)
      let record ← match builder.version with
        | .sse => pure (start ++ Bytes.zeros 4 ++ LittleEndian.encode 8 offset)
        | .tes4 | .fo3 => do
            let offset ← word32 builder.archive offset
            pure (start ++ Bytes.ofWord32 offset)
      let records ← builder.folderRecords (offset + builder.blockLength group) groups
      pure (record ++ records)

/-- The record of a file whose data begin at `offset`. -/
def Builder.fileRecord (builder : Builder) (offset : Nat) (framed : FramedFile) :
    Except ExtractError Bytes :=
  let length := framed.storedLength
  if flipBit ≤ length then
    .error (.invalidFormat builder.archive (.oversizedBsaEntry framed.file.path))
  else do
    let offset ← word32 builder.archive offset
    let size := if framed.file.flipCompression then length + flipBit else length
    pure (Bytes.ofWord64 framed.file.hash ++ Bytes.ofWord32 (UInt32.ofNat size) ++
      Bytes.ofWord32 offset)

/-- The records of some files, and where the data after them begin. -/
def Builder.fileRecords (builder : Builder) :
    (offset : Nat) → List FramedFile → Except ExtractError (Bytes × Nat)
  | offset, [] => .ok ([], offset)
  | offset, framed :: rest => do
      let record ← builder.fileRecord offset framed
      let (records, offset) ← builder.fileRecords (offset + framed.storedLength) rest
      pure (record ++ records, offset)

/-- The blocks of some folders.  `offset` is where the data of the first file begin. -/
def Builder.folderBlocks (builder : Builder) :
    (offset : Nat) → List FramedGroup → Except ExtractError Bytes
  | _, [] => .ok []
  | offset, group :: groups => do
      let (records, offset) ← builder.fileRecords offset group.files
      let blocks ← builder.folderBlocks offset groups
      pure (builder.folderName group ++ records ++ blocks)

/-- The data of a file: its path, its size if it is compressed, and its payload. -/
def Builder.fileData (builder : Builder) (framed : FramedFile) : Except ExtractError Bytes :=
  if framed.file.compressed then do
    let unpacked ← word32 builder.archive framed.file.unpackedLength
    pure (framed.blob ++ Bytes.ofWord32 unpacked ++ framed.file.payload)
  else
    .ok (framed.blob ++ framed.file.payload)

def Builder.header (builder : Builder) (groups : List FramedGroup) :
    Except ExtractError Header := do
  let folderCount ← word32 builder.archive groups.length
  let fileCount ← word32 builder.archive builder.files.length
  let folderNamesLength ← word32 builder.archive
    (groups.foldr (fun group total => group.nameBytes.length - 1 + total) 0)
  let fileNamesLength ← word32 builder.archive (builder.fileNames groups).length
  pure {
    version := builder.version
    folderRecordOffset := UInt32.ofNat headerLength
    archiveFlags := builder.flags
    folderCount, fileCount, folderNamesLength, fileNamesLength
    fileFlags := builder.fileFlags }

def Builder.write (builder : Builder) (groups : List FramedGroup) :
    Except ExtractError Bytes := do
  let header ← builder.header groups
  let names := builder.fileNames groups
  let recordsEnd := headerLength + builder.version.folderRecordLength * groups.length
  let blocksLength := groups.foldr (fun group total => builder.blockLength group + total) 0
  let storedNames := if builder.flags.hasFileNames then names else []
  let folderRecords ← builder.folderRecords (recordsEnd + names.length) groups
  let folderBlocks ←
    builder.folderBlocks (recordsEnd + blocksLength + storedNames.length) groups
  let data ← (groups.flatMap FramedGroup.files).mapM builder.fileData
  pure (header.write ++ folderRecords ++ folderBlocks ++ storedNames ++ data.flatten)

/-- The bytes of the archive, where `arrange` tells in which order the groups are taken from
their table before they are sorted. -/
def Builder.buildArranged (arrange : List Group → List Group) (builder : Builder) :
    Except ExtractError Bytes := do
  let groups ← builder.groups
  let sorted := sortGroups (arrange groups)
  requireDistinct builder.archive sorted
  let framed ← sorted.mapM builder.frameGroup
  builder.write framed

def Builder.build (builder : Builder) : Except ExtractError Bytes :=
  builder.buildArranged id

end Tes4
end GameArchive
