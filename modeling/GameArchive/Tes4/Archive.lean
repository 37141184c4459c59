import GameArchive.Tes4.Basic

/-!
# Reading archives of the TES4 family

Opening an archive reads its header only.  `Archive.folders` walks over the directory: all folder
records, then for each folder its name and its file records, then the block of file names, which
belong to the files in the order of their records.  A file without a name is called by its hash.
Every entry must lie inside the archive.

The data of an entry begin with its path, when the flags say so, and with its size, when it is
compressed.
-/

namespace GameArchive
namespace Tes4

structure Archive where
  source : Source
  header : Header
  deriving Repr, DecidableEq

structure StoredHeader where
  versionNumber : UInt32
  folderRecordOffset : UInt32
  archiveFlags : UInt32
  folderCount : UInt32
  fileCount : UInt32
  folderNamesLength : UInt32
  fileNamesLength : UInt32
  fileFlags : UInt32
  deriving Repr, DecidableEq

def StoredHeader.read? (bytes : Bytes) : Option StoredHeader := do
  let (versionNumber, bytes) ← Bytes.word32? bytes
  let (folderRecordOffset, bytes) ← Bytes.word32? bytes
  let (archiveFlags, bytes) ← Bytes.word32? bytes
  let (folderCount, bytes) ← Bytes.word32? bytes
  let (fileCount, bytes) ← Bytes.word32? bytes
  let (folderNamesLength, bytes) ← Bytes.word32? bytes
  let (fileNamesLength, bytes) ← Bytes.word32? bytes
  let (fileFlags, _) ← Bytes.word32? bytes
  pure {
    versionNumber, folderRecordOffset, archiveFlags, folderCount, fileCount, folderNamesLength
    fileNamesLength, fileFlags }

def Archive.open (source : Source) : Except ExtractError Archive := do
  let rest ← readMagic source.name "BSA" magic source.bytes
  match StoredHeader.read? rest with
  | none => .error (.invalidFormat source.name .truncatedHeader)
  | some stored =>
      match Version.ofNumber? stored.versionNumber with
      | none =>
          .error (.invalidFormat source.name (.unknownBsaVersion stored.versionNumber.toNat))
      | some version =>
          .ok {
            source
            header := {
              version
              folderRecordOffset := stored.folderRecordOffset
              archiveFlags := ⟨stored.archiveFlags⟩
              folderCount := stored.folderCount
              fileCount := stored.fileCount
              folderNamesLength := stored.folderNamesLength
              fileNamesLength := stored.fileNamesLength
              fileFlags := stored.fileFlags } }

/-- What is needed to write the header again. -/
def Archive.state (archive : Archive) : State where
  magic := magicText
  version := archive.header.version
  archiveFlags := archive.header.archiveFlags.bits
  fileFlags := archive.header.fileFlags

/-- A folder record without its name and files. -/
structure FolderRecord where
  hash : UInt64
  fileCount : UInt32
  offset : UInt64
  deriving Repr, DecidableEq

def FolderRecord.ofBytes (version : Version) (bytes : Bytes) : FolderRecord where
  hash := UInt64.ofNat (LittleEndian.decode (bytes.window 0 8))
  fileCount := UInt32.ofNat (LittleEndian.decode (bytes.window 8 4))
  offset := UInt64.ofNat <| LittleEndian.decode <|
    match version with
    | .sse => bytes.window 16 8
    | .tes4 | .fo3 => bytes.window 12 4

def folderRecords (version : Version) : (count : Nat) → Bytes → List FolderRecord
  | 0, _ => []
  | count + 1, bytes =>
      FolderRecord.ofBytes version (bytes.take version.folderRecordLength) ::
        folderRecords version count (bytes.drop version.folderRecordLength)

/-- A folder record with its name and its file records, which are still bytes. -/
structure FolderBlock where
  record : FolderRecord
  name : Option String
  files : Bytes
  deriving Repr, DecidableEq

def readFolderName (archive : String) (header : Header) (bytes : Bytes) :
    Except ExtractError (Option String × Bytes) :=
  if header.archiveFlags.hasFolderNames then
    match PrefixedName.read header.version.encoding bytes with
    | .ok (name, rest) => .ok (some name, rest)
    | .error .shortRead => .error (.invalidFormat archive .truncatedFolderName)
    | .error cause => .error (.io archive cause)
  else
    .ok (none, bytes)

def readFolderBlocks (archive : String) (header : Header) :
    List FolderRecord → Bytes → Except ExtractError (List FolderBlock × Bytes)
  | [], bytes => .ok ([], bytes)
  | record :: records, bytes => do
      let (name, bytes) ← readFolderName archive header bytes
      let (files, bytes) ←
        readBlock archive none (fileRecordLength * record.fileCount.toNat) bytes
      let (blocks, bytes) ← readFolderBlocks archive header records bytes
      pure (⟨record, name, files⟩ :: blocks, bytes)

/-- The path of a file: its folder, if that has a name, and its own name or hash. -/
def filePath (folder : Option String) (name : Option String) (hash : UInt64) : String :=
  let leaf := name.getD (Hexadecimal.renderPadded 16 hash.toNat)
  match folder with
  | none => leaf
  | some folder => if folder.isEmpty then leaf else folder ++ "\\" ++ leaf

/-- Reads `count` file records of a folder.  `names` holds the names of this file and of those
after it. -/
def readFiles (source : Source) (folder : Option String) :
    (count : Nat) → (index overallIndex : Nat) → (names : List String) → Bytes →
      Except ExtractError (List FileRecord)
  | 0, _, _, _, _ => .ok []
  | count + 1, index, overallIndex, names, bytes => do
      let hash := UInt64.ofNat (LittleEndian.decode (bytes.window 0 8))
      let file : FileRecord := {
        hash
        sizeField := UInt32.ofNat (LittleEndian.decode (bytes.window 8 4))
        offset := UInt32.ofNat (LittleEndian.decode (bytes.window 12 4))
        index
        overallIndex
        path := filePath folder names.head? hash }
      if source.bytes.length < file.dataEnd then
        .error (.invalidFormat source.name (.entryBeyondEnd file.path))
      else
        let files ← readFiles source folder count (index + 1) (overallIndex + 1) names.tail
          (bytes.drop fileRecordLength)
        pure (file :: files)

def readFolders (source : Source) :
    List FolderBlock → (overallIndex : Nat) → (names : List String) →
      Except ExtractError (List Folder)
  | [], _, _ => .ok []
  | block :: blocks, overallIndex, names => do
      let count := block.record.fileCount.toNat
      let files ← readFiles source block.name count 0 overallIndex names block.files
      let folders ← readFolders source blocks (overallIndex + count) (names.drop count)
      pure ({
        hash := block.record.hash
        fileCount := block.record.fileCount
        offset := block.record.offset
        name := block.name
        files } :: folders)

def readFileNames (archive : String) (header : Header) (bytes : Bytes) :
    Except ExtractError (List String) :=
  if header.archiveFlags.hasFileNames then do
    let (block, _) ← readBlock archive none header.fileNamesLength.toNat bytes
    pure (PrefixedName.splitBlock header.version.encoding block)
  else
    .ok []

def Archive.folders (archive : Archive) : Except ExtractError (List Folder) := do
  let header := archive.header
  let name := archive.source.name
  let count := header.folderCount.toNat
  let (records, bytes) ← readBlock name none (header.version.folderRecordLength * count)
    (archive.source.bytes.drop header.folderRecordOffset.toNat)
  let (blocks, bytes) ← readFolderBlocks name header (folderRecords header.version count records) bytes
  let names ← readFileNames name header bytes
  readFolders archive.source blocks 0 names

def Archive.files (archive : Archive) : Except ExtractError (List FileRecord) := do
  let folders ← archive.folders
  pure (folders.flatMap Folder.files)

def Archive.isCompressed (archive : Archive) (file : FileRecord) : Bool :=
  file.flipCompression != archive.header.archiveFlags.compressedByDefault

/-- What the start of the data of an entry tells. -/
structure DataStart where
  /-- The number of bytes of the payload. -/
  onDisk : Nat
  size : Nat
  payload : Bytes
  deriving Repr, DecidableEq

/-- Passes over the path at the start of an entry; gives the number of bytes that it takes. -/
def Archive.skipNameBlob (archive : Archive) (file : FileRecord) (bytes : Bytes) :
    Except ExtractError (Nat × Bytes) :=
  if archive.header.hasNameBlobs then do
    let (length, bytes) ← readBlock archive.source.name (some file.path) 1 bytes
    let skipped := LittleEndian.decode length
    pure (skipped + 1, bytes.drop skipped)
  else
    .ok (0, bytes)

def Archive.dataStart (archive : Archive) (file : FileRecord) : Except ExtractError DataStart := do
  let name := archive.source.name
  let compressed := archive.isCompressed file
  let bytes := archive.source.bytes.drop file.offset.toNat
  if compressed ∧ file.dataLength < 4 then
    .error (.invalidFormat name (.smallSizeField file.path))
  else
    let length := if compressed then file.dataLength - 4 else file.dataLength
    let (blob, bytes) ← archive.skipNameBlob file bytes
    let (unpacked, bytes) ← readBlock name (some file.path) (if compressed then 4 else 0) bytes
    if length < blob then
      .error (.invalidFormat name (.oversizedNameBlob file.path))
    else
      let onDisk := length - blob
      pure {
        onDisk
        size := if compressed then LittleEndian.decode unpacked else onDisk
        payload := bytes }

def Archive.size (archive : Archive) (file : FileRecord) : Except ExtractError Nat := do
  let start ← archive.dataStart file
  pure start.size

def Archive.contents [Codecs] (archive : Archive) (file : FileRecord) :
    Except ExtractError Bytes := do
  let start ← archive.dataStart file
  let compression :=
    if archive.isCompressed file then archive.header.version.compression else .stored
  match compression.deliver start.payload start.onDisk start.size with
  | .error cause => .error (.io archive.source.name cause)
  | .ok delivery =>
      delivery.takeExactly archive.source.name (some file.path) start.size

end Tes4
end GameArchive
