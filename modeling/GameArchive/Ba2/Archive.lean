import GameArchive.Ba2.Basic

/-!
# Reading BA2 archives

The whole directory is read on opening.  Without a table of names an entry is called by its name
hash and its extension.  Every entry must lie inside the archive.
-/

namespace GameArchive
namespace Ba2

/-- An entry: what its record says, and where its data stand. -/
structure File where
  state : FileState
  offset : Nat
  packedSize : Nat
  unpackedSize : Nat
  deriving Repr, DecidableEq

structure Archive where
  source : Source
  state : State
  files : List File
  deriving Repr, DecidableEq

/-- The header fields that every version has. -/
structure Header where
  version : UInt32
  kind : Bytes
  fileCount : UInt32
  nameTableOffset : UInt64
  deriving Repr, DecidableEq

def Header.read? (bytes : Bytes) : Option (Header × Bytes) := do
  let (version, bytes) ← Bytes.word32? bytes
  let (kind, bytes) ← Bytes.split? 4 bytes
  let (fileCount, bytes) ← Bytes.word32? bytes
  let (nameTableOffset, bytes) ← Bytes.word64? bytes
  pure ({ version, kind, fileCount, nameTableOffset }, bytes)

/-- Refuses headers of other versions and entry types. -/
def Header.check (archive : String) (header : Header) : Except ExtractError Unit :=
  let kind := Utf8.decodeReplacing header.kind
  if !isKnownVersion header.version then
    .error (.invalidFormat archive (.unknownBa2Version header.version.toNat))
  else if header.kind = generalKind then
    .ok ()
  else if header.kind ∈ textureKinds then
    .error (.invalidFormat archive (.textureArchive kind))
  else
    .error (.invalidFormat archive (.unknownEntryType kind))

/-- The words that versions 2 and 3 add to the header. -/
structure Extras where
  extra1 : UInt32
  extra2 : UInt32
  compression : UInt32
  deriving Repr, DecidableEq

def Extras.read? (version : UInt32) (bytes : Bytes) : Option (Extras × Bytes) := do
  if version = 2 ∨ version = 3 then
    let (extra1, bytes) ← Bytes.word32? bytes
    let (extra2, bytes) ← Bytes.word32? bytes
    if version = 3 then
      let (compression, bytes) ← Bytes.word32? bytes
      pure (⟨extra1, extra2, compression⟩, bytes)
    else
      pure (⟨extra1, extra2, 0⟩, bytes)
  else
    pure (⟨0, 0, 0⟩, bytes)

def readRecords : (count : Nat) → Bytes → List Record
  | 0, _ => []
  | count + 1, bytes =>
      Record.ofBytes (bytes.take recordLength) :: readRecords count (bytes.drop recordLength)

def readNames (archive : String) : (count : Nat) → Bytes → Except ExtractError (List String)
  | 0, _ => .ok []
  | count + 1, bytes =>
      match Bytes.word16? bytes with
      | none => .error (.invalidFormat archive .truncatedHeader)
      | some (length, bytes) => do
          let (name, bytes) ← readBlock archive none length.toNat bytes
          let names ← readNames archive count bytes
          pure (encoding.decode name :: names)

def readNameTable (source : Source) (header : Header) :
    Except ExtractError (Option (List String)) :=
  if header.nameTableOffset = 0 then
    .ok none
  else if source.bytes.length < header.nameTableOffset.toNat then
    .error (.invalidFormat source.name .nameTableBeyondEnd)
  else do
    let names ← readNames source.name header.fileCount.toNat
      (source.bytes.drop header.nameTableOffset.toNat)
    pure (some names)

/-- The extension that a record holds: its text without zero characters at the end. -/
def extensionText (extension : Bytes) : String :=
  String.ofList
    ((Utf8.decodeReplacing extension).toList.reverse.dropWhile (· == '\x00')).reverse

/-- The name of an entry that has none. -/
def hashName (record : Record) : String :=
  Hexadecimal.renderPadded 8 record.nameHash.toNat ++ "." ++ extensionText record.extension

/-- The entries for some records.  `names` holds their names, where there are names. -/
def readFiles (source : Source) :
    List Record → (index : Nat) → (names : Option (List String)) → Except ExtractError (List File)
  | [], _, _ => .ok []
  | record :: records, index, names => do
      let path := (names.bind List.head?).getD (hashName record)
      if source.bytes.length < record.offset.toNat + record.onDisk then
        .error (.invalidFormat source.name (.entryBeyondEnd path))
      else
        let file : File := {
          state := {
            path, index
            nameHash := record.nameHash
            extension := extensionText record.extension
            dirHash := record.dirHash
            flags := record.flags
            align := record.align
            compressed := record.packedSize != 0 }
          offset := record.offset.toNat
          packedSize := record.packedSize.toNat
          unpackedSize := record.unpackedSize.toNat }
        let files ← readFiles source records (index + 1) (names.map List.tail)
        pure (file :: files)

def Archive.open (source : Source) : Except ExtractError Archive := do
  let bytes ← readMagic source.name "BA2" magic source.bytes
  match Header.read? bytes with
  | none => .error (.invalidFormat source.name .truncatedHeader)
  | some (header, bytes) =>
      header.check source.name
      match Extras.read? header.version bytes with
      | none => .error (.invalidFormat source.name .truncatedHeader)
      | some (extras, bytes) =>
          let count := header.fileCount.toNat
          let (records, _) ← readBlock source.name none (recordLength * count) bytes
          let names ← readNameTable source header
          let files ← readFiles source (readRecords count records) 0 names
          pure {
            source
            state := {
              version := header.version
              magic := magicText
              kind := Utf8.decodeReplacing header.kind
              hasNameTable := header.nameTableOffset != 0
              extra1 := extras.extra1
              extra2 := extras.extra2
              compression := extras.compression }
            files }

def File.isCompressed (file : File) : Bool :=
  file.packedSize != 0

def Archive.contents [Codecs] (archive : Archive) (file : File) : Except ExtractError Bytes :=
  let compression := if file.isCompressed then archive.state.packing else .stored
  match compression.deliver (archive.source.bytes.drop file.offset) file.packedSize
      file.unpackedSize with
  | .error cause => .error (.io archive.source.name cause)
  | .ok delivery =>
      delivery.takeExactly archive.source.name (some file.state.path) file.unpackedSize

end Ba2
end GameArchive
