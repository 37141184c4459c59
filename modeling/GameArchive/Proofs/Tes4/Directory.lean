import GameArchive.Proofs.Reading
import GameArchive.Tes4.Archive

/-!
# The directory of a TES4-family archive

A directory is a list of folders with their files.  Its bytes are all folder records, then for
each folder its name and its file records, then the block of file names.  This module writes a
directory down and proves that the reader gets it back, wherever it stands in an archive and
whatever the records say about hashes and offsets.
-/

namespace GameArchive
namespace Tes4

/-- What a directory holds about a file. -/
structure FileEntry where
  hash : UInt64
  sizeField : UInt32
  offset : UInt32
  name : Bytes
  deriving Repr, DecidableEq

/-- What a directory holds about a folder. -/
structure FolderEntry where
  hash : UInt64
  offset : UInt64
  name : Bytes
  files : List FileEntry
  deriving Repr, DecidableEq

namespace FileEntry

def record (entry : FileEntry) : Bytes :=
  Bytes.ofWord64 entry.hash ++ Bytes.ofWord32 entry.sizeField ++ Bytes.ofWord32 entry.offset

@[simp] theorem length_record (entry : FileEntry) : entry.record.length = fileRecordLength := by
  simp [record, fileRecordLength]

theorem length_records (entries : List FileEntry) :
    (entries.flatMap record).length = fileRecordLength * entries.length :=
  Bytes.length_flatMap_of_forall fun entry _ => entry.length_record

def terminated (entry : FileEntry) : Bytes :=
  entry.name ++ [0]

/-- A name that the block of file names can hold: it is not empty and has no zero byte. -/
def Nameable (entry : FileEntry) : Prop :=
  entry.name ≠ [] ∧ ∀ byte ∈ entry.name, byte ≠ 0

end FileEntry

namespace FolderEntry

/-- The offset as it is stored, which takes 64 bits in the newest version and 32 in the others. -/
def storedOffset (version : Version) (entry : FolderEntry) : Bytes :=
  match version with
  | .sse => Bytes.zeros 4 ++ Bytes.ofWord64 entry.offset
  | .tes4 | .fo3 => LittleEndian.encode 4 entry.offset.toNat

def record (version : Version) (entry : FolderEntry) : Bytes :=
  Bytes.ofWord64 entry.hash ++ Bytes.ofWord32 (UInt32.ofNat entry.files.length) ++
    entry.storedOffset version

@[simp] theorem length_record (version : Version) (entry : FolderEntry) :
    (entry.record version).length = version.folderRecordLength := by
  cases version <;> simp [record, storedOffset, Version.folderRecordLength]

theorem length_records (version : Version) (entries : List FolderEntry) :
    (entries.flatMap (record version)).length = version.folderRecordLength * entries.length :=
  Bytes.length_flatMap_of_forall fun entry _ => entry.length_record version

/-- The bytes of the name of a folder, after its length. -/
def prefixedName (entry : FolderEntry) : Bytes :=
  UInt8.ofNat (entry.name.length + 1) :: (entry.name ++ [0])

/-- The block of a folder: its name, if names are written, and its file records. -/
def block (flags : Flags) (entry : FolderEntry) : Bytes :=
  (if flags.hasFolderNames then entry.prefixedName else []) ++
    entry.files.flatMap FileEntry.record

/-- A folder that its record and its block can hold. -/
structure Storable (entry : FolderEntry) : Prop where
  shortName : entry.name.length + 1 < 256
  fewFiles : entry.files.length < UInt32.size

def toRecord (version : Version) (entry : FolderEntry) : FolderRecord where
  hash := entry.hash
  fileCount := UInt32.ofNat entry.files.length
  offset :=
    match version with
    | .sse => entry.offset
    | .tes4 | .fo3 => UInt64.ofNat (entry.offset.toNat % LittleEndian.bound 4)

theorem toRecord_fileCount (version : Version) (entry : FolderEntry) :
    (entry.toRecord version).fileCount = UInt32.ofNat entry.files.length :=
  rfl

def toBlock (header : Header) (entry : FolderEntry) : FolderBlock where
  record := entry.toRecord header.version
  name :=
    if header.archiveFlags.hasFolderNames then some (header.version.encoding.decode entry.name)
    else none
  files := entry.files.flatMap FileEntry.record

end FolderEntry

theorem FolderRecord.ofBytes_record (version : Version) (entry : FolderEntry) :
    FolderRecord.ofBytes version (entry.record version) = entry.toRecord version := by
  have hash : (entry.record version).window 0 8 = Bytes.ofWord64 entry.hash := by
    rw [FolderEntry.record, List.append_assoc, Bytes.window_append _ _ (by simp)]
  have count : (entry.record version).window 8 4 =
      Bytes.ofWord32 (UInt32.ofNat entry.files.length) := by
    rw [FolderEntry.record, List.append_assoc, Bytes.window_append_right _ _ 0 4 (by simp),
      Bytes.window_append _ _ (by simp)]
  have offset : ∀ start length,
      (entry.record version).window (12 + start) length =
        (entry.storedOffset version).window start length := by
    intro start length
    rw [FolderEntry.record, Bytes.window_append_right _ _ start length (by simp)]
  unfold FolderRecord.ofBytes FolderEntry.toRecord
  rw [hash, count, Bytes.decode_ofWord64, Bytes.decode_ofWord32, UInt64.ofNat_toNat,
    UInt32.ofNat_toNat]
  cases version with
  | sse =>
      have wide : (entry.record .sse).window 16 8 = Bytes.ofWord64 entry.offset := by
        rw [offset 4 8, FolderEntry.storedOffset, Bytes.window_append_right _ _ 0 8 (by simp)]
        exact Bytes.window_whole _ (by simp)
      simp only [wide, Bytes.decode_ofWord64, UInt64.ofNat_toNat]
  | tes4 =>
      have narrow : (entry.record .tes4).window 12 4 =
          LittleEndian.encode 4 entry.offset.toNat := by
        rw [offset 0 4, FolderEntry.storedOffset]
        exact Bytes.window_whole _ (by simp)
      simp only [narrow, LittleEndian.decode_encode]
  | fo3 =>
      have narrow : (entry.record .fo3).window 12 4 =
          LittleEndian.encode 4 entry.offset.toNat := by
        rw [offset 0 4, FolderEntry.storedOffset]
        exact Bytes.window_whole _ (by simp)
      simp only [narrow, LittleEndian.decode_encode]

theorem folderRecords_append (version : Version) (entries : List FolderEntry) (rest : Bytes) :
    folderRecords version entries.length
        (entries.flatMap (FolderEntry.record version) ++ rest) =
      entries.map (FolderEntry.toRecord version) := by
  induction entries with
  | nil => rfl
  | cons entry entries ih =>
      rw [List.length_cons, folderRecords, List.flatMap_cons, List.append_assoc,
        Bytes.take_append _ _ (entry.length_record version),
        Bytes.drop_append _ _ (entry.length_record version), ih,
        FolderRecord.ofBytes_record, List.map_cons]

theorem readFolderName_append (archive : String) (header : Header) {entry : FolderEntry}
    (storable : entry.Storable) (rest : Bytes) :
    readFolderName archive header
        ((if header.archiveFlags.hasFolderNames then entry.prefixedName else []) ++ rest) =
      .ok ((entry.toBlock header).name, rest) := by
  have short := storable.shortName
  unfold readFolderName FolderEntry.toBlock
  by_cases named : header.archiveFlags.hasFolderNames
  · have length : (UInt8.ofNat (entry.name.length + 1)).toNat = (entry.name ++ [0]).length := by
      rw [UInt8.toNat_ofNat', List.length_append, List.length_singleton]
      omega
    have text : PrefixedName.dropTerminator (entry.name ++ [0]) = entry.name := by
      simp [PrefixedName.dropTerminator]
    simp only [if_pos named, FolderEntry.prefixedName, List.cons_append, PrefixedName.read, length,
      Bytes.split?_append, text]
  · simp only [if_neg named, List.nil_append]

theorem readFolderBlocks_append (archive : String) (header : Header)
    {entries : List FolderEntry} (storable : ∀ entry ∈ entries, entry.Storable) (rest : Bytes) :
    readFolderBlocks archive header (entries.map (FolderEntry.toRecord header.version))
        (entries.flatMap (FolderEntry.block header.archiveFlags) ++ rest) =
      .ok (entries.map (FolderEntry.toBlock header), rest) := by
  induction entries with
  | nil => rfl
  | cons entry entries ih =>
      have first := storable entry (by simp)
      have others := ih (fun other member => storable other (by simp [member]))
      have lengths : (entry.files.flatMap FileEntry.record).length =
          fileRecordLength * (entry.toRecord header.version).fileCount.toNat := by
        rw [FileEntry.length_records, entry.toRecord_fileCount,
          UInt32.toNat_ofNat_of_lt' first.fewFiles]
      rw [List.map_cons, readFolderBlocks, List.flatMap_cons, FolderEntry.block, List.append_assoc,
        List.append_assoc, readFolderName_append archive header first]
      change (readBlock archive none _ _ >>= _) = _
      rw [readBlock_append _ _ _ _ lengths]
      change (readFolderBlocks archive header _ _ >>= _) = _
      rw [others]
      rfl

/-! ## File names -/

def nameBlock (entries : List FileEntry) : Bytes :=
  entries.flatMap FileEntry.terminated

theorem splitAtZeros_of_nonzero {name : Bytes} (nonzero : ∀ byte ∈ name, byte ≠ 0) :
    PrefixedName.splitAtZeros name = [name] := by
  induction name with
  | nil => rfl
  | cons byte name ih =>
      rw [PrefixedName.splitAtZeros, if_neg (nonzero byte (by simp)),
        ih (fun other member => nonzero other (by simp [member]))]

theorem splitAtZeros_append {name : Bytes} (nonzero : ∀ byte ∈ name, byte ≠ 0) (rest : Bytes) :
    PrefixedName.splitAtZeros (name ++ 0 :: rest) = name :: PrefixedName.splitAtZeros rest := by
  induction name with
  | nil => rw [List.nil_append, PrefixedName.splitAtZeros, if_pos rfl]
  | cons byte name ih =>
      rw [List.cons_append, PrefixedName.splitAtZeros, if_neg (nonzero byte (by simp)),
        ih (fun other member => nonzero other (by simp [member]))]

/-- A block of names without its last zero byte is split into the names. -/
theorem splitAtZeros_nameBlock {entry : FileEntry} {entries : List FileEntry}
    (nonzero : ∀ other ∈ entry :: entries, ∀ byte ∈ other.name, byte ≠ 0) :
    PrefixedName.splitAtZeros (nameBlock (entry :: entries)).dropLast =
      (entry :: entries).map FileEntry.name := by
  induction entries generalizing entry with
  | nil =>
      have single : nameBlock [entry] = entry.name ++ [0] := by
        simp [nameBlock, FileEntry.terminated]
      rw [single, List.dropLast_concat, List.map_cons, List.map_nil]
      exact splitAtZeros_of_nonzero (nonzero entry (by simp))
  | cons next entries ih =>
      have others : ∀ other ∈ next :: entries, ∀ byte ∈ other.name, byte ≠ 0 :=
        fun other member => nonzero other (List.mem_cons_of_mem entry member)
      have split : nameBlock (entry :: next :: entries) =
          entry.name ++ 0 :: nameBlock (next :: entries) := by
        simp [nameBlock, FileEntry.terminated]
      have notEmpty : nameBlock (next :: entries) ≠ [] := by
        simp [nameBlock, FileEntry.terminated]
      rw [split, List.dropLast_append_of_ne_nil (by simp), List.dropLast_cons_of_ne_nil notEmpty,
        splitAtZeros_append (nonzero entry (by simp)), ih others]
      rfl

theorem getLast?_nameBlock (entry : FileEntry) (entries : List FileEntry) :
    (nameBlock (entry :: entries)).getLast? = some 0 := by
  induction entries generalizing entry with
  | nil => simp [nameBlock, FileEntry.terminated]
  | cons next entries ih =>
      have split : nameBlock (entry :: next :: entries) =
          entry.terminated ++ nameBlock (next :: entries) := rfl
      rw [split, List.getLast?_append, ih]
      rfl

theorem dropLast_nameBlock_eq_nil_iff {entry : FileEntry} {entries : List FileEntry} :
    (nameBlock (entry :: entries)).dropLast = [] ↔ (entry :: entries).map FileEntry.name = [[]] := by
  cases entries with
  | nil => simp [nameBlock, FileEntry.terminated]
  | cons next entries =>
      have notEmpty : nameBlock (next :: entries) ≠ [] := by
        simp [nameBlock, FileEntry.terminated]
      have split : nameBlock (entry :: next :: entries) =
          entry.terminated ++ nameBlock (next :: entries) := rfl
      rw [split, List.dropLast_append_of_ne_nil notEmpty]
      simp [FileEntry.terminated]

/-- The reader finds all names of a block of zero-free names, unless there is but one and it is
empty. -/
theorem splitBlock_nameBlock_of_nonzero (encoding : Encoding) {entries : List FileEntry}
    (nonzero : ∀ entry ∈ entries, ∀ byte ∈ entry.name, byte ≠ 0) :
    PrefixedName.splitBlock encoding (nameBlock entries) =
      if entries.map FileEntry.name = [[]] then []
      else entries.map fun entry => encoding.decode entry.name := by
  cases entries with
  | nil => rfl
  | cons entry entries =>
      have names := splitAtZeros_nameBlock nonzero
      unfold PrefixedName.splitBlock PrefixedName.dropTerminator
      rw [if_pos (getLast?_nameBlock entry entries)]
      simp only [List.isEmpty_iff, dropLast_nameBlock_eq_nil_iff, names, List.map_map]
      rfl

theorem splitBlock_nameBlock (encoding : Encoding) {entries : List FileEntry}
    (nameable : ∀ entry ∈ entries, entry.Nameable) :
    PrefixedName.splitBlock encoding (nameBlock entries) =
      entries.map fun entry => encoding.decode entry.name := by
  rw [splitBlock_nameBlock_of_nonzero encoding fun entry member => (nameable entry member).2,
    if_neg]
  intro single
  have among : [] ∈ entries.map FileEntry.name := by
    rw [single]
    exact List.mem_singleton_self _
  obtain ⟨entry, member, empty⟩ := List.mem_map.mp among
  exact (nameable entry member).1 empty

/-- The name of a file, if names are written. -/
def Header.fileName? (header : Header) (entry : FileEntry) : Option String :=
  if header.archiveFlags.hasFileNames then some (header.version.encoding.decode entry.name)
  else none

/-- The names that the reader holds ready for some files. -/
def Header.fileNames (header : Header) (entries : List FileEntry) : List String :=
  if header.archiveFlags.hasFileNames then
    entries.map fun entry => header.version.encoding.decode entry.name
  else []

theorem Header.fileNames_head? (header : Header) (entry : FileEntry) (entries : List FileEntry) :
    (header.fileNames (entry :: entries)).head? = header.fileName? entry := by
  unfold fileNames fileName?
  split <;> rfl

theorem Header.fileNames_drop (header : Header) (entries others : List FileEntry) :
    (header.fileNames (entries ++ others)).drop entries.length = header.fileNames others := by
  unfold fileNames
  split
  · rw [List.map_append]
    exact List.drop_left' (List.length_map _)
  · exact List.drop_nil

/-- The names that the reader finds in the block of names of some files. -/
def Header.namesRead (header : Header) (entries : List FileEntry) : List String :=
  if header.archiveFlags.hasFileNames then
    PrefixedName.splitBlock header.version.encoding (nameBlock entries)
  else []

/-- A block of names of the announced length is read, whatever the names hold. -/
theorem readFileNames_nameBlock (archive : String) {header : Header} {entries : List FileEntry}
    (lengthEq : header.archiveFlags.hasFileNames →
      header.fileNamesLength.toNat = (nameBlock entries).length) (rest : Bytes) :
    readFileNames archive header
      ((if header.archiveFlags.hasFileNames then nameBlock entries else []) ++ rest) =
        .ok (header.namesRead entries) := by
  unfold readFileNames Header.namesRead
  by_cases named : header.archiveFlags.hasFileNames
  · rw [if_pos named, if_pos named, if_pos named, readBlock_append _ _ _ _ (lengthEq named).symm]
    rfl
  · rw [if_neg named, if_neg named]

theorem readFileNames_append (archive : String) {header : Header} {entries : List FileEntry}
    (nameable : header.archiveFlags.hasFileNames → ∀ entry ∈ entries, entry.Nameable)
    (lengthEq : header.archiveFlags.hasFileNames →
      header.fileNamesLength.toNat = (nameBlock entries).length)
    (rest : Bytes) :
    readFileNames archive header
        ((if header.archiveFlags.hasFileNames then nameBlock entries else []) ++ rest) =
      .ok (header.fileNames entries) := by
  rw [readFileNames_nameBlock archive lengthEq, Header.namesRead, Header.fileNames]
  by_cases named : header.archiveFlags.hasFileNames
  · rw [if_pos named, if_pos named, splitBlock_nameBlock _ (nameable named)]
  · rw [if_neg named, if_neg named]

/-! ## File records -/

namespace FileEntry

/-- Where the data of a file end, as its record says. -/
def dataEnd (entry : FileEntry) : Nat :=
  entry.offset.toNat +
    if entry.sizeField.toNat.testBit 30 then entry.sizeField.toNat - flipBit
    else entry.sizeField.toNat

def toRecord (header : Header) (folder : Option String) (index overallIndex : Nat)
    (entry : FileEntry) : FileRecord where
  hash := entry.hash
  sizeField := entry.sizeField
  offset := entry.offset
  index := index
  overallIndex := overallIndex
  path := filePath folder (header.fileName? entry) entry.hash

end FileEntry

/-- What is read from some file records; `index` and `overallIndex` are those of the first. -/
def listFiles (header : Header) (folder : Option String) :
    (index overallIndex : Nat) → List FileEntry → List FileRecord
  | _, _, [] => []
  | index, overallIndex, entry :: entries =>
      entry.toRecord header folder index overallIndex ::
        listFiles header folder (index + 1) (overallIndex + 1) entries

def listFolders (header : Header) : (overallIndex : Nat) → List FolderEntry → List Folder
  | _, [] => []
  | overallIndex, entry :: entries =>
      let block := entry.toBlock header
      {
        hash := block.record.hash
        fileCount := block.record.fileCount
        offset := block.record.offset
        name := block.name
        files := listFiles header block.name 0 overallIndex entry.files } ::
      listFolders header (overallIndex + entry.files.length) entries

/-- The fields of a file record, whatever stands behind it. -/
theorem FileEntry.window_record (entry : FileEntry) (rest : Bytes) :
    (entry.record ++ rest).window 0 8 = Bytes.ofWord64 entry.hash ∧
      (entry.record ++ rest).window 8 4 = Bytes.ofWord32 entry.sizeField ∧
      (entry.record ++ rest).window 12 4 = Bytes.ofWord32 entry.offset := by
  rw [record, List.append_assoc, List.append_assoc]
  refine ⟨?_, ?_, ?_⟩
  · rw [Bytes.window_append _ _ (by simp)]
  · rw [Bytes.window_append_right _ _ 0 4 (by simp), Bytes.window_append _ _ (by simp)]
  · rw [Bytes.window_append_right _ _ 4 4 (by simp), Bytes.window_append_right _ _ 0 4 (by simp),
      Bytes.window_append _ _ (by simp)]

/-- The record of a file that goes by a name, if there is one. -/
def FileEntry.named (folder name : Option String) (index overallIndex : Nat)
    (entry : FileEntry) : FileRecord where
  hash := entry.hash
  sizeField := entry.sizeField
  offset := entry.offset
  index := index
  overallIndex := overallIndex
  path := filePath folder name entry.hash

/-- What is read from some file records when these names are left for them. -/
def listNamedFiles (folder : Option String) :
    (index overallIndex : Nat) → (names : List String) → List FileEntry → List FileRecord
  | _, _, _, [] => []
  | index, overallIndex, names, entry :: entries =>
      entry.named folder names.head? index overallIndex ::
        listNamedFiles folder (index + 1) (overallIndex + 1) names.tail entries

def listNamedFolders (header : Header) :
    (overallIndex : Nat) → (names : List String) → List FolderEntry → List Folder
  | _, _, [] => []
  | overallIndex, names, entry :: entries =>
      let block := entry.toBlock header
      {
        hash := block.record.hash
        fileCount := block.record.fileCount
        offset := block.record.offset
        name := block.name
        files := listNamedFiles block.name 0 overallIndex names entry.files } ::
      listNamedFolders header (overallIndex + entry.files.length)
        (names.drop entry.files.length) entries

/-- Names that are written are those of the files in their order. -/
theorem listNamedFiles_fileNames (header : Header) (folder : Option String)
    (index overallIndex : Nat) (entries others : List FileEntry) :
    listNamedFiles folder index overallIndex (header.fileNames (entries ++ others)) entries =
      listFiles header folder index overallIndex entries := by
  induction entries generalizing index overallIndex with
  | nil => rfl
  | cons entry entries ih =>
      have namesLeft : (header.fileNames (entry :: (entries ++ others))).tail =
          header.fileNames (entries ++ others) := by
        rw [← List.drop_one]
        exact header.fileNames_drop [entry] (entries ++ others)
      rw [List.cons_append, listNamedFiles, header.fileNames_head?, namesLeft, ih]
      rfl

theorem listNamedFolders_fileNames (header : Header) (overallIndex : Nat)
    (entries : List FolderEntry) :
    listNamedFolders header overallIndex (header.fileNames (entries.flatMap FolderEntry.files))
        entries =
      listFolders header overallIndex entries := by
  induction entries generalizing overallIndex with
  | nil => rfl
  | cons entry entries ih =>
      rw [List.flatMap_cons, listNamedFolders, listNamedFiles_fileNames, header.fileNames_drop, ih]
      rfl

/-- Names that are left for some files are those that the files are to be called by. -/
def Assigns (called : FileEntry → Option String) (names : List String)
    (entries : List FileEntry) : Prop :=
  ∀ (position : Nat) (entry : FileEntry), entries[position]? = some entry →
    names[position]? = called entry

namespace Assigns

variable {called : FileEntry → Option String} {names : List String}
  {entry : FileEntry} {entries others : List FileEntry}

theorem head (assigns : Assigns called names (entry :: entries)) :
    names.head? = called entry := by
  rw [List.head?_eq_getElem?]
  exact assigns 0 entry rfl

theorem tail (assigns : Assigns called names (entry :: entries)) :
    Assigns called names.tail entries := by
  intro position other there
  rw [List.getElem?_tail]
  exact assigns (position + 1) other there

theorem left (assigns : Assigns called names (entries ++ others)) :
    Assigns called names entries := by
  intro position other there
  obtain ⟨below, -⟩ := List.getElem?_eq_some_iff.mp there
  apply assigns
  rwa [List.getElem?_append_left below]

theorem right (assigns : Assigns called names (entries ++ others)) :
    Assigns called (names.drop entries.length) others := by
  intro position other there
  rw [List.getElem?_drop]
  apply assigns
  rwa [List.getElem?_append_right (Nat.le_add_right ..), Nat.add_sub_cancel_left]

end Assigns

theorem assigns_fileNames (header : Header) (entries : List FileEntry) :
    Assigns header.fileName? (header.fileNames entries) entries := by
  intro position entry there
  unfold Header.fileNames Header.fileName?
  split
  · rw [List.getElem?_map, there]
    rfl
  · rfl

/-- A single file with an empty name is left without one. -/
theorem assigns_namesRead {header : Header} {entries : List FileEntry}
    (nonzero : header.archiveFlags.hasFileNames →
      ∀ entry ∈ entries, ∀ byte ∈ entry.name, byte ≠ 0) :
    Assigns (fun entry => if entries.map FileEntry.name = [[]] then none else header.fileName? entry)
      (header.namesRead entries) entries := by
  intro position entry there
  simp only [Header.namesRead, Header.fileName?]
  by_cases named : header.archiveFlags.hasFileNames
  · rw [if_pos named, if_pos named, splitBlock_nameBlock_of_nonzero _ (nonzero named)]
    split
    · rfl
    · rw [List.getElem?_map, there]
      rfl
  · rw [if_neg named, if_neg named, ite_self]
    rfl

theorem map_dataEnd_listNamedFiles (folder : Option String) (index overallIndex : Nat)
    (names : List String) (entries : List FileEntry) :
    (listNamedFiles folder index overallIndex names entries).map FileRecord.dataEnd =
      entries.map FileEntry.dataEnd := by
  induction entries generalizing index overallIndex names with
  | nil => rfl
  | cons entry entries ih =>
      rw [listNamedFiles, List.map_cons, List.map_cons, ih]
      rfl

theorem map_dataEnd_listNamedFolders (header : Header) (overallIndex : Nat)
    (names : List String) (entries : List FolderEntry) :
    ((listNamedFolders header overallIndex names entries).flatMap Folder.files).map
        FileRecord.dataEnd =
      (entries.flatMap FolderEntry.files).map FileEntry.dataEnd := by
  induction entries generalizing overallIndex names with
  | nil => rfl
  | cons entry entries ih =>
      rw [listNamedFolders, List.flatMap_cons, List.flatMap_cons, List.map_append,
        List.map_append, ih, map_dataEnd_listNamedFiles]

/-- A listing, unless the data of one of its files reach beyond the end of the archive. -/
def withinEnd {α : Type} (source : Source) (files : List FileRecord) (listing : α) :
    Except ExtractError α :=
  match files.find? fun file => decide (source.bytes.length < file.dataEnd) with
  | some file => .error (.invalidFormat source.name (.entryBeyondEnd file.path))
  | none => .ok listing

section WithinEnd

variable {α β γ : Type} {source : Source} {files others : List FileRecord}

theorem withinEnd_eq_ok_iff {listing result : α} {ends : List Nat}
    (endsEq : files.map FileRecord.dataEnd = ends) :
    withinEnd source files listing = .ok result ↔
      (∀ stop ∈ ends, stop ≤ source.bytes.length) ∧ listing = result := by
  subst endsEq
  have none_iff : files.find? (fun file => decide (source.bytes.length < file.dataEnd)) = none ↔
      ∀ stop ∈ files.map FileRecord.dataEnd, stop ≤ source.bytes.length := by
    simp
  rw [withinEnd, ← none_iff]
  cases files.find? _ with
  | some file => simp
  | none => simp

/-- The failure tells the first file that reaches beyond the end. -/
theorem withinEnd_eq_error_iff {listing : α} {failure : ExtractError} :
    withinEnd source files listing = .error failure ↔
      ∃ front file back, files = front ++ file :: back ∧
        (∀ earlier ∈ front, earlier.dataEnd ≤ source.bytes.length) ∧
        source.bytes.length < file.dataEnd ∧
        failure = .invalidFormat source.name (.entryBeyondEnd file.path) := by
  rw [withinEnd]
  constructor
  · intro failed
    split at failed
    case h_1 file found =>
      cases failed
      obtain ⟨beyond, front, back, row, within⟩ := List.find?_eq_some_iff_append.mp found
      exact ⟨front, file, back, row, by simpa using within, by simpa using beyond, rfl⟩
    case h_2 => cases failed
  · rintro ⟨front, file, back, row, within, beyond, rfl⟩
    have found : files.find? (fun file => decide (source.bytes.length < file.dataEnd)) =
        some file :=
      List.find?_eq_some_iff_append.mpr
        ⟨by simpa using beyond, front, back, row, by simpa using within⟩
    rw [found]

/-- Two listings that follow each other are checked as one. -/
theorem withinEnd_bind (first : α) (second : β) (join : α → β → γ) :
    (do
      let front ← withinEnd source files first
      let back ← withinEnd source others second
      pure (join front back)) =
      withinEnd source (files ++ others) (join first second) := by
  unfold withinEnd
  rw [List.find?_append]
  cases files.find? _ with
  | some file => rfl
  | none =>
      cases others.find? _ with
      | some file => rfl
      | none => rfl

end WithinEnd

/-- File records are read one after the other, and each takes the next name, up to the first that
reaches beyond the end. -/
theorem readFiles_records (source : Source) (folder : Option String) (index overallIndex : Nat)
    (names : List String) (entries : List FileEntry) (rest : Bytes) :
    readFiles source folder entries.length index overallIndex names
        (entries.flatMap FileEntry.record ++ rest) =
      withinEnd source (listNamedFiles folder index overallIndex names entries)
        (listNamedFiles folder index overallIndex names entries) := by
  induction entries generalizing index overallIndex names with
  | nil => rfl
  | cons entry entries ih =>
      obtain ⟨hash, sizeField, offset⟩ :=
        entry.window_record (entries.flatMap FileEntry.record ++ rest)
      rw [List.length_cons, readFiles, List.flatMap_cons, List.append_assoc]
      simp only [hash, sizeField, offset, Bytes.decode_ofWord64, Bytes.decode_ofWord32,
        UInt64.ofNat_toNat, UInt32.ofNat_toNat, Bytes.drop_append _ _ entry.length_record]
      rw [ih, listNamedFiles]
      change (if source.bytes.length <
        (entry.named folder names.head? index overallIndex).dataEnd then _ else _) = _
      by_cases beyond : source.bytes.length <
          (entry.named folder names.head? index overallIndex).dataEnd
      · rw [if_pos beyond, withinEnd, List.find?_cons_of_pos (by simpa using beyond)]
        rfl
      · rw [if_neg beyond, withinEnd, withinEnd, List.find?_cons_of_neg (by simpa using beyond)]
        cases (listNamedFiles _ _ _ _ _).find? _ with
        | some file => rfl
        | none => rfl

theorem readFolders_toBlock (source : Source) (header : Header) (overallIndex : Nat)
    (names : List String) {entries : List FolderEntry}
    (storable : ∀ entry ∈ entries, entry.Storable) :
    readFolders source (entries.map (FolderEntry.toBlock header)) overallIndex names =
      withinEnd source ((listNamedFolders header overallIndex names entries).flatMap Folder.files)
        (listNamedFolders header overallIndex names entries) := by
  induction entries generalizing overallIndex names with
  | nil => rfl
  | cons entry entries ih =>
      have count : (entry.toBlock header).record.fileCount.toNat = entry.files.length :=
        UInt32.toNat_ofNat_of_lt' (storable entry (by simp)).fewFiles
      have first := readFiles_records source (entry.toBlock header).name 0 overallIndex names
        entry.files []
      have others := ih (overallIndex + entry.files.length) (names.drop entry.files.length)
        (fun other member => storable other (by simp [member]))
      rw [List.append_nil] at first
      rw [List.map_cons, readFolders]
      simp only [count]
      rw [others]
      change (readFiles source _ _ _ _ _ (entry.files.flatMap FileEntry.record) >>= _) = _
      rw [first]
      exact withinEnd_bind _ _ _

/-! ## The whole directory -/

/-- The bytes of a directory. -/
def directory (version : Version) (flags : Flags) (entries : List FolderEntry) : Bytes :=
  entries.flatMap (FolderEntry.record version) ++ entries.flatMap (FolderEntry.block flags) ++
    if flags.hasFileNames then nameBlock (entries.flatMap FolderEntry.files) else []

/-- What an archive lists, when the header tells the counts of a directory that stands where the
header says.  The folder records may be any that show the folders. -/
theorem Archive.folders_eq {archive : Archive} {entries : List FolderEntry} {records rest : Bytes}
    {names : List String}
    (holds : archive.source.bytes.drop archive.header.folderRecordOffset.toNat =
      records ++ (entries.flatMap (FolderEntry.block archive.header.archiveFlags) ++ rest))
    (recordsLength :
      records.length = archive.header.version.folderRecordLength * entries.length)
    (recordsEq : folderRecords archive.header.version entries.length records =
      entries.map (FolderEntry.toRecord archive.header.version))
    (folderCount : archive.header.folderCount.toNat = entries.length)
    (storable : ∀ entry ∈ entries, entry.Storable)
    (named : readFileNames archive.source.name archive.header rest = .ok names) :
    archive.folders =
      withinEnd archive.source
        ((listNamedFolders archive.header 0 names entries).flatMap Folder.files)
        (listNamedFolders archive.header 0 names entries) := by
  have blocks := readFolderBlocks_append archive.source.name archive.header storable rest
  unfold Archive.folders
  simp only
  rw [holds, folderCount, readBlock_append _ _ _ _ recordsLength, Outcome.ok_bind]
  simp only
  rw [recordsEq, blocks, Outcome.ok_bind]
  simp only
  rw [named, Outcome.ok_bind]
  exact readFolders_toBlock _ _ _ _ storable

/-- A directory whose data all lie inside the archive is listed with any names that are read from
its block of file names. -/
theorem folders_of_names {archive : Archive} {entries : List FolderEntry} {rest : Bytes}
    {names : List String}
    (holds : archive.source.bytes.drop archive.header.folderRecordOffset.toNat =
      directory archive.header.version archive.header.archiveFlags entries ++ rest)
    (folderCount : archive.header.folderCount.toNat = entries.length)
    (storable : ∀ entry ∈ entries, entry.Storable)
    (named : readFileNames archive.source.name archive.header
      ((if archive.header.archiveFlags.hasFileNames then
        nameBlock (entries.flatMap FolderEntry.files) else []) ++ rest) = .ok names)
    (within : ∀ file ∈ entries.flatMap FolderEntry.files,
      file.dataEnd ≤ archive.source.bytes.length) :
    archive.folders = .ok (listNamedFolders archive.header 0 names entries) := by
  have recordsEq := folderRecords_append archive.header.version entries []
  rw [List.append_nil] at recordsEq
  rw [directory, List.append_assoc, List.append_assoc] at holds
  rw [Archive.folders_eq holds (FolderEntry.length_records archive.header.version entries) recordsEq
      folderCount storable named,
    withinEnd_eq_ok_iff (map_dataEnd_listNamedFolders ..)]
  exact ⟨List.forall_mem_map.mpr within, rfl⟩

/-- The reader inverts the writing of a directory that stands where the header says, when the
header tells its counts and all data lie inside the archive. -/
theorem folders_of_directory {archive : Archive} {entries : List FolderEntry} {rest : Bytes}
    (holds : archive.source.bytes.drop archive.header.folderRecordOffset.toNat =
      directory archive.header.version archive.header.archiveFlags entries ++ rest)
    (folderCount : archive.header.folderCount.toNat = entries.length)
    (storable : ∀ entry ∈ entries, entry.Storable)
    (nameable : archive.header.archiveFlags.hasFileNames →
      ∀ file ∈ entries.flatMap FolderEntry.files, file.Nameable)
    (namesLength : archive.header.archiveFlags.hasFileNames →
      archive.header.fileNamesLength.toNat =
        (nameBlock (entries.flatMap FolderEntry.files)).length)
    (within : ∀ file ∈ entries.flatMap FolderEntry.files,
      file.dataEnd ≤ archive.source.bytes.length) :
    archive.folders = .ok (listFolders archive.header 0 entries) := by
  rw [folders_of_names holds folderCount storable
      (readFileNames_append archive.source.name nameable namesLength rest) within,
    listNamedFolders_fileNames]

end Tes4
end GameArchive
