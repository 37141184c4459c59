import GameArchive.Proofs.Tes4.Directory
import GameArchive.Proofs.Tes4.StoredEntry

/-!
# Where a builder places what it writes

All offsets are computed before anything is written.  This module places the files and folders of
an archive, proves that the bytes of a builder are the header, the directory of these places and
the data of the files one after the other, and that every file stands where it was placed.
-/

namespace GameArchive

theorem LittleEndian.encode_mod (width value : Nat) :
    encode width (value % bound width) = encode width value := by
  have same := encode_decode (encode width value)
  rwa [length_encode, decode_encode] at same

namespace Tes4

/-- A framed file with the offset of its data. -/
structure PlacedFile where
  offset : Nat
  framed : FramedFile
  deriving Repr, DecidableEq

/-- Some files one after the other, of which the first begins at `offset`. -/
def placeFiles : (offset : Nat) → List FramedFile → List PlacedFile
  | _, [] => []
  | offset, framed :: files => ⟨offset, framed⟩ :: placeFiles (offset + framed.storedLength) files

def filesData (files : List FramedFile) : Bytes :=
  files.flatMap FramedFile.data

theorem filesData_cons (framed : FramedFile) (files : List FramedFile) :
    filesData (framed :: files) = framed.data ++ filesData files :=
  rfl

theorem placeFiles_append (offset : Nat) (first second : List FramedFile) :
    placeFiles offset (first ++ second) =
      placeFiles offset first ++ placeFiles (offset + (filesData first).length) second := by
  induction first generalizing offset with
  | nil => rfl
  | cons framed first ih =>
      rw [List.cons_append, placeFiles, placeFiles, ih, filesData_cons, List.length_append,
        framed.length_data, List.cons_append, Nat.add_assoc]

theorem map_framed_placeFiles (offset : Nat) (files : List FramedFile) :
    (placeFiles offset files).map PlacedFile.framed = files := by
  induction files generalizing offset with
  | nil => rfl
  | cons framed files ih => rw [placeFiles, List.map_cons, ih]

theorem length_placeFiles (offset : Nat) (files : List FramedFile) :
    (placeFiles offset files).length = files.length := by
  have lengths := congrArg List.length (map_framed_placeFiles offset files)
  rwa [List.length_map] at lengths

/-- Every file stands where it was placed. -/
theorem data_of_mem_placeFiles {offset : Nat} {files : List FramedFile} {placed : PlacedFile}
    (member : placed ∈ placeFiles offset files) :
    ∃ before after, filesData files = before ++ (placed.framed.data ++ after) ∧
      placed.offset = offset + before.length := by
  induction files generalizing offset with
  | nil => cases member
  | cons framed files ih =>
      rw [placeFiles] at member
      rcases List.mem_cons.mp member with rfl | later
      · exact ⟨[], filesData files, rfl, rfl⟩
      · obtain ⟨before, after, split, place⟩ := ih later
        refine ⟨framed.data ++ before, after, ?_, ?_⟩
        · rw [filesData_cons, split, List.append_assoc]
        · rw [place, List.length_append, framed.length_data, Nat.add_assoc]

/-- The name of a folder without its length and its zero byte. -/
def FramedGroup.name (group : FramedGroup) : Bytes :=
  (group.nameBytes.drop 1).dropLast

/-- A folder whose name is stored as `name`. -/
structure FramedGroup.Named (name : Bytes) (group : FramedGroup) : Prop where
  short : name.length + 1 < 256
  nameBytesEq : group.nameBytes = UInt8.ofNat (name.length + 1) :: (name ++ [0])

theorem FramedGroup.Named.nameEq {name : Bytes} {group : FramedGroup}
    (named : group.Named name) : group.name = name := by
  rw [FramedGroup.name, named.nameBytesEq, List.drop_one, List.tail_cons, List.dropLast_concat]

namespace Builder

variable {builder : Builder}

/-- What the directory holds about a placed file. -/
def fileEntry (builder : Builder) (placed : PlacedFile) : FileEntry where
  hash := placed.framed.file.hash
  sizeField := placed.framed.sizeField
  offset := UInt32.ofNat placed.offset
  name := builder.version.encoding.encode placed.framed.file.name

/-- What the directory holds about some groups; `blockOffset` is the offset of the first folder
record, and `offset` is where the data of the first file begin. -/
def folderEntries (builder : Builder) :
    (blockOffset offset : Nat) → List FramedGroup → List FolderEntry
  | _, _, [] => []
  | blockOffset, offset, group :: groups =>
      ⟨group.hash, UInt64.ofNat blockOffset, group.name,
        (placeFiles offset group.files).map builder.fileEntry⟩ ::
      builder.folderEntries (blockOffset + builder.blockLength group)
        (offset + (filesData group.files).length) groups

theorem files_folderEntries (blockOffset offset : Nat) (groups : List FramedGroup) :
    (builder.folderEntries blockOffset offset groups).flatMap FolderEntry.files =
      (placeFiles offset (groups.flatMap FramedGroup.files)).map builder.fileEntry := by
  induction groups generalizing blockOffset offset with
  | nil => rfl
  | cons group groups ih =>
      rw [folderEntries, List.flatMap_cons, List.flatMap_cons, ih, placeFiles_append,
        List.map_append]

/-- A placed file whose record can be written. -/
structure Recordable (placed : PlacedFile) : Prop where
  small : placed.framed.storedLength < flipBit
  reachable : placed.offset < UInt32.size

theorem word32_eq_ok {archive : String} {value : Nat} {word : UInt32}
    (succeeded : word32 archive value = .ok word) :
    word = UInt32.ofNat value ∧ value < UInt32.size := by
  obtain ⟨fits, rfl⟩ := Outcome.ite_eq_ok_iff.mp succeeded
  exact ⟨rfl, fits⟩

theorem fileRecord_eq_ok {offset : Nat} {framed : FramedFile} {bytes : Bytes}
    (succeeded : builder.fileRecord offset framed = .ok bytes) :
    bytes = (builder.fileEntry ⟨offset, framed⟩).record ∧ Recordable ⟨offset, framed⟩ := by
  unfold fileRecord at succeeded
  simp only at succeeded
  split at succeeded
  · cases succeeded
  · next small =>
      obtain ⟨word, offsetFits, equal⟩ := Outcome.bind_eq_ok_iff.mp succeeded
      obtain ⟨rfl, reachable⟩ := word32_eq_ok offsetFits
      cases equal
      exact ⟨rfl, Nat.lt_of_not_le small, reachable⟩

theorem fileRecords_eq_ok {offset next : Nat} {files : List FramedFile} {bytes : Bytes}
    (succeeded : builder.fileRecords offset files = .ok (bytes, next)) :
    bytes = ((placeFiles offset files).map builder.fileEntry).flatMap FileEntry.record ∧
      next = offset + (filesData files).length ∧
      ∀ placed ∈ placeFiles offset files, Recordable placed := by
  induction files generalizing offset bytes with
  | nil =>
      cases succeeded
      exact ⟨rfl, rfl, by simp [placeFiles]⟩
  | cons framed files ih =>
      obtain ⟨record, first, others⟩ := Outcome.bind_eq_ok_iff.mp succeeded
      obtain ⟨⟨records, last⟩, further, equal⟩ := Outcome.bind_eq_ok_iff.mp others
      cases equal
      obtain ⟨rfl, recordable⟩ := fileRecord_eq_ok first
      obtain ⟨rfl, lastEq, allRecordable⟩ := ih further
      refine ⟨rfl, ?_, ?_⟩
      · rw [lastEq, filesData_cons, List.length_append, framed.length_data, Nat.add_assoc]
      · intro placed member
        rcases List.mem_cons.mp member with rfl | later
        · exact recordable
        · exact allRecordable placed later

theorem block_folderEntry (group : FramedGroup) (name : Bytes) (named : group.Named name)
    (hash offset : UInt64) (files : List FileEntry) :
    FolderEntry.block builder.flags ⟨hash, offset, group.name, files⟩ =
      builder.folderName group ++ files.flatMap FileEntry.record := by
  unfold FolderEntry.block FolderEntry.prefixedName folderName
  rw [named.nameEq, named.nameBytesEq]

theorem folderBlocks_eq_ok (blockOffset : Nat) {offset : Nat} {groups : List FramedGroup}
    {bytes : Bytes} (named : ∀ group ∈ groups, ∃ name, group.Named name)
    (succeeded : builder.folderBlocks offset groups = .ok bytes) :
    bytes = (builder.folderEntries blockOffset offset groups).flatMap
        (FolderEntry.block builder.flags) ∧
      ∀ placed ∈ placeFiles offset (groups.flatMap FramedGroup.files), Recordable placed := by
  induction groups generalizing blockOffset offset bytes with
  | nil =>
      cases succeeded
      exact ⟨rfl, by simp [placeFiles]⟩
  | cons group groups ih =>
      obtain ⟨⟨records, next⟩, first, others⟩ := Outcome.bind_eq_ok_iff.mp succeeded
      obtain ⟨blocks, further, equal⟩ := Outcome.bind_eq_ok_iff.mp others
      cases equal
      obtain ⟨name, groupNamed⟩ := named group (by simp)
      obtain ⟨rfl, rfl, recordable⟩ := fileRecords_eq_ok first
      obtain ⟨rfl, allRecordable⟩ := ih (blockOffset + builder.blockLength group)
        (fun other member => named other (by simp [member])) further
      refine ⟨?_, ?_⟩
      · rw [folderEntries, List.flatMap_cons, block_folderEntry group name groupNamed]
      · intro placed member
        rw [List.flatMap_cons, placeFiles_append] at member
        rcases List.mem_append.mp member with here | later
        · exact recordable placed here
        · exact allRecordable placed later

/-- The offset in a folder record, as the builder writes it in the wide and the narrow form. -/
theorem storedOffset_sse (hash : UInt64) (offset : Nat) (name : Bytes) (files : List FileEntry) :
    FolderEntry.storedOffset .sse ⟨hash, UInt64.ofNat offset, name, files⟩ =
      Bytes.zeros 4 ++ LittleEndian.encode 8 offset := by
  have wide : Bytes.ofWord64 (UInt64.ofNat offset) = LittleEndian.encode 8 offset := by
    rw [Bytes.ofWord64, UInt64.toNat_ofNat']
    exact LittleEndian.encode_mod 8 offset
  rw [FolderEntry.storedOffset, wide]

theorem encode_four_of_lt {offset : Nat} (fits : offset < UInt32.size) :
    Bytes.ofWord32 (UInt32.ofNat offset) =
      LittleEndian.encode 4 (UInt64.ofNat offset).toNat := by
  have small : offset < UInt64.size := by
    unfold UInt32.size at fits
    unfold UInt64.size
    omega
  rw [Bytes.ofWord32, UInt32.toNat_ofNat_of_lt' fits, UInt64.toNat_ofNat_of_lt' small]

theorem folderRecords_cons_eq_ok {blockOffset : Nat} {group : FramedGroup}
    {groups : List FramedGroup} {bytes : Bytes}
    (succeeded : builder.folderRecords blockOffset (group :: groups) = .ok bytes)
    (name : Bytes) {files : List FileEntry} (count : files.length = group.files.length) :
    ∃ records, builder.folderRecords (blockOffset + builder.blockLength group) groups =
        .ok records ∧
      bytes = FolderEntry.record builder.version
        ⟨group.hash, UInt64.ofNat blockOffset, name, files⟩ ++ records ∧
      (builder.version ≠ .sse → blockOffset < UInt32.size) := by
  rw [folderRecords] at succeeded
  rw [FolderEntry.record, count]
  cases version : builder.version with
  | sse =>
      simp only [version] at succeeded
      obtain ⟨record, recordEq, others⟩ := Outcome.bind_eq_ok_iff.mp succeeded
      obtain ⟨records, further, equal⟩ := Outcome.bind_eq_ok_iff.mp others
      cases recordEq
      cases equal
      refine ⟨records, further, ?_, fun wide => absurd rfl wide⟩
      rw [storedOffset_sse]
      simp only [List.append_assoc]
  | tes4 | fo3 =>
      simp only [version] at succeeded
      obtain ⟨word, offsetFits, later⟩ := Outcome.bind_eq_ok_iff.mp succeeded
      obtain ⟨record, recordEq, others⟩ := Outcome.bind_eq_ok_iff.mp later
      obtain ⟨records, further, equal⟩ := Outcome.bind_eq_ok_iff.mp others
      cases recordEq
      cases equal
      obtain ⟨rfl, reachable⟩ := word32_eq_ok offsetFits
      exact ⟨records, further, by rw [encode_four_of_lt reachable]; rfl, fun _ => reachable⟩

theorem folderRecords_eq_ok {blockOffset : Nat} (offset : Nat) {groups : List FramedGroup}
    {bytes : Bytes} (succeeded : builder.folderRecords blockOffset groups = .ok bytes) :
    bytes = (builder.folderEntries blockOffset offset groups).flatMap
      (FolderEntry.record builder.version) := by
  induction groups generalizing blockOffset offset bytes with
  | nil =>
      cases succeeded
      rfl
  | cons group groups ih =>
      have count : ((placeFiles offset group.files).map builder.fileEntry).length =
          group.files.length := by
        rw [List.length_map, length_placeFiles]
      obtain ⟨records, further, rfl, -⟩ := folderRecords_cons_eq_ok succeeded group.name count
      rw [ih (offset + (filesData group.files).length) further, folderEntries, List.flatMap_cons]

theorem fileNames_eq (blockOffset offset : Nat) (groups : List FramedGroup) :
    builder.fileNames groups =
      nameBlock ((builder.folderEntries blockOffset offset groups).flatMap
        FolderEntry.files) := by
  have flat : builder.fileNames groups =
      (groups.flatMap FramedGroup.files).flatMap builder.fileName :=
    List.flatMap_assoc.symm
  rw [flat, files_folderEntries, nameBlock]
  generalize groups.flatMap FramedGroup.files = files
  induction files generalizing offset with
  | nil => rfl
  | cons framed files ih =>
      rw [List.flatMap_cons, placeFiles, List.map_cons, List.flatMap_cons, ih]
      rfl

theorem fileData_eq_ok {framed : FramedFile} {bytes : Bytes}
    (succeeded : builder.fileData framed = .ok bytes) :
    bytes = framed.data ∧
      (framed.file.compressed → framed.file.unpackedLength < UInt32.size) := by
  unfold fileData at succeeded
  unfold FramedFile.data
  cases compressed : framed.file.compressed with
  | true =>
      rw [compressed, if_pos rfl] at succeeded
      obtain ⟨word, sizeFits, equal⟩ := Outcome.bind_eq_ok_iff.mp succeeded
      cases equal
      obtain ⟨rfl, sized⟩ := word32_eq_ok sizeFits
      rw [if_pos rfl, List.append_assoc]
      exact ⟨rfl, fun _ => sized⟩
  | false =>
      rw [compressed, if_neg Bool.false_ne_true] at succeeded
      cases succeeded
      exact ⟨rfl, by simp⟩

theorem filesData_eq_ok {files : List FramedFile} {data : List Bytes}
    (succeeded : files.mapM builder.fileData = .ok data) :
    data.flatten = filesData files ∧
      ∀ framed ∈ files, framed.file.compressed →
        framed.file.unpackedLength < UInt32.size := by
  constructor
  · rw [Outcome.mapM_eq_ok (fun framed _ found dataOk => (fileData_eq_ok dataOk).1) succeeded]
    rfl
  · intro framed member
    obtain ⟨bytes, written⟩ := Outcome.exists_ok_of_mapM_eq_ok succeeded member
    exact (fileData_eq_ok written).2

/-! ## The whole archive -/

/-- The offset in the first folder record. -/
def firstBlockOffset (builder : Builder) (groups : List FramedGroup) : Nat :=
  headerLength + builder.version.folderRecordLength * groups.length +
    (builder.fileNames groups).length

/-- Where the data of the first file begin. -/
def firstDataOffset (builder : Builder) (groups : List FramedGroup) : Nat :=
  headerLength + builder.version.folderRecordLength * groups.length +
    groups.foldr (fun group total => builder.blockLength group + total) 0 +
    (if builder.flags.hasFileNames then builder.fileNames groups else []).length

def entries (builder : Builder) (groups : List FramedGroup) : List FolderEntry :=
  builder.folderEntries (builder.firstBlockOffset groups) (builder.firstDataOffset groups) groups

def placedFiles (builder : Builder) (groups : List FramedGroup) : List PlacedFile :=
  placeFiles (builder.firstDataOffset groups) (groups.flatMap FramedGroup.files)

theorem length_entries (blockOffset offset : Nat) (groups : List FramedGroup) :
    (builder.folderEntries blockOffset offset groups).length = groups.length := by
  induction groups generalizing blockOffset offset with
  | nil => rfl
  | cons group groups ih => rw [folderEntries, List.length_cons, List.length_cons, ih]

theorem length_blocks (blockOffset offset : Nat) {groups : List FramedGroup}
    (named : ∀ group ∈ groups, ∃ name, group.Named name) :
    ((builder.folderEntries blockOffset offset groups).flatMap
        (FolderEntry.block builder.flags)).length =
      groups.foldr (fun group total => builder.blockLength group + total) 0 := by
  induction groups generalizing blockOffset offset with
  | nil => rfl
  | cons group groups ih =>
      obtain ⟨name, groupNamed⟩ := named group (by simp)
      rw [folderEntries, List.flatMap_cons, List.length_append,
        ih _ _ (fun other member => named other (by simp [member])),
        block_folderEntry group name groupNamed, List.length_append, FileEntry.length_records,
        List.length_map, length_placeFiles, List.foldr_cons, blockLength]

/-- The data of the first file begin behind the directory. -/
theorem firstDataOffset_eq {groups : List FramedGroup}
    (named : ∀ group ∈ groups, ∃ name, group.Named name) :
    builder.firstDataOffset groups =
      headerLength + (directory builder.version builder.flags (builder.entries groups)).length := by
  have names := builder.fileNames_eq (builder.firstBlockOffset groups)
    (builder.firstDataOffset groups) groups
  unfold directory entries
  rw [List.length_append, List.length_append, FolderEntry.length_records, length_entries,
    length_blocks _ _ named, ← names]
  rw [firstDataOffset]
  omega

/-- What the header of an archive with the given groups says. -/
structure HeaderOf (builder : Builder) (groups : List FramedGroup) (header : Header) : Prop where
  version : header.version = builder.version
  folderRecordOffset : header.folderRecordOffset.toNat = headerLength
  archiveFlags : header.archiveFlags = builder.flags
  folderCount : header.folderCount.toNat = groups.length
  fileCount : header.fileCount.toNat = builder.files.length
  fileNamesLength : header.fileNamesLength.toNat = (builder.fileNames groups).length
  fileFlags : header.fileFlags = builder.fileFlags

theorem header_eq_ok {groups : List FramedGroup} {header : Header}
    (succeeded : builder.header groups = .ok header) : builder.HeaderOf groups header := by
  obtain ⟨folderCount, folders, others⟩ := Outcome.bind_eq_ok_iff.mp succeeded
  obtain ⟨fileCount, files, others⟩ := Outcome.bind_eq_ok_iff.mp others
  obtain ⟨folderNamesLength, -, others⟩ := Outcome.bind_eq_ok_iff.mp others
  obtain ⟨fileNamesLength, names, equal⟩ := Outcome.bind_eq_ok_iff.mp others
  cases equal
  obtain ⟨rfl, foldersFit⟩ := word32_eq_ok folders
  obtain ⟨rfl, filesFit⟩ := word32_eq_ok files
  obtain ⟨rfl, namesFit⟩ := word32_eq_ok names
  exact {
    version := rfl
    folderRecordOffset := rfl
    archiveFlags := rfl
    folderCount := UInt32.toNat_ofNat_of_lt' foldersFit
    fileCount := UInt32.toNat_ofNat_of_lt' filesFit
    fileNamesLength := UInt32.toNat_ofNat_of_lt' namesFit
    fileFlags := rfl }

/-- The bytes of an archive are its header, its directory and the data of its files, and all of
its files can be recorded. -/
theorem write_eq_ok {groups : List FramedGroup} {bytes : Bytes}
    (named : ∀ group ∈ groups, ∃ name, group.Named name)
    (succeeded : builder.write groups = .ok bytes) :
    ∃ header : Header, builder.HeaderOf groups header ∧
      bytes = header.write ++
        (directory builder.version builder.flags (builder.entries groups) ++
          filesData (groups.flatMap FramedGroup.files)) ∧
      (∀ placed ∈ builder.placedFiles groups, Recordable placed) ∧
      ∀ framed ∈ groups.flatMap FramedGroup.files, framed.file.compressed →
        framed.file.unpackedLength < UInt32.size := by
  obtain ⟨header, headerOk, others⟩ := Outcome.bind_eq_ok_iff.mp succeeded
  obtain ⟨records, recordsOk, others⟩ := Outcome.bind_eq_ok_iff.mp others
  obtain ⟨blocks, blocksOk, others⟩ := Outcome.bind_eq_ok_iff.mp others
  obtain ⟨data, dataOk, equal⟩ := Outcome.bind_eq_ok_iff.mp others
  obtain ⟨rfl, recordable⟩ :=
    folderBlocks_eq_ok (builder.firstBlockOffset groups) named blocksOk
  have recordsEq := folderRecords_eq_ok (builder.firstDataOffset groups) recordsOk
  obtain ⟨dataEq, sized⟩ := filesData_eq_ok dataOk
  refine ⟨header, header_eq_ok headerOk, ?_, recordable, sized⟩
  have names := builder.fileNames_eq (builder.firstBlockOffset groups)
    (builder.firstDataOffset groups) groups
  cases equal
  unfold directory entries
  rw [recordsEq, dataEq, ← names]
  simp only [List.append_assoc]
  rfl

end Builder
end Tes4
end GameArchive
