import GameArchive.Proofs.Tes4.Directory

/-!
# Listing any directory

The directories that a builder writes are sorted, have no empty folder and lay the data in a row
behind them.  The reader asks for none of that.  This module takes any list of folders, with any
hashes and offsets, as the layout writes it down, and proves what is listed: the folders and files
in their order, each file with the name at its place in the block of names, whatever folders stand
before it.  The listing fails exactly when the data of a file reach beyond the end of the archive.
-/

namespace GameArchive
namespace Tes4

/-- The mask of the flip bit takes away its value where it is set. -/
theorem and_flipMask {number : Nat} (small : number < UInt32.size) :
    number &&& 0xBFFFFFFF = if number.testBit 30 then number - flipBit else number := by
  unfold UInt32.size at small
  have flip : flipBit = 2 ^ 30 := rfl
  have parts : (if number.testBit 30 then number - flipBit else number) =
      2 ^ 31 * (number / 2 ^ 31) + number % 2 ^ 30 := by
    rw [Nat.testBit_eq_decide_div_mod_eq, flip]
    simp only [decide_eq_true_eq]
    split <;> omega
  have mask : (0xBFFFFFFF : Nat) = 2 ^ 31 * 1 + (2 ^ 30 - 1) := rfl
  rw [parts]
  apply Nat.eq_of_testBit_eq
  intro index
  rw [Nat.testBit_and, mask, Nat.testBit_two_pow_mul_add _ (by omega),
    Nat.testBit_two_pow_mul_add _ (by omega)]
  by_cases low : index < 31
  · rw [if_pos low, if_pos low, Nat.testBit_two_pow_sub_one, Nat.testBit_mod_two_pow,
      Bool.and_comm]
  · obtain ⟨above, rfl⟩ := Nat.exists_eq_add_of_le (Nat.le_of_not_lt low)
    rw [if_neg low, if_neg low, Nat.add_sub_cancel_left, Nat.testBit_div_two_pow,
      Nat.add_comm above]
    cases above with
    | zero => simp
    | succ above =>
        have word : 4294967296 = 2 ^ 32 := rfl
        have beyond : number.testBit (31 + (above + 1)) = false :=
          Nat.testBit_lt_two_pow
            (Nat.lt_of_lt_of_le (word ▸ small) (Nat.pow_le_pow_right (by decide) (by omega)))
        simp [beyond]

/-- Where the window of a file ends: behind as many bytes as its size field says without the flip
bit. -/
def FileEntry.windowEnd (entry : FileEntry) : Nat :=
  entry.offset.toNat + (entry.sizeField &&& ~~~0x40000000).toNat

theorem FileEntry.windowEnd_eq (entry : FileEntry) : entry.windowEnd = entry.dataEnd := by
  have mask : (~~~0x40000000 : UInt32).toNat = 0xBFFFFFFF := rfl
  rw [windowEnd, dataEnd, UInt32.toNat_and, mask, and_flipMask entry.sizeField.toNat_lt]

/-- Where the window of a listed file ends. -/
def FileRecord.windowEnd (file : FileRecord) : Nat :=
  file.offset.toNat + (file.sizeField &&& ~~~0x40000000).toNat

theorem FileRecord.windowEnd_eq (file : FileRecord) : file.windowEnd = file.dataEnd :=
  FileEntry.windowEnd_eq ⟨file.hash, file.sizeField, file.offset, []⟩

/-- A folder as it is stored, with the word of a wide record that no reader looks at. -/
structure StoredFolder extends FolderEntry where
  unknown : UInt32
  deriving Repr, DecidableEq

namespace StoredFolder

def record (version : Version) (stored : StoredFolder) : Bytes :=
  Bytes.ofWord64 stored.hash ++ (Bytes.ofWord32 (UInt32.ofNat stored.files.length) ++
    match version with
    | .sse => Bytes.ofWord32 stored.unknown ++ Bytes.ofWord64 stored.offset
    | .tes4 | .fo3 => LittleEndian.encode 4 stored.offset.toNat)

/-- The fields of the record and the length of the name hold what they are given. -/
structure Storable (version : Version) (stored : StoredFolder) : Prop where
  shortName : stored.name.length ≤ 254
  fewFiles : stored.files.length < UInt32.size
  narrowOffset : version ≠ .sse → stored.offset.toNat < UInt32.size

theorem length_record (version : Version) (stored : StoredFolder) :
    (stored.record version).length = version.folderRecordLength := by
  cases version <;> simp [record, Version.folderRecordLength]

theorem ofBytes_record (version : Version) (stored : StoredFolder) :
    FolderRecord.ofBytes version (stored.record version) =
      stored.toFolderEntry.toRecord version := by
  cases version with
  | sse =>
      have hash : (stored.record .sse).window 0 8 = Bytes.ofWord64 stored.hash :=
        Bytes.window_append _ _ (by simp)
      have count : (stored.record .sse).window 8 4 =
          Bytes.ofWord32 (UInt32.ofNat stored.files.length) :=
        Bytes.window_field _ _ rfl (by simp) (by simp)
      have offset : (stored.record .sse).window 16 8 = Bytes.ofWord64 stored.offset := by
        have row : stored.record .sse = Bytes.ofWord64 stored.hash ++
            (Bytes.ofWord32 (UInt32.ofNat stored.files.length) ++ Bytes.ofWord32 stored.unknown) ++
              (Bytes.ofWord64 stored.offset ++ []) := by
          simp only [record, List.append_assoc, List.append_nil]
        exact Bytes.window_field _ _ row (by simp) (by simp)
      simp only [FolderRecord.ofBytes, hash, count, offset, Bytes.decode_ofWord64,
        Bytes.decode_ofWord32, UInt64.ofNat_toNat, UInt32.ofNat_toNat]
      rfl
  | tes4 =>
      rw [← FolderRecord.ofBytes_record, FolderEntry.record, List.append_assoc]
      rfl
  | fo3 =>
      rw [← FolderRecord.ofBytes_record, FolderEntry.record, List.append_assoc]
      rfl

theorem folderRecords_flatMap (version : Version) (stored : List StoredFolder) :
    folderRecords version stored.length (stored.flatMap (record version)) =
      (stored.map toFolderEntry).map (FolderEntry.toRecord version) := by
  induction stored with
  | nil => rfl
  | cons first others ih =>
      rw [List.length_cons, folderRecords, List.flatMap_cons,
        Bytes.take_append _ _ (first.length_record version),
        Bytes.drop_append _ _ (first.length_record version), ih, ofBytes_record, List.map_cons,
        List.map_cons]

end StoredFolder

/-! ## What is listed -/

/-- What the listing says of a file that stands at a place of a folder, behind some files of the
folders before. -/
structure ShowsFile (header : Header) (folder : Option String) (before place : Nat)
    (entry : FileEntry) (file : FileRecord) : Prop where
  hash : file.hash = entry.hash
  sizeField : file.sizeField = entry.sizeField
  offset : file.offset = entry.offset
  index : file.index = place
  overallIndex : file.overallIndex = before + place
  /-- The file goes by its own name, or by its hash where the flags say that there are no names, and
  stands below its folder where that has a name. -/
  path :
    let leaf :=
      if header.archiveFlags.hasFileNames then header.version.encoding.decode entry.name
      else Hexadecimal.renderPadded 16 entry.hash.toNat
    file.path =
      match folder with
      | some folder => if folder = "" then leaf else folder ++ "\\" ++ leaf
      | none => leaf

structure ShowsFolder (header : Header) (before : Nat) (stored : StoredFolder)
    (folder : Folder) : Prop where
  hash : folder.hash = stored.hash
  offset : folder.offset = stored.offset
  fileCount : folder.fileCount.toNat = stored.files.length
  name : folder.name =
    if header.archiveFlags.hasFolderNames then some (header.version.encoding.decode stored.name)
    else none
  length : folder.files.length = stored.files.length
  files : ∀ {index : Nat} {entry : FileEntry} {file : FileRecord},
    stored.files[index]? = some entry → folder.files[index]? = some file →
      ShowsFile header folder.name before index entry file

/-- The folders are listed in their order, each behind the files of those before. -/
structure Lists (header : Header) (stored : List StoredFolder) (folders : List Folder) :
    Prop where
  length : folders.length = stored.length
  folders : ∀ {position : Nat} {entry : StoredFolder} {folder : Folder},
    stored[position]? = some entry → folders[position]? = some folder →
      ShowsFolder header ((stored.take position).flatMap fun entry => entry.files).length entry
        folder

theorem getElem?_listFiles (header : Header) (folder : Option String)
    (start overallIndex index : Nat) (entries : List FileEntry) :
    (listFiles header folder start overallIndex entries)[index]? =
      entries[index]?.map (FileEntry.toRecord header folder (start + index)
        (overallIndex + index)) := by
  induction entries generalizing start overallIndex index with
  | nil => rfl
  | cons entry entries ih =>
      cases index with
      | zero => rfl
      | succ index =>
          rw [listFiles, List.getElem?_cons_succ, List.getElem?_cons_succ, ih,
            Nat.add_right_comm, Nat.add_right_comm overallIndex]
          rfl

theorem length_listFiles (header : Header) (folder : Option String) (start overallIndex : Nat)
    (entries : List FileEntry) :
    (listFiles header folder start overallIndex entries).length = entries.length := by
  induction entries generalizing start overallIndex with
  | nil => rfl
  | cons entry entries ih => rw [listFiles, List.length_cons, List.length_cons, ih]

theorem showsFile_toRecord (header : Header) (folder : Option String) (before index : Nat)
    (entry : FileEntry) :
    ShowsFile header folder before index entry
      (entry.toRecord header folder index (before + index)) := by
  refine ⟨rfl, rfl, rfl, rfl, rfl, ?_⟩
  simp only [FileEntry.toRecord, filePath, Header.fileName?]
  by_cases named : header.archiveFlags.hasFileNames
  · simp only [if_pos named, Option.getD_some, String.isEmpty_iff]
    cases folder <;> rfl
  · simp only [if_neg named, Option.getD_none, String.isEmpty_iff]
    cases folder <;> rfl

theorem getElem?_listFolders (header : Header) (overallIndex position : Nat)
    (entries : List FolderEntry) :
    (listFolders header overallIndex entries)[position]? =
      entries[position]?.map fun entry =>
        let block := entry.toBlock header
        {
          hash := block.record.hash
          fileCount := block.record.fileCount
          offset := block.record.offset
          name := block.name
          files := listFiles header block.name 0
            (overallIndex + ((entries.take position).flatMap FolderEntry.files).length)
            entry.files } := by
  induction entries generalizing overallIndex position with
  | nil => rfl
  | cons entry entries ih =>
      cases position with
      | zero => rfl
      | succ position =>
          rw [listFolders, List.getElem?_cons_succ, List.getElem?_cons_succ, ih,
            List.take_succ_cons, List.flatMap_cons, List.length_append, Nat.add_assoc]

theorem length_listFolders (header : Header) (overallIndex : Nat) (entries : List FolderEntry) :
    (listFolders header overallIndex entries).length = entries.length := by
  induction entries generalizing overallIndex with
  | nil => rfl
  | cons entry entries ih => rw [listFolders, List.length_cons, List.length_cons, ih]

/-- A narrow offset is read back from its four bytes. -/
theorem StoredFolder.Storable.toRecord_offset {version : Version} {stored : StoredFolder}
    (storable : stored.Storable version) :
    (stored.toFolderEntry.toRecord version).offset = stored.offset := by
  have narrow : version ≠ .sse → stored.offset.toNat < LittleEndian.bound 4 :=
    storable.narrowOffset
  cases version with
  | sse => rfl
  | tes4 =>
      change UInt64.ofNat (stored.offset.toNat % LittleEndian.bound 4) = stored.offset
      rw [Nat.mod_eq_of_lt (narrow (by decide)), UInt64.ofNat_toNat]
  | fo3 =>
      change UInt64.ofNat (stored.offset.toNat % LittleEndian.bound 4) = stored.offset
      rw [Nat.mod_eq_of_lt (narrow (by decide)), UInt64.ofNat_toNat]

theorem lists_listFolders (header : Header) {stored : List StoredFolder}
    (storable : ∀ folder ∈ stored, folder.Storable header.version) :
    Lists header stored (listFolders header 0 (stored.map StoredFolder.toFolderEntry)) := by
  refine ⟨by rw [length_listFolders, List.length_map], ?_⟩
  intro position entry folder there listed
  have fits := storable entry (List.mem_of_getElem? there)
  rw [getElem?_listFolders, List.getElem?_map, there] at listed
  simp only [Option.map_some, Option.some.injEq] at listed
  subst listed
  have before : ((stored.map StoredFolder.toFolderEntry).take position).flatMap FolderEntry.files =
      (stored.take position).flatMap fun entry => entry.files := by
    rw [← List.map_take, List.flatMap_map]
  refine ⟨rfl, fits.toRecord_offset, UInt32.toNat_ofNat_of_lt' fits.fewFiles, rfl,
    length_listFiles .., ?_⟩
  intro index file record fileThere recordThere
  rw [getElem?_listFiles, fileThere] at recordThere
  simp only [Option.map_some, Option.some.injEq] at recordThere
  subst recordThere
  rw [before, Nat.zero_add, Nat.zero_add]
  exact showsFile_toRecord ..

/-! ## The listing of an archive -/

/-- The directory of some folders: their records, then the name and the file records of each, then
the block of file names. -/
def layout (version : Version) (flags : Flags) (stored : List StoredFolder) : Bytes :=
  stored.flatMap (StoredFolder.record version) ++
    (stored.flatMap (fun folder => folder.block flags) ++
      if flags.hasFileNames then nameBlock (stored.flatMap fun folder => folder.files) else [])

/-- The archive holds the directory where its header says, and its header tells the counts. -/
structure Stores (archive : Archive) (stored : List StoredFolder) : Prop where
  holds : ∃ rest, archive.source.bytes.drop archive.header.folderRecordOffset.toNat =
    layout archive.header.version archive.header.archiveFlags stored ++ rest
  folderCount : archive.header.folderCount.toNat = stored.length
  namesLength : archive.header.archiveFlags.hasFileNames →
    archive.header.fileNamesLength.toNat =
      (nameBlock (stored.flatMap fun folder => folder.files)).length
  storable : ∀ folder ∈ stored, folder.Storable archive.header.version
  nameable : archive.header.archiveFlags.hasFileNames →
    ∀ file ∈ stored.flatMap (fun folder => folder.files), file.Nameable

theorem StoredFolder.Storable.toFolderEntry {version : Version} {stored : StoredFolder}
    (storable : stored.Storable version) : stored.toFolderEntry.Storable :=
  ⟨Nat.lt_succ_of_le (Nat.succ_le_succ storable.shortName), storable.fewFiles⟩

theorem Stores.folders_eq {archive : Archive} {stored : List StoredFolder}
    (stores : Stores archive stored) :
    let folders := listFolders archive.header 0 (stored.map StoredFolder.toFolderEntry)
    archive.folders = withinEnd archive.source (folders.flatMap Folder.files) folders := by
  have blocks : stored.flatMap (fun folder => folder.block archive.header.archiveFlags) =
      (stored.map StoredFolder.toFolderEntry).flatMap
        (FolderEntry.block archive.header.archiveFlags) := by rw [List.flatMap_map]
  have files : (stored.flatMap fun folder => folder.files) =
      (stored.map StoredFolder.toFolderEntry).flatMap FolderEntry.files := by
    rw [List.flatMap_map]
  obtain ⟨rest, holds⟩ := stores.holds
  have namesLength := stores.namesLength
  have nameable := stores.nameable
  have recordsLength := Bytes.length_flatMap_of_forall fun folder (_ : folder ∈ stored) =>
    folder.length_record archive.header.version
  have recordsEq := StoredFolder.folderRecords_flatMap archive.header.version stored
  rw [layout, List.append_assoc, List.append_assoc, blocks, files] at holds
  rw [files] at namesLength nameable
  have named := readFileNames_append archive.source.name nameable namesLength rest
  rw [← List.length_map StoredFolder.toFolderEntry] at recordsLength recordsEq
  have listed := Archive.folders_eq holds recordsLength recordsEq
    (stores.folderCount.trans (List.length_map _).symm) ?_ named
  · rw [listNamedFolders_fileNames] at listed
    exact listed
  · intro entry member
    obtain ⟨folder, there, rfl⟩ := List.mem_map.mp member
    exact (stores.storable folder there).toFolderEntry

/-- A directory is listed exactly when the data of all its files lie inside the archive, and then
the listing shows its folders and files in their order.  Otherwise the failure tells the first file
of such a listing whose data do not. -/
theorem lists_stored {archive : Archive} {stored : List StoredFolder}
    (stores : Stores archive stored) :
    ((∃ folders, archive.folders = .ok folders) ↔
      ∀ folder ∈ stored, ∀ file ∈ folder.files,
        file.windowEnd ≤ archive.source.bytes.length) ∧
    (∀ folders, archive.folders = .ok folders → Lists archive.header stored folders) ∧
    ∀ failure, archive.folders = .error failure →
      ∃ folders front file back, Lists archive.header stored folders ∧
        folders.flatMap Folder.files = front ++ file :: back ∧
        (∀ earlier ∈ front, earlier.dataEnd ≤ archive.source.bytes.length) ∧
        archive.source.bytes.length < file.dataEnd ∧
        failure = .invalidFormat archive.source.name (.entryBeyondEnd file.path) := by
  have lists := lists_listFolders archive.header stores.storable
  have ends := map_dataEnd_listNamedFolders archive.header 0 (archive.header.fileNames
    ((stored.map StoredFolder.toFolderEntry).flatMap FolderEntry.files))
    (stored.map StoredFolder.toFolderEntry)
  rw [listNamedFolders_fileNames, List.flatMap_map] at ends
  rw [stores.folders_eq]
  refine ⟨?_, ?_, ?_⟩
  · simp only [withinEnd_eq_ok_iff ends, List.forall_mem_map, List.mem_flatMap,
      FileEntry.windowEnd_eq]
    constructor
    · rintro ⟨folders, within, -⟩ folder there file member
      exact within file ⟨folder, there, member⟩
    · intro within
      exact ⟨_, fun file ⟨folder, there, member⟩ => within folder there file member, rfl⟩
  · intro folders listed
    obtain ⟨-, rfl⟩ := (withinEnd_eq_ok_iff ends).mp listed
    exact lists
  · intro failure failed
    obtain ⟨front, file, back, row, within, beyond, equal⟩ := withinEnd_eq_error_iff.mp failed
    exact ⟨_, front, file, back, lists, row, within, beyond, equal⟩

/-- An empty folder and one without a name, whose files overlap. -/
def scattered : List StoredFolder := [
  { hash := 9, offset := 0x100000000, name := [0x62], files := [], unknown := 7 },
  { hash := 2, offset := 0, name := [], unknown := 0
    files := [⟨8, 0x40000003, 5, [0x79]⟩, ⟨1, 3, 4, [0x78, 0x79]⟩] }]

def scatteredArchive : Archive where
  source := ⟨"a.bsa", Bytes.zeros 40 ++ layout .sse ⟨3⟩ scattered⟩
  header := {
    version := .sse
    folderRecordOffset := 40
    archiveFlags := ⟨3⟩
    folderCount := 2
    fileCount := 2
    folderNamesLength := 0
    fileNamesLength := 5
    fileFlags := 0 }

theorem lists_stored_scattered :
    Stores scatteredArchive scattered ∧
      ∃ folders, scatteredArchive.folders = .ok folders ∧
        Lists scatteredArchive.header scattered folders := by
  have stores : Stores scatteredArchive scattered := {
    holds := ⟨[], by decide⟩
    folderCount := rfl
    namesLength := fun _ => rfl
    storable := by
      intro folder member
      simp only [scattered, List.mem_cons, List.not_mem_nil, or_false] at member
      rcases member with rfl | rfl
      · exact ⟨by decide, by decide, by decide⟩
      · exact ⟨by decide, by decide, by decide⟩
    nameable := by
      unfold FileEntry.Nameable
      decide +kernel }
  obtain ⟨succeeds, lists, -⟩ := lists_stored stores
  obtain ⟨folders, listed⟩ := succeeds.mpr (by decide +kernel)
  exact ⟨stores, folders, listed, lists folders listed⟩

end Tes4
end GameArchive
