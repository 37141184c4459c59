import GameArchive.Proofs.Repetition
import GameArchive.Proofs.Tes4.Listing
import GameArchive.Proofs.Tes4.Regrouping
import GameArchive.Proofs.Tes4.RoundTrip

/-!
# The offsets of an archive that was built

A reader of this library comes to the block of a folder by reading the blocks before it, and never
looks at the offset in the folder record.  Who searches an archive goes by that offset, from which
the length of the block of file names is taken away.  This module proves that both come to the same
place, for all flags, and that the windows of the files lie one behind the other from the end of the
directory to the end of the archive.
-/

namespace GameArchive
namespace Tes4

/-! ## Where a reader stands -/

/-- What is left to read when the folder records and the blocks of the first `count` folders have
been read. -/
def Archive.behindBlocks (archive : Archive) (count : Nat) : Except ExtractError Bytes := do
  let header := archive.header
  let name := archive.source.name
  let folderCount := header.folderCount.toNat
  let (records, bytes) ← readBlock name none (header.version.folderRecordLength * folderCount)
    (archive.source.bytes.drop header.folderRecordOffset.toNat)
  let (_, bytes) ← readFolderBlocks name header
    ((folderRecords header.version folderCount records).take count) bytes
  pure bytes

/-- What is left to read when the whole directory has been read. -/
def Archive.behindDirectory (archive : Archive) : Except ExtractError Bytes := do
  let bytes ← archive.behindBlocks archive.header.folderCount.toNat
  if archive.header.archiveFlags.hasFileNames then
    let (_, bytes) ← readBlock archive.source.name none archive.header.fileNamesLength.toNat bytes
    pure bytes
  else
    pure bytes

/-- A directory, cut behind the blocks of the first `count` folders. -/
theorem directory_append (version : Version) (flags : Flags) (entries : List FolderEntry)
    (count : Nat) (rest : Bytes) :
    directory version flags entries ++ rest =
      entries.flatMap (FolderEntry.record version) ++
        ((entries.take count).flatMap (FolderEntry.block flags) ++
          ((entries.drop count).flatMap (FolderEntry.block flags) ++
            ((if flags.hasFileNames then nameBlock (entries.flatMap FolderEntry.files) else []) ++
              rest))) := by
  have blocks : entries.flatMap (FolderEntry.block flags) =
      (entries.take count).flatMap (FolderEntry.block flags) ++
        (entries.drop count).flatMap (FolderEntry.block flags) := by
    rw [← List.flatMap_append, List.take_append_drop]
  rw [directory, blocks]
  simp only [List.append_assoc]

section Directory

variable {archive : Archive} {entries : List FolderEntry} {rest : Bytes}
  (holds : archive.source.bytes.drop archive.header.folderRecordOffset.toNat =
    directory archive.header.version archive.header.archiveFlags entries ++ rest)

include holds in
/-- Behind the folder records and some blocks stand the other blocks. -/
theorem Archive.drop_of_directory (count : Nat) :
    archive.source.bytes.drop (archive.header.folderRecordOffset.toNat +
        (archive.header.version.folderRecordLength * entries.length +
          ((entries.take count).flatMap
            (FolderEntry.block archive.header.archiveFlags)).length)) =
      (entries.drop count).flatMap (FolderEntry.block archive.header.archiveFlags) ++
        ((if archive.header.archiveFlags.hasFileNames then
          nameBlock (entries.flatMap FolderEntry.files) else []) ++ rest) := by
  have recordsLength := FolderEntry.length_records archive.header.version entries
  rw [← List.drop_drop, holds, directory_append _ _ _ count, ← List.append_assoc]
  exact Bytes.drop_append _ _ (by rw [List.length_append, recordsLength])

include holds in
theorem Archive.behindBlocks_of_directory
    (folderCount : archive.header.folderCount.toNat = entries.length)
    (storable : ∀ entry ∈ entries, entry.Storable) (count : Nat) :
    archive.behindBlocks count = .ok (archive.source.bytes.drop
      (archive.header.folderRecordOffset.toNat +
        (archive.header.version.folderRecordLength * entries.length +
          ((entries.take count).flatMap
            (FolderEntry.block archive.header.archiveFlags)).length))) := by
  have behind := Archive.drop_of_directory holds count
  have recordsEq := folderRecords_append archive.header.version entries []
  have recordsLength := FolderEntry.length_records archive.header.version entries
  rw [List.append_nil] at recordsEq
  rw [directory_append _ _ _ count] at holds
  unfold behindBlocks
  simp only
  rw [holds, folderCount, readBlock_append _ _ _ _ recordsLength, Outcome.ok_bind]
  simp only
  rw [recordsEq, ← List.map_take,
    readFolderBlocks_append _ _ fun entry member => storable entry (List.mem_of_mem_take member),
    behind]
  rfl

end Directory

/-! ## What stands at a place -/

/-- The bytes of the record of a listed file. -/
def FileRecord.bytes (file : FileRecord) : Bytes :=
  Bytes.ofWord64 file.hash ++ Bytes.ofWord32 file.sizeField ++ Bytes.ofWord32 file.offset

/-- The block of the folder at a position of the listing begins at `start`. -/
structure Archive.BlockAt (archive : Archive) (position : Nat) (folder : Folder)
    (start : Nat) : Prop where
  /-- The offset in the folder record counts the block of file names as well. -/
  offset : folder.offset.toNat = start + archive.header.fileNamesLength.toNat
  inside : start ≤ archive.source.bytes.length
  /-- Who has read the blocks before stands there. -/
  met : archive.behindBlocks position = .ok (archive.source.bytes.drop start)
  /-- The name of the folder stands there, and its file records behind that. -/
  block : ∃ rest,
    readFolderName archive.source.name archive.header (archive.source.bytes.drop start) =
      .ok (folder.name, folder.files.flatMap FileRecord.bytes ++ rest)

/-- The windows of some files fill the bytes from `start` to `stop` one after the other. -/
def Tile : (start stop : Nat) → List FileRecord → Prop
  | start, stop, [] => start = stop
  | start, stop, file :: files =>
      file.offset.toNat = start ∧ Tile file.windowEnd stop files

/-- A file is listed with what its record says. -/
structure FileEntry.ShownBy (entry : FileEntry) (file : FileRecord) : Prop where
  hash : file.hash = entry.hash
  sizeField : file.sizeField = entry.sizeField
  offset : file.offset = entry.offset

/-- A folder is listed with what its record and its block say, whatever its files are called. -/
structure FolderEntry.ShownBy (header : Header) (entry : FolderEntry) (folder : Folder) :
    Prop where
  hash : folder.hash = entry.hash
  offset : folder.offset = (entry.toRecord header.version).offset
  name : folder.name = (entry.toBlock header).name
  files : List.Forall₂ FileEntry.ShownBy entry.files folder.files

theorem shownBy_listNamedFiles (folder : Option String) (index overallIndex : Nat)
    (names : List String) (entries : List FileEntry) :
    List.Forall₂ FileEntry.ShownBy entries
      (listNamedFiles folder index overallIndex names entries) := by
  induction entries generalizing index overallIndex names with
  | nil => exact .nil
  | cons entry entries ih => exact .cons ⟨rfl, rfl, rfl⟩ (ih ..)

theorem shownBy_listNamedFolders (header : Header) (overallIndex : Nat) (names : List String)
    (entries : List FolderEntry) :
    List.Forall₂ (FolderEntry.ShownBy header) entries
      (listNamedFolders header overallIndex names entries) := by
  induction entries generalizing overallIndex names with
  | nil => exact .nil
  | cons entry entries ih =>
      exact .cons ⟨rfl, rfl, rfl, shownBy_listNamedFiles ..⟩ (ih ..)

theorem shownBy_flatMap_files {header : Header} {entries : List FolderEntry}
    {folders : List Folder} (shown : List.Forall₂ (FolderEntry.ShownBy header) entries folders) :
    List.Forall₂ FileEntry.ShownBy (entries.flatMap FolderEntry.files)
      (folders.flatMap Folder.files) :=
  List.rel_flatMap shown fun _ _ both => both.files

theorem FolderEntry.ShownBy.bytes_files {header : Header} {entry : FolderEntry} {folder : Folder}
    (shown : entry.ShownBy header folder) :
    folder.files.flatMap FileRecord.bytes = entry.files.flatMap FileEntry.record := by
  refine (flatMap_eq_of_forall₂ shown.files fun file record same => ?_).symm
  rw [FileEntry.record, FileRecord.bytes, same.hash, same.sizeField, same.offset]

namespace Builder

variable {builder : Builder}

/-! ## Blocks -/

/-- The length of the blocks of some folders. -/
def blocksLength (builder : Builder) (groups : List FramedGroup) : Nat :=
  groups.foldr (fun group total => builder.blockLength group + total) 0

theorem blocksLength_cons (group : FramedGroup) (groups : List FramedGroup) :
    builder.blocksLength (group :: groups) =
      builder.blockLength group + builder.blocksLength groups :=
  rfl

theorem blocksLength_take_le (position : Nat) (groups : List FramedGroup) :
    builder.blocksLength (groups.take position) ≤ builder.blocksLength groups := by
  induction groups generalizing position with
  | nil => exact Nat.le_of_eq (by rw [List.take_nil])
  | cons group groups ih =>
      cases position with
      | zero => exact Nat.zero_le _
      | succ position =>
          rw [List.take_succ_cons, blocksLength_cons, blocksLength_cons]
          exact Nat.add_le_add_left (ih position) _

theorem take_folderEntries (blockOffset offset position : Nat) (groups : List FramedGroup) :
    (builder.folderEntries blockOffset offset groups).take position =
      builder.folderEntries blockOffset offset (groups.take position) := by
  induction groups generalizing blockOffset offset position with
  | nil => rw [List.take_nil, folderEntries, List.take_nil]
  | cons group groups ih =>
      cases position with
      | zero => rfl
      | succ position => rw [folderEntries, List.take_succ_cons, ih, List.take_succ_cons]; rfl

/-- The offset of a folder counts the blocks of the folders before it. -/
theorem offset_of_getElem?_folderEntries {blockOffset offset position : Nat}
    {groups : List FramedGroup} {entry : FolderEntry}
    (there : (builder.folderEntries blockOffset offset groups)[position]? = some entry) :
    entry.offset =
      UInt64.ofNat (blockOffset + builder.blocksLength (groups.take position)) := by
  induction groups generalizing blockOffset offset position with
  | nil => cases there
  | cons group groups ih =>
      rw [folderEntries] at there
      cases position with
      | zero =>
          cases there
          rfl
      | succ position =>
          rw [List.getElem?_cons_succ] at there
          rw [ih there, List.take_succ_cons, blocksLength_cons, Nat.add_assoc]

/-- In a narrow record the offset of a folder has room. -/
theorem blockOffset_lt_of_folderRecords {blockOffset position : Nat} {groups : List FramedGroup}
    {bytes : Bytes} (narrow : builder.version ≠ .sse) (below : position < groups.length)
    (succeeded : builder.folderRecords blockOffset groups = .ok bytes) :
    blockOffset + builder.blocksLength (groups.take position) < UInt32.size := by
  induction groups generalizing blockOffset position bytes with
  | nil => cases below
  | cons group groups ih =>
      have count : ((placeFiles 0 group.files).map builder.fileEntry).length =
          group.files.length := by
        rw [List.length_map, length_placeFiles]
      obtain ⟨records, further, -, reachable⟩ :=
        folderRecords_cons_eq_ok succeeded group.name count
      cases position with
      | zero => exact reachable narrow
      | succ position =>
          have later := ih (Nat.lt_of_succ_lt_succ below) further
          rwa [Nat.add_assoc, ← blocksLength_cons, ← List.take_succ_cons] at later

theorem length_take_blocks {blockOffset offset position : Nat} {groups : List FramedGroup}
    (named : ∀ group ∈ groups, ∃ name, group.Named name) :
    (((builder.folderEntries blockOffset offset groups).take position).flatMap
        (FolderEntry.block builder.flags)).length =
      builder.blocksLength (groups.take position) := by
  rw [take_folderEntries, length_blocks _ _ fun group member =>
    named group (List.mem_of_mem_take member)]
  rfl

/-! ## Windows -/

theorem tile_of_placeFiles {offset : Nat} {files : List FramedFile} {listed : List FileRecord}
    (recordable : ∀ placed ∈ placeFiles offset files, Recordable placed)
    (shown : List.Forall₂ FileEntry.ShownBy
      ((placeFiles offset files).map builder.fileEntry) listed) :
    Tile offset (offset + (filesData files).length) listed := by
  induction files generalizing offset listed with
  | nil =>
      cases shown
      rfl
  | cons framed files ih =>
      obtain ⟨here, others⟩ := List.forall_mem_cons.mp recordable
      obtain ⟨file, rest, first, further, rfl⟩ := List.forall₂_cons_left_iff.mp shown
      have start : file.offset.toNat = offset := by
        rw [first.offset]
        exact UInt32.toNat_ofNat_of_lt' here.reachable
      have stop : file.windowEnd = offset + framed.storedLength := by
        rw [file.windowEnd_eq, FileRecord.dataEnd, start,
          dataLength_of_sizeField here.small first.sizeField]
      refine ⟨start, ?_⟩
      rw [stop, filesData_cons, List.length_append, framed.length_data, ← Nat.add_assoc]
      exact ih others further

theorem firstDataOffset_lt {groups : List FramedGroup}
    (recordable : ∀ placed ∈ builder.placedFiles groups, Recordable placed)
    (something : groups.flatMap FramedGroup.files ≠ []) :
    builder.firstDataOffset groups < UInt32.size := by
  obtain ⟨framed, files, row⟩ := List.exists_cons_of_ne_nil something
  have first : (⟨builder.firstDataOffset groups, framed⟩ : PlacedFile) ∈
      builder.placedFiles groups := by
    rw [placedFiles, row]
    exact List.mem_cons_self ..
  exact (recordable _ first).reachable

end Builder

/-- An offset that its record has room for is read as it was written. -/
theorem FolderEntry.toRecord_offset_toNat {version : Version} {entry : FolderEntry} {value : Nat}
    (offset : entry.offset = UInt64.ofNat value) (wide : value < UInt64.size)
    (narrow : version ≠ .sse → value < UInt32.size) :
    (entry.toRecord version).offset.toNat = value := by
  have stored : entry.offset.toNat = value := by
    rw [offset, UInt64.toNat_ofNat_of_lt' wide]
  cases version with
  | sse => exact stored
  | tes4 | fo3 =>
      have small : value % LittleEndian.bound 4 = value := Nat.mod_eq_of_lt (narrow (by decide))
      change (UInt64.ofNat (entry.offset.toNat % LittleEndian.bound 4)).toNat = value
      rw [stored, small, UInt64.toNat_ofNat_of_lt' wide]

namespace Builder

variable {builder : Builder}

/-- What a build that succeeds makes of the files of its builder. -/
structure Finished (builder : Builder) (groups : List Group) (bytes : Bytes) : Prop where
  grouped : Grouped builder.version.encoding builder.files groups
  separate : Separate groups
  inOrder : InOrder groups
  distinct : requireDistinct builder.archive groups = .ok ()
  written : builder.write (groups.map builder.framedGroup) = .ok bytes
  /-- Where paths are written, each has room behind its length. -/
  shortPaths : ∀ group ∈ groups, ∀ file ∈ group.files, builder.flags.hasNameBlobs builder.version →
    (builder.version.encoding.encode file.path).length < 256

theorem exists_finished {arrange : List Group → List Group} {bytes : Bytes}
    (arranged : ∀ groups, (arrange groups).Perm groups)
    (built : builder.buildArranged arrange = .ok bytes) :
    ∃ groups, builder.Finished groups bytes := by
  obtain ⟨table, tableOk, distinct, written, shortPaths⟩ := buildArranged_steps built
  have sorted := sorted_groups arranged tableOk
  exact ⟨sortGroups (arrange table), {
    grouped := sorted.grouped
    separate := sorted.separate
    inOrder := sorted.inOrder
    distinct
    written
    shortPaths }⟩

/-- A finished archive is opened, and lists the folders that were written, with the names that are
found for their files. -/
theorem Finished.reopens {groups : List Group} {bytes : Bytes}
    (finished : builder.Finished groups bytes) (name : String) :
    let framed := groups.map builder.framedGroup
    ∃ header, bytes = header.write ++ builder.body framed ∧
      builder.HeaderOf framed header ∧
      (∀ placed ∈ builder.placedFiles framed, Recordable placed) ∧
      (∀ file ∈ framed.flatMap FramedGroup.files, file.file.compressed →
        file.file.unpackedLength < UInt32.size) ∧
      (∀ entry ∈ builder.entries framed, entry.Storable) ∧
      Archive.open ⟨name, bytes⟩ = .ok (builder.written framed header name) ∧
      (builder.written framed header name).folders =
        .ok (listNamedFolders header 0
          (header.namesRead ((builder.entries framed).flatMap FolderEntry.files))
          (builder.entries framed)) := by
  have named := named_framedGroup finished.grouped
  obtain ⟨header, headerOf, rfl, recordable, sized⟩ := write_eq_ok named finished.written
  have few : ((groups.map builder.framedGroup).flatMap FramedGroup.files).length <
      UInt32.size := by
    rw [files_framedGroups, List.length_map, finished.grouped.members.length_eq,
      ← headerOf.fileCount]
    exact header.fileCount.toNat_lt
  exact ⟨header, rfl, headerOf, recordable, sized,
    fun entry member => storable_of_mem_entries named few member,
    Archive.open_write name header _, folders_written named few headerOf recordable name⟩

section Blocks

variable {groups : List FramedGroup} {header : Header}
  (named : ∀ group ∈ groups, ∃ name, group.Named name)
  (headerOf : builder.HeaderOf groups header)

/-- Where the block of a folder begins. -/
def blockStart (builder : Builder) (groups : List FramedGroup) (position : Nat) : Nat :=
  headerLength + (builder.version.folderRecordLength * groups.length +
    builder.blocksLength (groups.take position))

include named in
theorem blockStart_le (builder : Builder) (position : Nat) :
    builder.blockStart groups position ≤ builder.firstDataOffset groups ∧
      builder.firstDataOffset groups ≤ headerLength + (builder.body groups).length := by
  have blocks := builder.blocksLength_take_le position groups
  have data : builder.firstDataOffset groups = _ := firstDataOffset_eq named
  have parts : builder.firstDataOffset groups =
      headerLength + builder.version.folderRecordLength * groups.length +
        builder.blocksLength groups +
          (if builder.flags.hasFileNames then builder.fileNames groups else []).length := rfl
  constructor
  · unfold blockStart
    omega
  · rw [body, List.length_append]
    omega

include named headerOf in
/-- A reader who has passed over some blocks stands where the next one begins. -/
theorem behindBlocks_written (name : String)
    (storable : ∀ entry ∈ builder.entries groups, entry.Storable) (position : Nat) :
    let opened := builder.written groups header name
    let rest := opened.source.bytes.drop (builder.blockStart groups position)
    opened.behindBlocks position = .ok rest ∧
      rest = ((builder.entries groups).drop position).flatMap
          (FolderEntry.block header.archiveFlags) ++
        ((if header.archiveFlags.hasFileNames then
          nameBlock ((builder.entries groups).flatMap FolderEntry.files) else []) ++
            filesData (groups.flatMap FramedGroup.files)) := by
  intro opened rest
  have folderCount : header.folderCount.toNat = (builder.entries groups).length := by
    rw [headerOf.folderCount, entries, length_entries]
  have holds : opened.source.bytes.drop opened.header.folderRecordOffset.toNat = _ :=
    drop_written headerOf name
  have behind := Archive.behindBlocks_of_directory holds folderCount storable position
  have dropped := Archive.drop_of_directory holds position
  have start : opened.header.folderRecordOffset.toNat +
      (opened.header.version.folderRecordLength * (builder.entries groups).length +
        (((builder.entries groups).take position).flatMap
          (FolderEntry.block opened.header.archiveFlags)).length) =
      builder.blockStart groups position := by
    rw [header_written, headerOf.folderRecordOffset, headerOf.version, headerOf.archiveFlags,
      entries, length_take_blocks named, length_entries]
    rfl
  rw [start] at behind dropped
  exact ⟨behind, dropped⟩

include named headerOf in
/-- The block of a folder stands where a reader comes to it and where its offset says. -/
theorem blockAt_written (name : String)
    (storable : ∀ entry ∈ builder.entries groups, entry.Storable)
    (recordable : ∀ placed ∈ builder.placedFiles groups, Recordable placed)
    (something : groups.flatMap FramedGroup.files ≠ [])
    (narrow : builder.version ≠ .sse → ∀ position, position < groups.length →
      builder.blockStart groups position + (builder.fileNames groups).length < UInt32.size)
    {position : Nat} {entry : FolderEntry} {folder : Folder}
    (there : (builder.entries groups)[position]? = some entry)
    (shown : entry.ShownBy header folder) :
    (builder.written groups header name).BlockAt position folder
      (builder.blockStart groups position) := by
  obtain ⟨met, dropped⟩ := behindBlocks_written named headerOf name storable position
  obtain ⟨beforeData, inside⟩ := blockStart_le named builder position
  obtain ⟨below, entryEq⟩ := List.getElem?_eq_some_iff.mp there
  constructor
  -- In a wide record the offset has room, for data behind it begin at an offset of 32 bits.
  · have dataOffset := firstDataOffset_lt recordable something
    have namesLength := header.fileNamesLength.toNat_lt
    rw [headerOf.fileNamesLength] at namesLength
    have stored : entry.offset = UInt64.ofNat
        (builder.blockStart groups position + (builder.fileNames groups).length) := by
      rw [offset_of_getElem?_folderEntries there, firstBlockOffset, blockStart]
      congr 1
      omega
    rw [shown.offset, headerOf.version, header_written, headerOf.fileNamesLength]
    refine FolderEntry.toRecord_offset_toNat stored ?_ fun version => narrow version position ?_
    · unfold UInt32.size at dataOffset
      unfold UInt64.size
      omega
    · rwa [entries, length_entries] at below
  · rw [written, List.length_append, header.length_write]
    exact Nat.le_trans beforeData inside
  · exact met
  · rw [dropped, List.drop_eq_getElem_cons below, entryEq, List.flatMap_cons, FolderEntry.block,
      List.append_assoc, List.append_assoc, shown.name, shown.bytes_files,
      header_written, readFolderName_append _ _ (storable entry (List.mem_of_getElem? there))]
    exact ⟨_, rfl⟩

include named headerOf in
theorem behindDirectory_written (name : String)
    (storable : ∀ entry ∈ builder.entries groups, entry.Storable) :
    let opened := builder.written groups header name
    opened.behindDirectory =
      .ok (opened.source.bytes.drop (builder.firstDataOffset groups)) := by
  intro opened
  obtain ⟨met, dropped⟩ :=
    behindBlocks_written named headerOf name storable header.folderCount.toNat
  -- The reader has passed over all blocks, so only the block of file names is left.
  have allPassed : (builder.entries groups).drop header.folderCount.toNat = [] := by
    rw [headerOf.folderCount]
    exact List.drop_of_length_le (Nat.le_of_eq (length_entries ..))
  have data : opened.source.bytes.drop (builder.firstDataOffset groups) =
      filesData (groups.flatMap FramedGroup.files) := by
    change (header.write ++ (directory .. ++ _)).drop _ = _
    rw [← List.append_assoc]
    refine Bytes.drop_append _ _ ?_
    rw [List.length_append, header.length_write, firstDataOffset_eq named]
  have namesLength : (nameBlock ((builder.entries groups).flatMap FolderEntry.files)).length =
      header.fileNamesLength.toNat := by
    rw [headerOf.fileNamesLength]
    exact (congrArg List.length (fileNames_eq _ _ groups)).symm
  rw [allPassed, List.flatMap_nil, List.nil_append] at dropped
  unfold Archive.behindDirectory
  rw [header_written, met, Outcome.ok_bind, dropped, data]
  by_cases fileNames : header.archiveFlags.hasFileNames
  · rw [if_pos fileNames, if_pos fileNames, readBlock_append _ _ _ _ namesLength]
    rfl
  · rw [if_neg fileNames, if_neg fileNames]
    rfl

end Blocks

/-- In a narrow record every offset that was written has room. -/
theorem blockStart_lt_of_write {groups : List FramedGroup} {bytes : Bytes}
    (written : builder.write groups = .ok bytes) (narrow : builder.version ≠ .sse)
    {position : Nat} (below : position < groups.length) :
    builder.blockStart groups position + (builder.fileNames groups).length < UInt32.size := by
  obtain ⟨header, -, others⟩ := Outcome.bind_eq_ok_iff.mp written
  obtain ⟨records, recordsOk, -⟩ := Outcome.bind_eq_ok_iff.mp others
  have room := blockOffset_lt_of_folderRecords narrow below recordsOk
  unfold blockStart
  omega

/-- No folder is empty, so a listing of folders is one of files. -/
theorem Finished.something_of_getElem? {groups : List Group} {bytes : Bytes}
    (finished : builder.Finished groups bytes) {position : Nat} {entry : FolderEntry}
    (there : (builder.entries (groups.map builder.framedGroup))[position]? = some entry) :
    (groups.map builder.framedGroup).flatMap FramedGroup.files ≠ [] := by
  obtain ⟨below, -⟩ := List.getElem?_eq_some_iff.mp there
  rw [entries, length_entries, List.length_map] at below
  obtain ⟨file, among⟩ := List.exists_mem_of_ne_nil _
    (finished.separate.nonempty _ (List.getElem_mem below))
  rw [files_framedGroups]
  exact List.ne_nil_of_mem (List.mem_map_of_mem
    (List.mem_flatMap.mpr ⟨_, List.getElem_mem below, among⟩))

/-- The offset of every folder is where its block begins, once the length of the block of file names
is taken away, and the windows of the files lie one behind the other up to the end. -/
theorem offsets_agree {arrange : List Group → List Group} {bytes : Bytes} (name : String)
    (arranged : ∀ groups, (arrange groups).Perm groups)
    (built : builder.buildArranged arrange = .ok bytes) :
    ∃ opened folders, Archive.open ⟨name, bytes⟩ = .ok opened ∧ opened.folders = .ok folders ∧
      (∀ position folder, folders[position]? = some folder →
        ∃ start, opened.BlockAt position folder start) ∧
      (folders.flatMap Folder.files).length = builder.files.length ∧
      ∃ start, opened.behindDirectory = .ok (bytes.drop start) ∧ start ≤ bytes.length ∧
        Tile start bytes.length (folders.flatMap Folder.files) := by
  obtain ⟨groups, finished⟩ := exists_finished arranged built
  have named := named_framedGroup finished.grouped
  obtain ⟨header, rfl, headerOf, recordable, -, storable, opened, listed⟩ :=
    finished.reopens name
  generalize header.namesRead _ = names at listed
  have shown := shownBy_listNamedFolders header 0 names
    (builder.entries (groups.map builder.framedGroup))
  have shownFiles := shownBy_flatMap_files shown
  rw [files_entries] at shownFiles
  refine ⟨_, _, opened, listed, ?_, ?_, ?_⟩
  · intro position folder there
    obtain ⟨entry, entryThere, entryShown⟩ := exists_getElem?_of_forall₂ shown there
    have something := finished.something_of_getElem? entryThere
    exact ⟨_, blockAt_written named headerOf name storable recordable something
      (fun narrow _ => blockStart_lt_of_write finished.written narrow) entryThere entryShown⟩
  · have lengths := shownFiles.length_eq
    rw [List.length_map, placedFiles, length_placeFiles, files_framedGroups, List.length_map,
      finished.grouped.members.length_eq] at lengths
    exact lengths.symm
  · refine ⟨_, behindDirectory_written named headerOf name storable, ?_, ?_⟩
    · rw [List.length_append, header.length_write]
      exact (blockStart_le named builder 0).2
    · have tile := tile_of_placeFiles recordable shownFiles
      rw [firstDataOffset_eq named] at tile ⊢
      rw [List.length_append, header.length_write, body, List.length_append, ← Nat.add_assoc]
      exact tile

/-- The offsets count the names of the files although these are not stored. -/
theorem offsets_agree_withoutFileNames :
    let builder : Builder := ⟨"sample.bsa", .fo3, ⟨0x101⟩, 0, []⟩
    ∃ bytes opened folders, (builder.addAll sampleFiles).buildArranged id = .ok bytes ∧
      Archive.open ⟨"sample.bsa", bytes⟩ = .ok opened ∧ opened.folders = .ok folders ∧
      (∀ position folder, folders[position]? = some folder →
        ∃ start, opened.BlockAt position folder start) ∧
      (folders.flatMap Folder.files).length = 3 ∧
      ∃ start, opened.behindDirectory = .ok (bytes.drop start) ∧ start ≤ bytes.length ∧
        Tile start bytes.length (folders.flatMap Folder.files) := by
  intro builder
  have inOrder : ((builder.addAll sampleFiles).groups.map fun groups =>
      decide (InOrder (id groups))) = .ok true := by decide +kernel
  obtain ⟨bytes, built⟩ := Builder.exists_buildArranged_eq_ok inOrder (by decide +kernel)
  obtain ⟨opened, folders, openedOk, foldersOk, blocks, count, tile⟩ :=
    offsets_agree "sample.bsa" List.Perm.refl built
  exact ⟨bytes, opened, folders, built, openedOk, foldersOk, blocks, count, tile⟩

end Builder
end Tes4
end GameArchive
