import GameArchive.Proofs.Tes4.Placement

/-!
# Reading what a builder placed

The bytes of a builder are opened, their directory is read, and every file record finds the data
that were placed for it.
-/

namespace GameArchive
namespace Tes4

theorem Version.ofNumber?_number (version : Version) :
    Version.ofNumber? version.number = some version := by
  cases version <;> rfl

theorem StoredHeader.read?_append (header : Header) (rest : Bytes) :
    StoredHeader.read? (header.write.drop magic.length ++ rest) =
      some {
        versionNumber := header.version.number
        folderRecordOffset := header.folderRecordOffset
        archiveFlags := header.archiveFlags.bits
        folderCount := header.folderCount
        fileCount := header.fileCount
        folderNamesLength := header.folderNamesLength
        fileNamesLength := header.fileNamesLength
        fileFlags := header.fileFlags } := by
  simp only [Header.write, List.append_assoc, List.drop_left]
  simp [StoredHeader.read?, Bytes.word32?_ofWord32_append]

theorem Archive.open_write (name : String) (header : Header) (rest : Bytes) :
    Archive.open ⟨name, header.write ++ rest⟩ =
      .ok ⟨⟨name, header.write ++ rest⟩, header⟩ := by
  have split : header.write ++ rest = magic ++ (header.write.drop magic.length ++ rest) := by
    simp [Header.write]
  have magicRead : readMagic name "BSA" magic (header.write ++ rest) =
      .ok (header.write.drop magic.length ++ rest) := by
    rw [split, readMagic_append _ _ _ rfl]
  unfold Archive.open
  simp only [magicRead, Outcome.ok_bind, StoredHeader.read?_append,
    Version.ofNumber?_number]

theorem Header.length_write (header : Header) : header.write.length = headerLength := by
  simp [Header.write, headerLength, magic]

/-- What a reader sees of an entry. -/
structure EntryView where
  path : String
  flipCompression : Bool
  compressed : Bool
  size : Option Nat
  contents : Option Bytes
  deriving Repr, DecidableEq

/-- What a reader of an archive sees of an entry. -/
def Archive.view [Codecs] (archive : Archive) (file : FileRecord) : EntryView where
  path := file.path
  flipCompression := file.flipCompression
  compressed := archive.isCompressed file
  size := (archive.size file).toOption
  contents := (archive.contents file).toOption

/-- The contents that the payload of a file stands for. -/
def PendingFile.unpacked [Codecs] (version : Version) (file : PendingFile) : Option Bytes :=
  let compression := if file.compressed then version.compression else .stored
  match compression.deliver file.payload file.payload.length file.unpackedLength with
  | .ok delivery => delivery.all?
  | .error _ => none

/-- What is to be seen of a file when its folder and the file itself are shown by the given
names. -/
def PendingFile.view [Codecs] (version : Version) (folder name : Option String)
    (file : PendingFile) : EntryView where
  path := filePath folder name file.hash
  flipCompression := file.flipCompression
  compressed := file.compressed
  size := some file.unpackedLength
  contents := file.unpacked version

theorem PendingFile.Holds.unpackedEq [Codecs] {flags : Flags} {version : Version}
    {contents : Bytes} {file : PendingFile} (held : file.Holds flags version contents)
    (inverts : version.compression.Inverts) : file.unpacked version = some contents := by
  unfold unpacked
  rw [held.payloadEq, held.lengthEq]
  cases file.compressed with
  | true =>
      obtain ⟨delivery, delivered, everything⟩ := inverts contents
      simp only [if_true, delivered, everything]
  | false =>
      obtain ⟨delivery, delivered, everything⟩ := Compression.stored_inverts contents
      rw [Compression.pack] at delivered
      simp only [Bool.false_eq_true, if_false, delivered, everything]

namespace Builder

variable {builder : Builder} {header : Header}

section Listing

variable {β : Type} {seen : FileRecord → β} {expected : Option String → FramedFile → β}

theorem map_listNamedFiles {called : FileEntry → Option String} (folder : Option String)
    (index overallIndex : Nat) {offset : Nat} {names : List String} {files : List FramedFile}
    (assigns : Assigns called names ((placeFiles offset files).map builder.fileEntry))
    (agree : ∀ placed ∈ placeFiles offset files, ∀ position overallPosition,
      seen ((builder.fileEntry placed).named folder (called (builder.fileEntry placed)) position
        overallPosition) = expected folder placed.framed) :
    (listNamedFiles folder index overallIndex names
        ((placeFiles offset files).map builder.fileEntry)).map seen =
      files.map (expected folder) := by
  induction files generalizing index overallIndex offset names with
  | nil => rfl
  | cons framed files ih =>
      have first := agree ⟨offset, framed⟩ (by simp [placeFiles]) index overallIndex
      have others := ih (index + 1) (overallIndex + 1) assigns.tail
        (fun placed member => agree placed (List.mem_cons_of_mem _ member))
      rw [placeFiles, List.map_cons, listNamedFiles, List.map_cons, assigns.head, first, others,
        List.map_cons]

/-- A listing of the directory of a builder shows the files of all groups in order, if the record
of every placed file, under the name that is left for it, shows what is expected of the file. -/
theorem map_listNamedFolders (header : Header) {called : FileEntry → Option String}
    (overallIndex blockOffset : Nat) {offset : Nat} {names : List String}
    {groups : List FramedGroup}
    (assigns : Assigns called names
      ((placeFiles offset (groups.flatMap FramedGroup.files)).map builder.fileEntry))
    (agree : ∀ placed ∈ placeFiles offset (groups.flatMap FramedGroup.files),
      ∀ folder position overallPosition,
        seen ((builder.fileEntry placed).named folder (called (builder.fileEntry placed)) position
          overallPosition) = expected folder placed.framed) :
    ((listNamedFolders header overallIndex names
        (builder.folderEntries blockOffset offset groups)).flatMap Folder.files).map seen =
      groups.flatMap fun group => group.files.map
        (expected (if header.archiveFlags.hasFolderNames then
          some (header.version.encoding.decode group.name) else none)) := by
  induction groups generalizing overallIndex blockOffset offset names with
  | nil => rfl
  | cons group groups ih =>
      rw [List.flatMap_cons, placeFiles_append] at agree
      rw [List.flatMap_cons, placeFiles_append, List.map_append] at assigns
      rw [folderEntries, listNamedFolders, List.flatMap_cons, List.map_append, List.flatMap_cons]
      congr 1
      · exact map_listNamedFiles _ 0 overallIndex assigns.left
          (fun placed member => agree placed (List.mem_append_left _ member) _)
      · exact ih _ _ assigns.right
          (fun placed member => agree placed (List.mem_append_right _ member))

end Listing

/-- The name of a file as a reader decodes it, where names are written. -/
def shownName (builder : Builder) (file : PendingFile) : Option String :=
  if builder.flags.hasFileNames then
    some (builder.version.encoding.decode (builder.version.encoding.encode file.name))
  else none

/-- What is to be seen of a file in a folder that is shown by the given name. -/
def shown [Codecs] (builder : Builder) (folder : Option String) (framed : FramedFile) :
    EntryView :=
  framed.file.view builder.version folder (builder.shownName framed.file)

/-- The name of a folder as a reader decodes it, where names are written. -/
def shownFolder (builder : Builder) (group : FramedGroup) : Option String :=
  if builder.flags.hasFolderNames then some (builder.version.encoding.decode group.name)
  else none

/-- A file that was framed for this archive and whose payload stands for its contents. -/
structure Framed [Codecs] (builder : Builder) (framed : FramedFile) : Prop where
  named : builder.flags.hasNameBlobs builder.version →
    ∃ path : Bytes, path.length < 256 ∧ framed.blob = UInt8.ofNat path.length :: path
  nameless : builder.flags.hasNameBlobs builder.version = false → framed.blob = []
  held : ∃ contents, framed.file.Holds builder.flags builder.version contents
  nameable : builder.flags.hasFileNames →
    builder.version.encoding.encode framed.file.name ≠ [] ∧
      ∀ byte ∈ builder.version.encoding.encode framed.file.name, byte ≠ 0

def body (builder : Builder) (groups : List FramedGroup) : Bytes :=
  directory builder.version builder.flags (builder.entries groups) ++
    filesData (groups.flatMap FramedGroup.files)

/-- The data of a placed file stand at the offset in its record. -/
theorem data_at_offset (header : Header) {groups : List FramedGroup} {placed : PlacedFile}
    (named : ∀ group ∈ groups, ∃ name, group.Named name)
    (member : placed ∈ builder.placedFiles groups) (reachable : placed.offset < UInt32.size) :
    ∃ front after, header.write ++ builder.body groups = front ++ (placed.framed.data ++ after) ∧
      (builder.fileEntry placed).offset.toNat = front.length := by
  obtain ⟨before, after, split, place⟩ := data_of_mem_placeFiles member
  refine ⟨header.write ++ (directory builder.version builder.flags (builder.entries groups) ++
    before), after, ?_, ?_⟩
  · rw [body, split]
    simp only [List.append_assoc]
  · rw [fileEntry, UInt32.toNat_ofNat_of_lt' reachable, place, firstDataOffset_eq named,
      List.length_append, List.length_append, header.length_write]
    omega

theorem dataEnd_fileEntry {placed : PlacedFile} (small : placed.framed.storedLength < flipBit) :
    (builder.fileEntry placed).dataEnd =
      (builder.fileEntry placed).offset.toNat + placed.framed.storedLength := by
  let entry := builder.fileEntry placed
  let record : FileRecord := ⟨entry.hash, entry.sizeField, entry.offset, 0, 0, ""⟩
  have length : record.dataLength = placed.framed.storedLength :=
    dataLength_of_sizeField small rfl
  change record.offset.toNat + record.dataLength = _
  rw [length]

theorem length_le_length_flatMap {groups : List FramedGroup} {group : FramedGroup}
    (member : group ∈ groups) :
    group.files.length ≤ (groups.flatMap FramedGroup.files).length := by
  obtain ⟨before, after, rfl⟩ := List.append_of_mem member
  rw [List.flatMap_append, List.flatMap_cons, List.length_append, List.length_append]
  omega

theorem exists_of_mem_folderEntries {blockOffset offset : Nat} {groups : List FramedGroup}
    {entry : FolderEntry} (member : entry ∈ builder.folderEntries blockOffset offset groups) :
    ∃ group ∈ groups, entry.name = group.name ∧ entry.files.length = group.files.length := by
  induction groups generalizing blockOffset offset with
  | nil => cases member
  | cons group groups ih =>
      rcases List.mem_cons.mp member with rfl | later
      · exact ⟨group, by simp, rfl, by rw [List.length_map, length_placeFiles]⟩
      · obtain ⟨found, among, equal⟩ := ih later
        exact ⟨found, List.mem_cons_of_mem group among, equal⟩

theorem storable_of_mem_entries {groups : List FramedGroup} {entry : FolderEntry}
    (named : ∀ group ∈ groups, ∃ name, group.Named name)
    (few : (groups.flatMap FramedGroup.files).length < UInt32.size)
    (member : entry ∈ builder.entries groups) : entry.Storable := by
  obtain ⟨group, among, nameEq, lengthEq⟩ := exists_of_mem_folderEntries member
  obtain ⟨name, groupNamed⟩ := named group among
  constructor
  · rw [nameEq, groupNamed.nameEq]
    exact groupNamed.short
  · rw [lengthEq]
    exact Nat.lt_of_le_of_lt (length_le_length_flatMap among) few

theorem files_entries (builder : Builder) (groups : List FramedGroup) :
    (builder.entries groups).flatMap FolderEntry.files =
      (builder.placedFiles groups).map builder.fileEntry :=
  files_folderEntries ..

theorem exists_of_mem_entries {groups : List FramedGroup} {file : FileEntry}
    (member : file ∈ (builder.entries groups).flatMap FolderEntry.files) :
    ∃ placed ∈ builder.placedFiles groups, builder.fileEntry placed = file := by
  rw [files_entries] at member
  exact List.mem_map.mp member

/-- Groups that were written behind a header, with everything that the writer has checked. -/
structure Written [Codecs] (builder : Builder) (groups : List FramedGroup) (header : Header) :
    Prop where
  named : ∀ group ∈ groups, ∃ name, group.Named name
  framed : ∀ framed ∈ groups.flatMap FramedGroup.files, builder.Framed framed
  few : (groups.flatMap FramedGroup.files).length < UInt32.size
  headerOf : builder.HeaderOf groups header
  recordable : ∀ placed ∈ builder.placedFiles groups, Recordable placed
  sized : ∀ framed ∈ groups.flatMap FramedGroup.files,
    framed.file.compressed → framed.file.unpackedLength < UInt32.size

def written (builder : Builder) (groups : List FramedGroup) (header : Header) (name : String) :
    Archive where
  source := ⟨name, header.write ++ builder.body groups⟩
  header := header

@[simp] theorem header_written (groups : List FramedGroup) (name : String) :
    (builder.written groups header name).header = header :=
  rfl

theorem framed_of_mem_placedFiles {groups : List FramedGroup} {placed : PlacedFile}
    (member : placed ∈ builder.placedFiles groups) :
    placed.framed ∈ groups.flatMap FramedGroup.files := by
  have among := List.mem_map_of_mem (f := PlacedFile.framed) member
  rwa [placedFiles, map_framed_placeFiles] at among

/-- The directory of an archive stands where its header says. -/
theorem drop_written {groups : List FramedGroup} (headerOf : builder.HeaderOf groups header)
    (name : String) :
    (builder.written groups header name).source.bytes.drop header.folderRecordOffset.toNat =
      directory header.version header.archiveFlags (builder.entries groups) ++
        filesData (groups.flatMap FramedGroup.files) := by
  rw [headerOf.folderRecordOffset, headerOf.version, headerOf.archiveFlags]
  exact Bytes.drop_append _ _ header.length_write

theorem within_written {groups : List FramedGroup}
    (named : ∀ group ∈ groups, ∃ name, group.Named name)
    (recordable : ∀ placed ∈ builder.placedFiles groups, Recordable placed) (name : String)
    {file : FileEntry} (member : file ∈ (builder.entries groups).flatMap FolderEntry.files) :
    file.dataEnd ≤ (builder.written groups header name).source.bytes.length := by
  obtain ⟨placed, found, rfl⟩ := exists_of_mem_entries member
  have fits := recordable placed found
  obtain ⟨front, after, split, offset⟩ := data_at_offset header named found fits.reachable
  rw [dataEnd_fileEntry fits.small, offset]
  change _ ≤ (header.write ++ builder.body groups).length
  rw [split, List.length_append, List.length_append, FramedFile.length_data]
  omega

/-- The directory is listed, whatever the names of the files hold. -/
theorem folders_written {groups : List FramedGroup}
    (named : ∀ group ∈ groups, ∃ name, group.Named name)
    (few : (groups.flatMap FramedGroup.files).length < UInt32.size)
    (headerOf : builder.HeaderOf groups header)
    (recordable : ∀ placed ∈ builder.placedFiles groups, Recordable placed) (name : String) :
    (builder.written groups header name).folders =
      .ok (listNamedFolders header 0
        (header.namesRead ((builder.entries groups).flatMap FolderEntry.files))
        (builder.entries groups)) := by
  have lengthEq : header.archiveFlags.hasFileNames → header.fileNamesLength.toNat =
      (nameBlock ((builder.entries groups).flatMap FolderEntry.files)).length := by
    intro _
    rw [headerOf.fileNamesLength]
    exact congrArg List.length (fileNames_eq _ _ groups)
  refine folders_of_names (drop_written headerOf name) ?_ ?_
    (readFileNames_nameBlock name lengthEq (filesData (groups.flatMap FramedGroup.files))) ?_
  · rw [header_written, headerOf.folderCount, entries, length_entries]
  · exact fun entry member => storable_of_mem_entries named few member
  · exact fun file member => within_written named recordable name member

namespace Written

variable [Codecs] {groups : List FramedGroup}

theorem folders (written : builder.Written groups header) (name : String) :
    (builder.written groups header name).folders =
      .ok (listFolders header 0 (builder.entries groups)) := by
  obtain ⟨named, framed, few, headerOf, recordable, -⟩ := written
  apply folders_of_directory (drop_written headerOf name)
  · rw [header_written, headerOf.folderCount, entries, length_entries]
  · exact fun entry member => storable_of_mem_entries named few member
  · intro fileNames file member
    obtain ⟨placed, among, rfl⟩ := exists_of_mem_entries member
    rw [header_written, headerOf.archiveFlags] at fileNames
    exact (framed placed.framed (framed_of_mem_placedFiles among)).nameable fileNames
  · intro fileNames
    rw [header_written, headerOf.fileNamesLength]
    exact congrArg List.length (fileNames_eq _ _ groups)
  · exact fun file member => within_written named recordable name member

/-- A placed file is seen as it was added. -/
theorem view_toRecord (written : builder.Written groups header) (name : String)
    (inverts : builder.version.compression.Inverts) {placed : PlacedFile}
    (member : placed ∈ builder.placedFiles groups) (folder : Option String)
    (position overallPosition : Nat) :
    (builder.written groups header name).view
        ((builder.fileEntry placed).toRecord header folder position overallPosition) =
      builder.shown folder placed.framed := by
  obtain ⟨named, framed, -, headerOf, recordable, sized⟩ := written
  let opened := builder.written groups header name
  let record := (builder.fileEntry placed).toRecord header folder position overallPosition
  have recordable := recordable placed member
  have among := framed_of_mem_placedFiles member
  obtain ⟨blobNamed, blobless, ⟨contents, held⟩, -⟩ := framed placed.framed among
  have fits : placed.framed.Fits header.archiveFlags header.version := by
    rw [headerOf.archiveFlags, headerOf.version]
    exact ⟨recordable.small, sized placed.framed among, blobNamed, blobless⟩
  have lengthEq := held.lengthEq
  have unpacked := held.unpackedEq inverts
  rw [← headerOf.version, ← headerOf.archiveFlags] at held
  rw [← headerOf.version] at inverts
  obtain ⟨front, after, split, offset⟩ :=
    data_at_offset header named member recordable.reachable
  have holds : opened.source.bytes.drop record.offset.toNat = placed.framed.data ++ after := by
    change (header.write ++ builder.body groups).drop (builder.fileEntry placed).offset.toNat = _
    rw [split, offset, List.drop_left]
  obtain ⟨size, contentsEq⟩ := contents_of_data inverts fits held rfl holds
  have flip : record.flipCompression = placed.framed.file.flipCompression :=
    flipCompression_of_sizeField recordable.small rfl
  have compressed : opened.isCompressed record = placed.framed.file.compressed :=
    isCompressed_of_sizeField held.compressedEq recordable.small rfl
  have path : record.path =
      filePath folder (builder.shownName placed.framed.file) placed.framed.file.hash := by
    change filePath folder (header.fileName? (builder.fileEntry placed)) _ = _
    rw [Header.fileName?, headerOf.archiveFlags, headerOf.version]
    rfl
  unfold Archive.view shown PendingFile.view
  rw [size, contentsEq, flip, compressed, path, unpacked, lengthEq]
  rfl

end Written

/-- The bytes of a builder are opened, their directory is read, and the entries are seen as they
were added. -/
theorem reopen_write [Codecs] {groups : List FramedGroup} {bytes : Bytes} (name : String)
    (named : ∀ group ∈ groups, ∃ name, group.Named name)
    (framed : ∀ framed ∈ groups.flatMap FramedGroup.files, builder.Framed framed)
    (all : (groups.flatMap FramedGroup.files).length = builder.files.length)
    (inverts : builder.version.compression.Inverts)
    (succeeded : builder.write groups = .ok bytes) :
    ∃ opened folders, Archive.open ⟨name, bytes⟩ = .ok opened ∧
      opened.state = ⟨magicText, builder.version, builder.flags.bits, builder.fileFlags⟩ ∧
      opened.folders = .ok folders ∧
      (folders.flatMap Folder.files).map opened.view =
        groups.flatMap fun group =>
          group.files.map (builder.shown (builder.shownFolder group)) := by
  obtain ⟨header, headerOf, rfl, recordable, sized⟩ := write_eq_ok named succeeded
  have few : (groups.flatMap FramedGroup.files).length < UInt32.size := by
    rw [all, ← headerOf.fileCount]
    exact header.fileCount.toNat_lt
  have written : builder.Written groups header := ⟨named, framed, few, headerOf, recordable, sized⟩
  refine ⟨builder.written groups header name, _,
    Archive.open_write name header (builder.body groups), ?_, written.folders name, ?_⟩
  · simp only [Archive.state, Builder.written, headerOf.version, headerOf.archiveFlags,
      headerOf.fileFlags]
  · have assigns := assigns_fileNames header ((builder.placedFiles groups).map builder.fileEntry)
    have seen := map_listNamedFolders header 0 (builder.firstBlockOffset groups) assigns
      fun placed member => written.view_toRecord name inverts member
    rw [headerOf.version, headerOf.archiveFlags] at seen
    rw [← listNamedFolders_fileNames, files_entries]
    exact seen

end Builder
end Tes4
end GameArchive
