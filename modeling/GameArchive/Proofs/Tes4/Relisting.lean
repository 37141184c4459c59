import GameArchive.Proofs.Tes4.Rebuild
import GameArchive.Proofs.Tes4.Search

/-!
# Listing a rebuilt archive

A rebuild cuts the path of every entry into a folder and a name, and hashes the name.  Which of the
two are stored is up to the flags, and an entry whose name is not stored is listed under the digits
of the new hash.  This module tells the path under which every entry of any archive is listed after
a rebuild; all else that is seen of an entry stays the same.
-/

namespace GameArchive
namespace Tes4

theorem FramedFile.ShownBy.view [Codecs] {archive : Archive} {framed : FramedFile}
    {record : FileRecord} {contents : Bytes} (shown : framed.ShownBy archive record)
    (inverts : archive.header.version.compression.Inverts)
    (held : framed.file.Holds archive.header.archiveFlags archive.header.version contents) :
    archive.view record =
      { framed.file.view archive.header.version none none with path := record.path } := by
  obtain ⟨rest, behind⟩ := shown.data
  obtain ⟨size, contentsEq⟩ := contents_of_data inverts shown.fits held shown.sizeField behind
  have compressed : archive.isCompressed record = framed.file.compressed :=
    isCompressed_of_sizeField held.compressedEq shown.fits.small shown.sizeField
  unfold Archive.view PendingFile.view
  rw [size, contentsEq, compressed, shown.flipCompression, held.unpackedEq inverts, held.lengthEq]
  rfl

namespace Builder

variable {builder : Builder}

theorem map_file_placedFiles (groups : List Group) :
    ((builder.placedFiles (groups.map builder.framedGroup)).map fun placed => placed.framed.file) =
      groups.flatMap Group.files := by
  have files := congrArg (List.map FramedFile.file) (map_framed_placeFiles
    (builder.firstDataOffset (groups.map builder.framedGroup))
    ((groups.map builder.framedGroup).flatMap FramedGroup.files))
  rw [List.map_map, files_framedGroups, List.map_map, ← files_framedGroups] at files
  exact files.trans (List.map_id _)

/-- The name of a file as it is stored, whether it is stored or not. -/
def storedName (builder : Builder) (file : PendingFile) : Bytes :=
  builder.version.encoding.encode file.name

theorem map_name_placedFiles (groups : List Group) :
    ((builder.placedFiles (groups.map builder.framedGroup)).map builder.fileEntry).map
      FileEntry.name = (groups.flatMap Group.files).map builder.storedName := by
  rw [← map_file_placedFiles, List.map_map, List.map_map]
  rfl

/-- The name of a file as a reader finds it.  One empty name cannot be told from none. -/
def rereadName (builder : Builder) (file : PendingFile) : Option String :=
  if builder.files.map builder.storedName = [[]] then none else builder.shownName file

/-- What a reader sees of a file in a folder that is shown by the given name. -/
def reread [Codecs] (builder : Builder) (folder : Option String) (framed : FramedFile) :
    EntryView :=
  framed.file.view builder.version folder (builder.rereadName framed.file)

namespace Finished

variable {groups : List Group} {bytes : Bytes} (finished : builder.Finished groups bytes)

include finished in
theorem mem_files {placed : PlacedFile}
    (member : placed ∈ builder.placedFiles (groups.map builder.framedGroup)) :
    placed.framed.file ∈ builder.files := by
  have among := List.mem_map_of_mem (f := fun placed => placed.framed.file) member
  rw [map_file_placedFiles] at among
  exact finished.grouped.members.mem_iff.mp among

include finished in
theorem assigns_rereadName {header : Header}
    (headerOf : builder.HeaderOf (groups.map builder.framedGroup) header)
    (nonzero : builder.flags.hasFileNames → ∀ file ∈ builder.files,
      ∀ byte ∈ builder.storedName file, byte ≠ 0) :
    let entries := (builder.placedFiles (groups.map builder.framedGroup)).map builder.fileEntry
    Assigns (fun entry => if builder.files.map builder.storedName = [[]] then none
      else header.fileName? entry) (header.namesRead entries) entries := by
  intro entries
  have single : entries.map FileEntry.name = [[]] ↔
      builder.files.map builder.storedName = [[]] := by
    have same := finished.grouped.members.map builder.storedName
    rw [map_name_placedFiles, ← List.perm_singleton, ← List.perm_singleton]
    exact ⟨same.symm.trans, same.trans⟩
  simp only [← single]
  apply assigns_namesRead
  intro fileNames entry member
  obtain ⟨placed, among, rfl⟩ := List.mem_map.mp member
  rw [headerOf.archiveFlags] at fileNames
  exact nonzero fileNames _ (finished.mem_files among)

include finished in
/-- The records that a reader lists show the files of all groups in order, if each record, under the
name that a reader finds, shows what is expected of its file. -/
theorem map_listed {header : Header} {β : Type} {seen : FileRecord → β}
    {expected : Option String → FramedFile → β}
    (headerOf : builder.HeaderOf (groups.map builder.framedGroup) header)
    (nonzero : builder.flags.hasFileNames → ∀ file ∈ builder.files,
      ∀ byte ∈ builder.storedName file, byte ≠ 0)
    (agree : ∀ placed ∈ builder.placedFiles (groups.map builder.framedGroup),
      ∀ folder position overallPosition,
        seen ((builder.fileEntry placed).named folder (builder.rereadName placed.framed.file)
          position overallPosition) = expected folder placed.framed) :
    ((listNamedFolders header 0
        (header.namesRead ((builder.entries (groups.map builder.framedGroup)).flatMap
          FolderEntry.files))
        (builder.entries (groups.map builder.framedGroup))).flatMap Folder.files).map seen =
      groups.flatMap fun group => group.files.map fun file =>
        expected (builder.shownFolder (builder.framedGroup group)) ⟨file, builder.blob file⟩ := by
  have called : ∀ placed : PlacedFile,
      (if builder.files.map builder.storedName = [[]] then none
        else header.fileName? (builder.fileEntry placed)) =
      builder.rereadName placed.framed.file := by
    intro placed
    rw [Header.fileName?, headerOf.archiveFlags, headerOf.version]
    rfl
  have listed := map_listNamedFolders header 0
    (builder.firstBlockOffset (groups.map builder.framedGroup))
    (finished.assigns_rereadName headerOf nonzero)
    fun placed member folder position overallPosition => by
      rw [called]
      exact agree placed member folder position overallPosition
  rw [headerOf.version, headerOf.archiveFlags, List.flatMap_map] at listed
  rw [files_entries]
  refine listed.trans (List.flatMap_congr fun group _ => ?_)
  rw [framedGroup, List.map_map]
  rfl

include finished in
/-- A finished archive is opened with the state of its builder, and shows the files of its groups
under the names that a reader finds. -/
theorem relists [Codecs] (name : String)
    (held : ∀ file ∈ builder.files,
      ∃ contents, file.Holds builder.flags builder.version contents)
    (nonzero : builder.flags.hasFileNames → ∀ file ∈ builder.files,
      ∀ byte ∈ builder.storedName file, byte ≠ 0)
    (inverts : builder.version.compression.Inverts) :
    ∃ opened folders, Archive.open ⟨name, bytes⟩ = .ok opened ∧
      opened.state = ⟨magicText, builder.version, builder.flags.bits, builder.fileFlags⟩ ∧
      opened.folders = .ok folders ∧
      (folders.flatMap Folder.files).map opened.view =
        groups.flatMap fun group => group.files.map fun file =>
          file.view builder.version (builder.shownFolder (builder.framedGroup group))
            (builder.rereadName file) := by
  obtain ⟨header, rfl, headerOf, recordable, sized, -, openedOk, listed⟩ := finished.reopens name
  let opened := builder.written (groups.map builder.framedGroup) header name
  have agree : ∀ placed ∈ builder.placedFiles (groups.map builder.framedGroup),
      ∀ folder position overallPosition,
        opened.view ((builder.fileEntry placed).named folder
          (builder.rereadName placed.framed.file) position overallPosition) =
            builder.reread folder placed.framed := by
    intro placed member folder position overallPosition
    obtain ⟨contents, holds⟩ := held _ (finished.mem_files member)
    let record := (builder.fileEntry placed).named folder
      (builder.rereadName placed.framed.file) position overallPosition
    have shown : placed.framed.ShownBy opened record :=
      finished.leads name headerOf member (recordable placed member)
        (sized _ (framed_of_mem_placedFiles member)) ⟨rfl, rfl, rfl⟩
    have version : opened.header.version = builder.version := headerOf.version
    have flags : opened.header.archiveFlags = builder.flags := headerOf.archiveFlags
    rw [← version] at inverts
    rw [← version, ← flags] at holds
    rw [shown.view inverts holds, version]
    rfl
  refine ⟨opened, _, openedOk, ?_, listed, finished.map_listed headerOf nonzero agree⟩
  change State.mk magicText header.version header.archiveFlags.bits header.fileFlags = _
  rw [headerOf.version, headerOf.archiveFlags, headerOf.fileFlags]

end Finished

/-- The folder of a file as a reader finds it. -/
def rereadFolder (builder : Builder) (file : PendingFile) : Option String :=
  if builder.flags.hasFolderNames then
    some (builder.version.encoding.decode
      (builder.version.encoding.encode (builder.spelling file)))
  else none

theorem flatMap_view_rereadName [Codecs] {groups : List Group}
    (grouped : Grouped builder.version.encoding builder.files groups) :
    (groups.flatMap fun group => group.files.map fun file =>
        file.view builder.version (builder.shownFolder (builder.framedGroup group))
          (builder.rereadName file)) =
      (groups.flatMap Group.files).map fun file =>
        file.view builder.version (builder.rereadFolder file) (builder.rereadName file) := by
  rw [List.map_flatMap]
  refine List.flatMap_congr fun group groupAmong =>
    List.map_congr_left fun file fileAmong => ?_
  obtain ⟨-, -, written⟩ := grouped.spelling groupAmong fileAmong
  rw [shownFolder_of_written written, rereadFolder]

end Builder

/-! ## Paths after a rebuild -/

/-- The path under which an entry is listed after a rebuild.  Its own path and those of all entries
are given in archive form. -/
def relistedPath (flags : Flags) (encoding : Encoding) (paths : List String) (path : String) :
    String :=
  let reread := fun name => encoding.decode (encoding.encode name)
  filePath
    (if flags.hasFolderNames then some (reread (spelledFolder paths path)) else none)
    (if flags.hasFileNames ∧ paths.map Path.leaf ≠ [""] then some (reread (Path.leaf path))
      else none)
    (fileHash (Path.leaf path))

/-- What is seen after a rebuild of an entry that is listed among some files now. -/
def Archive.relisted [Codecs] (archive : Archive) (files : List FileRecord)
    (file : FileRecord) : EntryView :=
  { archive.view file with
    path := relistedPath archive.header.archiveFlags archive.header.version.encoding
      (files.map fun other => Path.toArchive other.path) (Path.toArchive file.path) }

/-- The builder to which the entries of an archive have been added. -/
def Archive.readded [Codecs] (archive : Archive) (files : List FileRecord) : Builder :=
  let empty : Builder := ⟨archive.source.name, archive.header.version,
    archive.header.archiveFlags, archive.header.fileFlags, []⟩
  { empty with files := files.map fun file => empty.pend file.state (archive.contentsOf file) }

section Readded

variable [Codecs] {archive : Archive} {files : List FileRecord}

theorem Archive.paths_readded :
    (archive.readded files).files.map PendingFile.path =
      files.map fun other => Path.toArchive other.path := by
  simp [readded, Builder.pend, FileRecord.state]

theorem Archive.storedNames_readded :
    (archive.readded files).files.map (archive.readded files).storedName = [[]] ↔
      (files.map fun other => Path.toArchive other.path).map Path.leaf = [""] := by
  have empty : ∀ text, archive.header.version.encoding.encode text = [] ↔ text = "" := by
    intro text
    constructor
    · contrapose
      exact Encoding.encode_ne_nil _
    · rintro rfl
      cases archive.header.version <;> rfl
  cases files with
  | nil => simp [readded]
  | cons file files =>
      simp [readded, Builder.storedName, Builder.pend, FileRecord.state, empty]

/-- What a reader finds of an entry that was added again. -/
theorem Archive.view_readded (inverts : archive.header.version.compression.Inverts)
    {file : FileRecord} (read : archive.contents file = .ok (archive.contentsOf file)) :
    let builder := archive.readded files
    let added := builder.pend file.state (archive.contentsOf file)
    added.view builder.version (builder.rereadFolder added) (builder.rereadName added) =
      archive.relisted files file := by
  intro builder added
  have unpacked : added.unpacked builder.version = some (archive.contentsOf file) :=
    (builder.pend_holds file.state (archive.contentsOf file)).unpackedEq inverts
  have folder : builder.rereadFolder added =
      if archive.header.archiveFlags.hasFolderNames then
        some (archive.header.version.encoding.decode (archive.header.version.encoding.encode
          (spelledFolder (files.map fun other => Path.toArchive other.path)
            (Path.toArchive file.path))))
      else none := by
    rw [Builder.rereadFolder, Builder.spelling, paths_readded]
    rfl
  have name : builder.rereadName added =
      if archive.header.archiveFlags.hasFileNames ∧
          (files.map fun other => Path.toArchive other.path).map Path.leaf ≠ [""] then
        some (archive.header.version.encoding.decode (archive.header.version.encoding.encode
          (Path.leaf (Path.toArchive file.path))))
      else none := by
    rw [Builder.rereadName]
    by_cases single : (files.map fun other => Path.toArchive other.path).map Path.leaf = [""]
    · rw [if_pos (storedNames_readded.mpr single), if_neg fun both => both.2 single]
    · rw [if_neg (storedNames_readded.not.mpr single)]
      simp only [ne_eq, single, not_false_eq_true, and_true]
      rfl
  have hash : added.hash = fileHash (Path.leaf (Path.toArchive file.path)) := by
    simp only [added, Builder.pend, FileRecord.state]
  have flip : added.flipCompression = file.flipCompression := by
    simp only [added, Builder.pend, FileRecord.state]
  have compressed : added.compressed = archive.isCompressed file := by
    simp only [added, Builder.pend, FileRecord.state]
    rfl
  have length : added.unpackedLength = (archive.contentsOf file).length := by
    simp only [added, Builder.pend]
  unfold PendingFile.view Archive.relisted Archive.view relistedPath
  rw [unpacked, folder, name, hash, flip, compressed, length, size_of_contents read, read]
  rfl

end Readded

/-- An archive that is rebuilt is opened with the same state.  Its entries are seen as before under
the paths that their folders and names lead to. -/
theorem rebuild_relists [Codecs] {archive : Archive} {arrange : List Group → List Group}
    {count : Nat} {bytes : Bytes} (name : String)
    (zeroFree : archive.header.archiveFlags.hasFileNames → ∀ files, archive.files = .ok files →
      ∀ file ∈ files, '\x00' ∉ (Path.leaf (Path.toArchive file.path)).toList)
    (arranged : ∀ groups, (arrange groups).Perm groups)
    (rebuilt : (Bethesda.Archive.tes4 archive).rebuildArranged arrange = .ok (count, bytes))
    (inverts : archive.header.version.compression.Inverts) :
    ∃ files opened listing, archive.files = .ok files ∧ count = files.length ∧
      Archive.open ⟨name, bytes⟩ = .ok opened ∧ opened.state = archive.state ∧
      opened.files = .ok listing ∧
      (∀ file ∈ files, archive.contents file = .ok (archive.contentsOf file)) ∧
      (listing.map opened.view).Perm (files.map (archive.relisted files)) := by
  obtain ⟨files, builder, filesOk, countEq, created, allRead, built⟩ :=
    rebuildArranged_eq_ok rebuilt
  obtain ⟨-, rfl⟩ := Builder.create_eq_ok created
  rw [Builder.addAll_eq, List.nil_append, List.map_map] at built
  change (archive.readded files).buildArranged arrange = .ok bytes at built
  obtain ⟨groups, finished⟩ := Builder.exists_finished arranged built
  have held : ∀ file ∈ (archive.readded files).files, ∃ contents,
      file.Holds (archive.readded files).flags (archive.readded files).version contents := by
    intro file member
    obtain ⟨entry, -, rfl⟩ := List.mem_map.mp member
    exact ⟨_, Builder.pend_holds _ entry.state (archive.contentsOf entry)⟩
  have nonzero : (archive.readded files).flags.hasFileNames →
      ∀ file ∈ (archive.readded files).files,
        ∀ byte ∈ (archive.readded files).storedName file, byte ≠ 0 := by
    intro fileNames file member
    obtain ⟨entry, among, rfl⟩ := List.mem_map.mp member
    exact Encoding.encode_nonzero _ (zeroFree fileNames files filesOk entry among)
  obtain ⟨opened, folders, openedOk, stateEq, foldersOk, seen⟩ :=
    finished.relists name held nonzero inverts
  refine ⟨files, opened, folders.flatMap Folder.files, filesOk, countEq, openedOk, stateEq, ?_,
    allRead, ?_⟩
  · rw [Archive.files, foldersOk]
    rfl
  · rw [seen, Builder.flatMap_view_rereadName finished.grouped]
    have views := finished.grouped.members.map fun file =>
      file.view (archive.readded files).version ((archive.readded files).rereadFolder file)
        ((archive.readded files).rereadName file)
    refine views.trans (List.Perm.of_eq ?_)
    rw [Archive.readded, List.map_map]
    exact List.map_congr_left fun file member =>
      Archive.view_readded inverts (allRead file member)

end Tes4
end GameArchive
