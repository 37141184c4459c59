import GameArchive.Proofs.Codec.Lz4Inversion
import GameArchive.Proofs.Path.Parts
import GameArchive.Proofs.Tes4.Grouping
import GameArchive.Proofs.Tes4.Reopening
import GameArchive.Proofs.Text.Encoding

/-!
# Building an archive and reading it

An archive that was built from some files is opened with the state it was built from, and its
entries are those files: every file under its path, with its folder spelled as in the first file
of that folder, and with its contents.
-/

namespace GameArchive
namespace Tes4

theorem writeTerminated_eq_ok {name nameBytes : Bytes}
    (succeeded : PrefixedName.writeTerminated name = .ok nameBytes) :
    name.length + 1 < 256 ∧ nameBytes = UInt8.ofNat (name.length + 1) :: (name ++ [0]) := by
  obtain ⟨short, rfl⟩ := Outcome.ite_eq_ok_iff.mp succeeded
  exact ⟨short, rfl⟩

namespace Builder

variable {builder : Builder}

/-- The path before the data of a file, where paths are written. -/
def blob (builder : Builder) (file : PendingFile) : Bytes :=
  if builder.flags.hasNameBlobs builder.version then
    UInt8.ofNat (builder.version.encoding.encode file.path).length ::
      builder.version.encoding.encode file.path
  else []

theorem frame_eq_ok {file : PendingFile} {framed : FramedFile}
    (succeeded : builder.frame file = .ok framed) :
    framed = ⟨file, builder.blob file⟩ ∧
      (builder.flags.hasNameBlobs builder.version →
        (builder.version.encoding.encode file.path).length < 256) := by
  unfold frame PrefixedName.writePlain at succeeded
  unfold blob
  split at succeeded
  · next blobs =>
      split at succeeded
      · cases succeeded
      · next written =>
          split at written
          · next short =>
              cases succeeded
              cases written
              rw [if_pos blobs]
              exact ⟨rfl, fun _ => short⟩
          · cases written
  · next noBlobs =>
      cases succeeded
      rw [if_neg noBlobs]
      exact ⟨rfl, fun blobs => absurd blobs noBlobs⟩

def framedGroup (builder : Builder) (group : Group) : FramedGroup :=
  ⟨group.hash, group.nameBytes, group.files.map fun file => ⟨file, builder.blob file⟩⟩

theorem frameGroup_eq_ok {group : Group} {framed : FramedGroup}
    (succeeded : builder.frameGroup group = .ok framed) :
    framed = builder.framedGroup group := by
  obtain ⟨files, filesOk, equal⟩ := Outcome.bind_eq_ok_iff.mp succeeded
  cases equal
  rw [Outcome.mapM_eq_ok (fun file _ found ok => (frame_eq_ok ok).1) filesOk]
  rfl

/-- The steps of a build that succeeds. -/
theorem buildArranged_steps {arrange : List Group → List Group} {bytes : Bytes}
    (succeeded : builder.buildArranged arrange = .ok bytes) :
    ∃ table, builder.groups = .ok table ∧
      requireDistinct builder.archive (sortGroups (arrange table)) = .ok () ∧
      builder.write ((sortGroups (arrange table)).map builder.framedGroup) = .ok bytes ∧
      ∀ group ∈ sortGroups (arrange table), ∀ file ∈ group.files,
        builder.flags.hasNameBlobs builder.version →
          (builder.version.encoding.encode file.path).length < 256 := by
  obtain ⟨table, tableOk, others⟩ := Outcome.bind_eq_ok_iff.mp succeeded
  obtain ⟨⟨⟩, distinct, others⟩ := Outcome.bind_eq_ok_iff.mp others
  obtain ⟨framed, framedOk, written⟩ := Outcome.bind_eq_ok_iff.mp others
  refine ⟨table, tableOk, distinct, ?_, ?_⟩
  · rw [← Outcome.mapM_eq_ok (fun group _ found ok => frameGroup_eq_ok ok) framedOk]
    exact written
  · intro group groupAmong file fileAmong
    obtain ⟨found, groupOk⟩ := Outcome.exists_ok_of_mapM_eq_ok framedOk groupAmong
    obtain ⟨files, filesOk, -⟩ := Outcome.bind_eq_ok_iff.mp groupOk
    obtain ⟨framedFile, fileOk⟩ := Outcome.exists_ok_of_mapM_eq_ok filesOk fileAmong
    exact (frame_eq_ok fileOk).2

/-- A finished archive holds the groups of its files, whatever their order in the table. -/
theorem buildArranged_eq_ok {arrange : List Group → List Group} {bytes : Bytes}
    (arranged : ∀ groups, (arrange groups).Perm groups)
    (succeeded : builder.buildArranged arrange = .ok bytes) :
    ∃ groups, Grouped builder.version.encoding builder.files groups ∧
      builder.write (groups.map builder.framedGroup) = .ok bytes ∧
      ∀ file ∈ builder.files, builder.flags.hasNameBlobs builder.version →
        (builder.version.encoding.encode file.path).length < 256 := by
  obtain ⟨table, tableOk, -, written, short⟩ := buildArranged_steps succeeded
  have grouped := ((groups_eq_ok tableOk).perm (arranged table)).sortGroups
  refine ⟨_, grouped, written, fun file member => ?_⟩
  obtain ⟨group, groupAmong, fileAmong⟩ := grouped.exists_group member
  exact short group groupAmong file fileAmong

theorem files_framedGroups (groups : List Group) :
    (groups.map builder.framedGroup).flatMap FramedGroup.files =
      (groups.flatMap Group.files).map fun file => ⟨file, builder.blob file⟩ := by
  rw [List.flatMap_map, List.map_flatMap]
  rfl

theorem named_framedGroup {groups : List Group}
    (grouped : Grouped builder.version.encoding builder.files groups) :
    ∀ framed ∈ groups.map builder.framedGroup, ∃ name, framed.Named name := by
  intro framed member
  obtain ⟨group, among, rfl⟩ := List.mem_map.mp member
  obtain ⟨folder, -, -, written⟩ := grouped.spelled group among
  obtain ⟨short, nameBytesEq⟩ := writeTerminated_eq_ok written
  exact ⟨_, short, nameBytesEq⟩

theorem shownFolder_of_written {group : Group} {folder : String}
    (written : PrefixedName.writeTerminated (builder.version.encoding.encode folder) =
      .ok group.nameBytes) :
    builder.shownFolder (builder.framedGroup group) =
      if builder.flags.hasFolderNames then
        some (builder.version.encoding.decode (builder.version.encoding.encode folder))
      else none := by
  obtain ⟨short, nameBytesEq⟩ := writeTerminated_eq_ok written
  have named : (builder.framedGroup group).Named (builder.version.encoding.encode folder) :=
    ⟨short, nameBytesEq⟩
  rw [shownFolder, named.nameEq]

theorem shownFolder_framedGroup {group : Group} {folder : String}
    (folderNames : builder.flags.hasFolderNames)
    (written : PrefixedName.writeTerminated (builder.version.encoding.encode folder) =
      .ok group.nameBytes)
    (survives : builder.version.encoding.decode (builder.version.encoding.encode folder) =
      folder) :
    builder.shownFolder (builder.framedGroup group) = some folder := by
  rw [shownFolder_of_written written, if_pos folderNames, survives]

/-- Groups that were written are opened with the state of their builder, and their files are
shown. -/
theorem reopen_groups [Codecs] {groups : List Group} {bytes : Bytes} (name : String)
    (grouped : Grouped builder.version.encoding builder.files groups)
    (written : builder.write (groups.map builder.framedGroup) = .ok bytes)
    (blobs : ∀ file ∈ builder.files, builder.flags.hasNameBlobs builder.version →
      (builder.version.encoding.encode file.path).length < 256)
    (held : ∀ file ∈ builder.files,
      ∃ contents, file.Holds builder.flags builder.version contents)
    (nameable : builder.flags.hasFileNames → ∀ file ∈ builder.files,
      builder.version.encoding.encode file.name ≠ [] ∧
        ∀ byte ∈ builder.version.encoding.encode file.name, byte ≠ 0)
    (inverts : builder.version.compression.Inverts) :
    ∃ opened folders, Archive.open ⟨name, bytes⟩ = .ok opened ∧
      opened.state = ⟨magicText, builder.version, builder.flags.bits, builder.fileFlags⟩ ∧
      opened.folders = .ok folders ∧
      (folders.flatMap Folder.files).map opened.view =
        groups.flatMap fun group => group.files.map fun file =>
          file.view builder.version (builder.shownFolder (builder.framedGroup group))
            (builder.shownName file) := by
  have framed : ∀ framed ∈ (groups.map builder.framedGroup).flatMap FramedGroup.files,
      builder.Framed framed := by
    intro framed member
    rw [files_framedGroups] at member
    obtain ⟨file, among, rfl⟩ := List.mem_map.mp member
    have added := grouped.members.mem_iff.mp among
    exact {
      named := fun hasBlobs => ⟨_, blobs file added hasBlobs, if_pos hasBlobs⟩
      nameless := fun noBlobs => if_neg (Bool.eq_false_iff.mp noBlobs)
      held := held file added
      nameable := fun fileNames => nameable fileNames file added }
  have all : ((groups.map builder.framedGroup).flatMap FramedGroup.files).length =
      builder.files.length := by
    rw [files_framedGroups, List.length_map, grouped.members.length_eq]
  obtain ⟨opened, folders, openedOk, state, foldersOk, seen⟩ :=
    reopen_write name (named_framedGroup grouped) framed all inverts written
  refine ⟨opened, folders, openedOk, state, foldersOk, ?_⟩
  rw [seen, List.flatMap_map]
  refine List.flatMap_congr fun group _ => ?_
  rw [framedGroup, List.map_map]
  rfl

/-- A finished archive is opened with the state of its builder, and shows the files of its
groups. -/
theorem reopen_built [Codecs] {arrange : List Group → List Group} {bytes : Bytes} (name : String)
    (arranged : ∀ groups, (arrange groups).Perm groups)
    (built : builder.buildArranged arrange = .ok bytes)
    (held : ∀ file ∈ builder.files,
      ∃ contents, file.Holds builder.flags builder.version contents)
    (nameable : builder.flags.hasFileNames → ∀ file ∈ builder.files,
      builder.version.encoding.encode file.name ≠ [] ∧
        ∀ byte ∈ builder.version.encoding.encode file.name, byte ≠ 0)
    (inverts : builder.version.compression.Inverts) :
    ∃ groups opened folders, Grouped builder.version.encoding builder.files groups ∧
      Archive.open ⟨name, bytes⟩ = .ok opened ∧
      opened.state = ⟨magicText, builder.version, builder.flags.bits, builder.fileFlags⟩ ∧
      opened.folders = .ok folders ∧
      (folders.flatMap Folder.files).map opened.view =
        groups.flatMap fun group => group.files.map fun file =>
          file.view builder.version (builder.shownFolder (builder.framedGroup group))
            (builder.shownName file) := by
  obtain ⟨groups, grouped, written, blobs⟩ := buildArranged_eq_ok arranged built
  obtain ⟨opened, folders, reopened⟩ :=
    reopen_groups name grouped written blobs held nameable inverts
  exact ⟨groups, opened, folders, grouped, reopened⟩

/-- A finished archive is opened and lists as many files as its builder holds, whatever their names
hold. -/
theorem lists_built {arrange : List Group → List Group} {bytes : Bytes} (name : String)
    (arranged : ∀ groups, (arrange groups).Perm groups)
    (built : builder.buildArranged arrange = .ok bytes) :
    ∃ opened files, Archive.open ⟨name, bytes⟩ = .ok opened ∧ opened.files = .ok files ∧
      files.length = builder.files.length := by
  obtain ⟨groups, grouped, written, -⟩ := buildArranged_eq_ok arranged built
  have named := named_framedGroup grouped
  obtain ⟨header, headerOf, rfl, recordable, -⟩ := write_eq_ok named written
  have all : ((groups.map builder.framedGroup).flatMap FramedGroup.files).length =
      builder.files.length := by
    rw [files_framedGroups, List.length_map, grouped.members.length_eq]
  have few : ((groups.map builder.framedGroup).flatMap FramedGroup.files).length <
      UInt32.size := by
    rw [all, ← headerOf.fileCount]
    exact header.fileCount.toNat_lt
  have folders := folders_written named few headerOf recordable name
  generalize header.namesRead _ = names at folders
  have ends := congrArg List.length (map_dataEnd_listNamedFolders header 0 names
    (builder.entries (groups.map builder.framedGroup)))
  rw [List.length_map, List.length_map, entries, files_folderEntries, List.length_map,
    length_placeFiles, all] at ends
  refine ⟨_, _, Archive.open_write name header _, ?_, ends⟩
  rw [Archive.files]
  exact congrArg (· >>= _) folders

def addAll [Codecs] (builder : Builder) (added : List (FileState × Bytes)) : Builder :=
  added.foldl (fun builder entry => builder.add entry.1 entry.2) builder

theorem addAll_eq [Codecs] (builder : Builder) (added : List (FileState × Bytes)) :
    builder.addAll added =
      { builder with
        files := builder.files ++ added.map fun entry => builder.pend entry.1 entry.2 } := by
  induction added generalizing builder with
  | nil => simp [addAll]
  | cons entry added ih =>
      change (builder.add entry.1 entry.2).addAll added = _
      rw [ih]
      simp [add, pend]

theorem create_eq_ok {archive : String} {state : State}
    (succeeded : create archive state = .ok builder) :
    state.magic = magicText ∧
      builder = ⟨archive, state.version, ⟨state.archiveFlags⟩, state.fileFlags, []⟩ := by
  obtain ⟨known, rfl⟩ := Outcome.ite_eq_ok_iff.mp succeeded
  exact ⟨known, rfl⟩

end Builder

/-! ## Names -/

/-- A file whose names can be stored and read again. -/
structure FileState.Nameable (encoding : Encoding) (state : FileState) : Prop where
  leafNotEmpty : Path.leaf (Path.toArchive state.path) ≠ ""
  leafNoZero : '\x00' ∉ (Path.leaf (Path.toArchive state.path)).toList
  leafSurvives : encoding.decode (encoding.encode (Path.leaf (Path.toArchive state.path))) =
    Path.leaf (Path.toArchive state.path)
  folderSurvives :
    encoding.decode (encoding.encode (Path.folder (Path.toArchive state.path))) =
      Path.folder (Path.toArchive state.path)

/-- The folder of a path, spelled as in the first of some paths that has the same folder up to
case. -/
def spelledFolder (paths : List String) (path : String) : String :=
  (firstSpelling? (paths.map Path.folder) (Lowercase.text (Path.folder path))).getD
    (Path.folder path)

/-- The path under which a file is listed among files with the given paths. -/
def listedPath (paths : List String) (path : String) : String :=
  Path.inFolder (spelledFolder paths path) (Path.leaf path)

/-- What is expected of an added file among files with the given paths. -/
def expectedView (flags : Flags) (paths : List String) (state : FileState) (contents : Bytes) :
    EntryView where
  path := listedPath paths (Path.toArchive state.path)
  flipCompression := state.flipCompression
  compressed := state.flipCompression != flags.compressedByDefault
  size := some contents.length
  contents := some contents

theorem spelledFolder_eq {files : List PendingFile} {file : PendingFile} {folder : String}
    (found : firstSpelling? (files.map PendingFile.folder) (Lowercase.text file.folder) =
      some folder) :
    spelledFolder (files.map PendingFile.path) file.path = folder := by
  unfold spelledFolder
  rw [List.map_map]
  change (firstSpelling? (files.map PendingFile.folder) (Lowercase.text file.folder)).getD _ = _
  rw [found]
  rfl

/-- The folder of a file, spelled as in the first file of the folder. -/
def Builder.spelling (builder : Builder) (file : PendingFile) : String :=
  spelledFolder (builder.files.map PendingFile.path) file.path

/-- A builder whose folders, as they are spelled in the archive, and whose files have names that
are read as they are written. -/
structure Builder.Survives (builder : Builder) : Prop where
  folders : ∀ file ∈ builder.files,
    builder.version.encoding.decode (builder.version.encoding.encode (builder.spelling file)) =
      builder.spelling file
  files : ∀ file ∈ builder.files,
    builder.version.encoding.decode (builder.version.encoding.encode file.name) = file.name

section Spelling

variable {builder : Builder} {groups : List Group} {group : Group} {file : PendingFile}

/-- A group is stored under the spelling of the folder of each of its files. -/
theorem Grouped.spelling (grouped : Grouped builder.version.encoding builder.files groups)
    (groupAmong : group ∈ groups) (fileAmong : file ∈ group.files) :
    Lowercase.text (builder.spelling file) = group.key ∧
      folderHash (builder.spelling file) = group.hash ∧
      PrefixedName.writeTerminated (builder.version.encoding.encode (builder.spelling file)) =
        .ok group.nameBytes := by
  obtain ⟨folder, found, hash, written⟩ := grouped.spelled group groupAmong
  have key : Lowercase.text folder = group.key := lowercase_of_firstSpelling? found
  rw [← grouped.keyed group groupAmong file fileAmong] at found
  have spelled : builder.spelling file = folder := spelledFolder_eq found
  rw [spelled]
  exact ⟨key, hash.symm, written⟩

/-- The names that a reader sees of a file are its own and that of its folder, spelled as in the
first file of the folder. -/
theorem Builder.shown_names (folderNames : builder.flags.hasFolderNames)
    (fileNames : builder.flags.hasFileNames)
    (grouped : Grouped builder.version.encoding builder.files groups)
    (survives : builder.Survives) (groupAmong : group ∈ groups)
    (fileAmong : file ∈ group.files) :
    builder.shownFolder (builder.framedGroup group) = some (builder.spelling file) ∧
      builder.shownName file = some file.name := by
  obtain ⟨-, -, written⟩ := grouped.spelling groupAmong fileAmong
  have added := grouped.mem_files groupAmong fileAmong
  constructor
  · exact Builder.shownFolder_framedGroup folderNames written (survives.folders file added)
  · rw [Builder.shownName, if_pos fileNames, survives.files file added]

/-- What is to be seen of a file when its folder is spelled as in the first file of the folder. -/
def Builder.spelledView [Codecs] (builder : Builder) (file : PendingFile) : EntryView :=
  file.view builder.version (some (builder.spelling file)) (some file.name)

theorem Builder.view_spelled [Codecs] (folderNames : builder.flags.hasFolderNames)
    (fileNames : builder.flags.hasFileNames)
    (grouped : Grouped builder.version.encoding builder.files groups)
    (survives : builder.Survives) :
    (groups.flatMap fun group => group.files.map fun file =>
        file.view builder.version (builder.shownFolder (builder.framedGroup group))
          (builder.shownName file)) =
      (groups.flatMap Group.files).map builder.spelledView := by
  rw [List.map_flatMap]
  refine List.flatMap_congr fun group groupAmong =>
    List.map_congr_left fun file fileAmong => ?_
  obtain ⟨folderEq, nameEq⟩ :=
    builder.shown_names folderNames fileNames grouped survives groupAmong fileAmong
  rw [folderEq, nameEq, spelledView]

end Spelling

/-- A folder is spelled as that of one of the files. -/
theorem Builder.exists_spelling {builder : Builder} {file : PendingFile}
    (member : file ∈ builder.files) :
    ∃ other ∈ builder.files, builder.spelling file = Path.folder other.path := by
  unfold Builder.spelling spelledFolder firstSpelling?
  cases found : ((builder.files.map PendingFile.path).map Path.folder).find? fun folder =>
      Lowercase.text folder = Lowercase.text (Path.folder file.path) with
  | none => exact ⟨file, member, rfl⟩
  | some folder =>
      have among := List.mem_of_find?_eq_some found
      rw [List.map_map] at among
      obtain ⟨other, otherMember, rfl⟩ := List.mem_map.mp among
      exact ⟨other, otherMember, rfl⟩

/-- Folders survive as they are spelled if they survive in every spelling. -/
theorem Builder.survives_of_files {builder : Builder}
    (survive : ∀ file ∈ builder.files,
      builder.version.encoding.decode (builder.version.encoding.encode file.folder) =
          file.folder ∧
        builder.version.encoding.decode (builder.version.encoding.encode file.name) = file.name) :
    builder.Survives where
  folders := by
    intro file member
    obtain ⟨other, otherMember, spelled⟩ := Builder.exists_spelling member
    rw [spelled]
    exact (survive other otherMember).1
  files := fun file member => (survive file member).2

theorem Builder.view_groups [Codecs] {builder : Builder} {groups : List Group}
    (folderNames : builder.flags.hasFolderNames) (fileNames : builder.flags.hasFileNames)
    (grouped : Grouped builder.version.encoding builder.files groups)
    (survive : ∀ other ∈ builder.files,
      builder.version.encoding.decode (builder.version.encoding.encode other.folder) =
          other.folder ∧
        builder.version.encoding.decode (builder.version.encoding.encode other.name) =
          other.name) :
    (groups.flatMap fun group => group.files.map fun file =>
        file.view builder.version (builder.shownFolder (builder.framedGroup group))
          (builder.shownName file)) =
      (groups.flatMap Group.files).map builder.spelledView :=
  view_spelled folderNames fileNames grouped (survives_of_files survive)

/-- What is to be seen of an added file is what is expected of it. -/
theorem Builder.view_pend [Codecs] (builder : Builder) (paths : List String) (state : FileState)
    (contents : Bytes) (inverts : builder.version.compression.Inverts) :
    (builder.pend state contents).view builder.version
        (some (spelledFolder paths (Path.toArchive state.path)))
        (some (Path.leaf (Path.toArchive state.path))) =
      expectedView builder.flags paths state contents := by
  unfold PendingFile.view
  rw [(builder.pend_holds state contents).unpackedEq inverts]
  rfl

/-- An archive that is built from some files is opened with its state, and shows every file with
its path, its compression and its contents. -/
theorem build_then_read [Codecs] {archive : String} {state : State} {builder : Builder}
    {added : List (FileState × Bytes)} {arrange : List Group → List Group} {bytes : Bytes}
    (name : String)
    (created : Builder.create archive state = .ok builder)
    (folderNames : (⟨state.archiveFlags⟩ : Flags).hasFolderNames)
    (fileNames : (⟨state.archiveFlags⟩ : Flags).hasFileNames)
    (arranged : ∀ groups, (arrange groups).Perm groups)
    (built : (builder.addAll added).buildArranged arrange = .ok bytes)
    (nameable : ∀ entry ∈ added, entry.1.Nameable state.version.encoding)
    (inverts : state.version.compression.Inverts) :
    ∃ opened folders listing,
      Archive.open ⟨name, bytes⟩ = .ok opened ∧ opened.state = state ∧
        opened.folders = .ok folders ∧ opened.files = .ok listing ∧
        (listing.map opened.view).Perm
          (added.map fun entry =>
            expectedView ⟨state.archiveFlags⟩ (added.map fun other => Path.toArchive other.1.path)
              entry.1 entry.2) := by
  obtain ⟨magic, rfl⟩ := Builder.create_eq_ok created
  let empty : Builder := ⟨archive, state.version, ⟨state.archiveFlags⟩, state.fileFlags, []⟩
  let finished : Builder :=
    { empty with files := added.map fun entry => empty.pend entry.1 entry.2 }
  have finishedEq : empty.addAll added = finished := empty.addAll_eq added
  rw [finishedEq] at built
  have held : ∀ file ∈ finished.files,
      ∃ contents, file.Holds finished.flags finished.version contents := by
    intro file member
    obtain ⟨entry, -, rfl⟩ := List.mem_map.mp member
    exact ⟨entry.2, empty.pend_holds entry.1 entry.2⟩
  have storable : finished.flags.hasFileNames → ∀ file ∈ finished.files,
      finished.version.encoding.encode file.name ≠ [] ∧
        ∀ byte ∈ finished.version.encoding.encode file.name, byte ≠ 0 := by
    intro _ file member
    obtain ⟨entry, among, rfl⟩ := List.mem_map.mp member
    exact ⟨Encoding.encode_ne_nil _ (nameable entry among).leafNotEmpty,
      Encoding.encode_nonzero _ (nameable entry among).leafNoZero⟩
  have survive : ∀ file ∈ finished.files,
      finished.version.encoding.decode (finished.version.encoding.encode file.folder) =
          file.folder ∧
        finished.version.encoding.decode (finished.version.encoding.encode file.name) =
          file.name := by
    intro file member
    obtain ⟨entry, among, rfl⟩ := List.mem_map.mp member
    exact ⟨(nameable entry among).folderSurvives, (nameable entry among).leafSurvives⟩
  obtain ⟨groups, opened, folders, grouped, openedOk, stateEq, foldersOk, seen⟩ :=
    finished.reopen_built name arranged built held storable inverts
  rw [Builder.view_groups folderNames fileNames grouped survive] at seen
  have expected : finished.files.map finished.spelledView = added.map fun entry =>
      expectedView ⟨state.archiveFlags⟩ (added.map fun other => Path.toArchive other.1.path)
        entry.1 entry.2 := by
    have paths : finished.files.map PendingFile.path =
        added.map fun other => Path.toArchive other.1.path := List.map_map
    rw [List.map_map, ← paths]
    exact List.map_congr_left fun entry _ => empty.view_pend _ entry.1 entry.2 inverts
  refine ⟨opened, folders, folders.flatMap Folder.files, openedOk, ?_, foldersOk, ?_, ?_⟩
  · rw [stateEq, ← magic]
  · rw [Archive.files, foldersOk]
    rfl
  · rw [seen, ← expected]
    exact grouped.members.map finished.spelledView

/-- Three files in two folders, one of which is spelled in two ways. -/
def sampleFiles : List (FileState × Bytes) :=
  [(⟨"readme.txt", 0, false⟩, [0x68, 0x69]),
    (⟨"Meshes/axe.nif", 0, false⟩, [1, 2, 3, 1, 2, 3]),
    (⟨"meshes\\bow.nif", 1, true⟩, [])]

/-- Entries are compressed unless they say otherwise, and begin with their paths. -/
def sampleState : State where
  magic := magicText
  version := .sse
  archiveFlags := 0x107
  fileFlags := 0x5

theorem build_then_read_twoFolders :
    ∃ builder bytes opened folders listing,
      Builder.create "sample.bsa" sampleState = .ok builder ∧
        (builder.addAll sampleFiles).buildArranged id = .ok bytes ∧
        Archive.open ⟨"sample.bsa", bytes⟩ = .ok opened ∧ opened.state = sampleState ∧
        opened.folders = .ok folders ∧ opened.files = .ok listing ∧
        (listing.map opened.view).Perm
          [⟨"readme.txt", false, true, some 2, some [0x68, 0x69]⟩,
            ⟨"Meshes\\axe.nif", false, true, some 6, some [1, 2, 3, 1, 2, 3]⟩,
            ⟨"Meshes\\bow.nif", true, false, some 0, some []⟩] := by
  let builder : Builder := ⟨"sample.bsa", .sse, ⟨0x107⟩, 0x5, []⟩
  have created : Builder.create "sample.bsa" sampleState = .ok builder := by decide +kernel
  have inOrder : ((builder.addAll sampleFiles).groups.map fun groups =>
      decide (InOrder (id groups))) = .ok true := by decide +kernel
  obtain ⟨bytes, built⟩ := Builder.exists_buildArranged_eq_ok inOrder (by decide +kernel)
  have nameable : ∀ entry ∈ sampleFiles, entry.1.Nameable sampleState.version.encoding := by
    intro entry member
    constructor
    all_goals revert entry
    all_goals decide +kernel
  have expected : (sampleFiles.map fun entry => expectedView ⟨sampleState.archiveFlags⟩
      (sampleFiles.map fun other => Path.toArchive other.1.path) entry.1 entry.2) =
      [⟨"readme.txt", false, true, some 2, some [0x68, 0x69]⟩,
        ⟨"Meshes\\axe.nif", false, true, some 6, some [1, 2, 3, 1, 2, 3]⟩,
        ⟨"Meshes\\bow.nif", true, false, some 0, some []⟩] := by
    decide +kernel
  obtain ⟨opened, folders, listing, openedOk, stateEq, foldersOk, listingOk, seen⟩ :=
    build_then_read "sample.bsa" created (by decide) (by decide)
      (fun groups => List.Perm.refl groups) built nameable Compression.lz4Frame_inverts
  rw [expected] at seen
  exact ⟨builder, bytes, opened, folders, listing, created, built, openedOk, stateEq, foldersOk,
    listingOk, seen⟩

end Tes4
end GameArchive
