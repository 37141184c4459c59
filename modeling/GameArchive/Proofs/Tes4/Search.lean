import GameArchive.Proofs.Tes4.Offsets

/-!
# Searching an archive that was built

Folders and files stand in the order of their hashes, so that who wants a file halves the folder
records and then the file records of one folder.  In a folder no two files have one hash, for such
files are refused.  Nothing refuses two folders of one hash: this module proves that every file of a
finished archive is found if there are none, that the hashes of the folders are distinct in no other
case, and shows two names of folders whose hashes agree.
-/

namespace GameArchive
namespace Tes4

/-! ## Halving -/

/-- Looks for a value of the wanted hash by halving the values. -/
def search? {α : Type} (hash : α → UInt64) (wanted : UInt64) (values : List α) : Option α :=
  match found : values.drop (values.length / 2) with
  | [] => none
  | middle :: later =>
      if hash middle = wanted then some middle
      else if hash middle < wanted then search? hash wanted later
      else search? hash wanted (values.take (values.length / 2))
termination_by values.length
decreasing_by
  all_goals
    have lengths := congrArg List.length found
    rw [List.length_drop, List.length_cons] at lengths
  · omega
  · rw [List.length_take]
    omega

section Halving

variable {α : Type} {hash : α → UInt64}

/-- The values stand in the strict order of their hashes. -/
def Increasing (hash : α → UInt64) (values : List α) : Prop :=
  values.Pairwise fun first second => hash first < hash second

instance Increasing.decidable (hash : α → UInt64) (values : List α) :
    Decidable (Increasing hash values) :=
  inferInstanceAs (Decidable (List.Pairwise _ _))

theorem Increasing.eq_of_hash_eq {values : List α} (increasing : Increasing hash values)
    {first second : α} (firstAmong : first ∈ values) (secondAmong : second ∈ values)
    (same : hash first = hash second) : first = second := by
  have distinct : (values.map hash).Nodup :=
    List.pairwise_map.mpr (increasing.imp fun before => UInt64.ne_of_lt before)
  exact List.inj_on_of_nodup_map distinct firstAmong secondAmong same

theorem Increasing.congr {β : Type} {counterpart : β → UInt64} {values : List α} {others : List β}
    (same : values.map hash = others.map counterpart) :
    Increasing hash values ↔ Increasing counterpart others := by
  unfold Increasing
  rw [← List.pairwise_map (R := fun first second : UInt64 => first < second), same,
    List.pairwise_map]

/-- Whatever their order, what is found is one of the values and has the wanted hash. -/
theorem mem_of_search?_eq_some {wanted : UInt64} {values : List α} {value : α}
    (found : search? hash wanted values = some value) :
    value ∈ values ∧ hash value = wanted := by
  fun_induction search? hash wanted values with
  | case1 values ends => cases found
  | case2 values middle later split same =>
      cases found
      exact ⟨List.mem_of_mem_drop (split ▸ List.mem_cons_self ..), same⟩
  | case3 values middle later split _ before ih =>
      obtain ⟨member, same⟩ := ih found
      exact ⟨List.mem_of_mem_drop (split ▸ List.mem_cons_of_mem _ member), same⟩
  | case4 values middle later split _ _ ih =>
      obtain ⟨member, same⟩ := ih found
      exact ⟨List.mem_of_mem_take member, same⟩

theorem search?_of_mem {values : List α} {value : α} (increasing : Increasing hash values)
    (member : value ∈ values) : search? hash (hash value) values = some value := by
  generalize wantedEq : hash value = wanted
  fun_induction search? hash wanted values with
  | case1 values ends =>
      rw [List.drop_eq_nil_iff] at ends
      have something := List.length_pos_of_mem member
      omega
  | case2 values middle later split same =>
      have among : middle ∈ values := List.mem_of_mem_drop (split ▸ List.mem_cons_self ..)
      rw [increasing.eq_of_hash_eq among member (same.trans wantedEq.symm)]
  -- The half that is left out holds only hashes on the wrong side of the middle one.
  | case3 values middle later split different before ih =>
      have parts := List.take_append_drop (values.length / 2) values
      rw [split] at parts
      rw [← parts] at increasing member
      obtain ⟨-, behind, across⟩ := List.pairwise_append.mp increasing
      rcases List.mem_append.mp member with front | back
      · have below := across value front middle (List.mem_cons_self ..)
        rw [wantedEq] at below
        exact absurd (UInt64.lt_trans below before) (UInt64.lt_irrefl _)
      · rcases List.mem_cons.mp back with rfl | further
        · exact absurd wantedEq different
        · exact ih (List.pairwise_cons.mp behind).2 further
  | case4 values middle later split different notBefore ih =>
      have parts := List.take_append_drop (values.length / 2) values
      rw [split] at parts
      have whole := increasing
      rw [← parts] at whole member
      obtain ⟨front, behind, -⟩ := List.pairwise_append.mp whole
      rcases List.mem_append.mp member with near | back
      · exact ih front near
      · rcases List.mem_cons.mp back with rfl | further
        · exact absurd wantedEq different
        · have above := (List.pairwise_cons.mp behind).1 value further
          rw [wantedEq] at above
          exact absurd above notBefore

theorem search?_eq_some_iff {wanted : UInt64} {values : List α} {value : α}
    (increasing : Increasing hash values) :
    search? hash wanted values = some value ↔ value ∈ values ∧ hash value = wanted := by
  constructor
  · exact mem_of_search?_eq_some
  · rintro ⟨member, rfl⟩
    exact search?_of_mem increasing member

end Halving

/-- The record of the file at a path, as one finds it who knows the path only. -/
def findFile? (folders : List Folder) (path : String) : Option FileRecord := do
  let folder ← search? Folder.hash (folderHash (Path.folder path)) folders
  search? FileRecord.hash (fileHash (Path.leaf path)) folder.files

/-- Two folders of these paths are one folder if their hashes agree. -/
def Distinguishable (paths : List String) : Prop :=
  ∀ first ∈ paths, ∀ second ∈ paths,
    folderHash (Path.folder first) = folderHash (Path.folder second) →
      Lowercase.text (Path.folder first) = Lowercase.text (Path.folder second)

instance Distinguishable.decidable (paths : List String) : Decidable (Distinguishable paths) :=
  inferInstanceAs (Decidable (∀ first ∈ paths, _))

theorem hashedBytes_eq_of_lowercase {first second : String}
    (same : Lowercase.text first = Lowercase.text second) :
    hashedBytes first = hashedBytes second := by
  have characters : Lowercase.characters first.toList = Lowercase.characters second.toList := by
    have lists := congrArg String.toList same
    rwa [Lowercase.text, Lowercase.text, String.toList_ofList, String.toList_ofList] at lists
  rw [hashedBytes, hashedBytes, characters]

theorem folderHash_eq_of_lowercase {first second : String}
    (same : Lowercase.text first = Lowercase.text second) :
    folderHash first = folderHash second := by
  rw [folderHash, folderHash, hashedBytes_eq_of_lowercase same]

theorem fileHash_eq_of_lowercase {first second : String}
    (same : Lowercase.text first = Lowercase.text second) :
    fileHash first = fileHash second := by
  rw [fileHash, fileHash, hashedBytes_eq_of_lowercase same]

/-! ## Groups in strict order -/

section Groups

variable {encoding : Encoding} {files : List PendingFile} {groups : List Group} {group : Group}

theorem Grouped.hash_eq (grouped : Grouped encoding files groups) (groupAmong : group ∈ groups)
    {file : PendingFile} (fileAmong : file ∈ group.files) :
    group.hash = folderHash file.folder := by
  obtain ⟨folder, found, hash, -⟩ := grouped.spelled group groupAmong
  have key : Lowercase.text folder = group.key := lowercase_of_firstSpelling? found
  rw [hash]
  exact folderHash_eq_of_lowercase (key.trans (grouped.keyed group groupAmong file fileAmong).symm)

/-- The hashes of the groups are distinct exactly if they tell their folders apart. -/
theorem Grouped.increasing_iff (grouped : Grouped encoding files groups)
    (separate : Separate groups) (inOrder : InOrder groups) :
    Increasing Group.hash groups ↔ Distinguishable (files.map PendingFile.path) := by
  constructor
  · intro increasing first firstAmong second secondAmong same
    obtain ⟨file, fileAmong, rfl⟩ := List.mem_map.mp firstAmong
    obtain ⟨other, otherAmong, rfl⟩ := List.mem_map.mp secondAmong
    obtain ⟨group, groupAmong, inGroup⟩ := grouped.exists_group fileAmong
    obtain ⟨another, anotherAmong, inAnother⟩ := grouped.exists_group otherAmong
    have one : group = another := by
      apply increasing.eq_of_hash_eq groupAmong anotherAmong
      rw [grouped.hash_eq groupAmong inGroup, grouped.hash_eq anotherAmong inAnother]
      exact same
    subst one
    exact (grouped.keyed group groupAmong file inGroup).trans
      (grouped.keyed group groupAmong other inAnother).symm
  · intro distinguishable
    -- Groups have distinct keys, and each has a file to which the hypothesis can be applied.
    have apart : groups.Pairwise fun first second => first.hash ≠ second.hash := by
      refine (List.pairwise_map.mp separate.distinct).imp_of_mem ?_
      intro first second firstAmong secondAmong keys same
      obtain ⟨file, inFirst⟩ := List.exists_mem_of_ne_nil _ (separate.nonempty first firstAmong)
      obtain ⟨other, inSecond⟩ :=
        List.exists_mem_of_ne_nil _ (separate.nonempty second secondAmong)
      rw [grouped.hash_eq firstAmong inFirst, grouped.hash_eq secondAmong inSecond] at same
      have lower := distinguishable file.path
        (List.mem_map_of_mem (grouped.mem_files firstAmong inFirst)) other.path
        (List.mem_map_of_mem (grouped.mem_files secondAmong inSecond)) same
      exact keys ((grouped.keyed first firstAmong file inFirst).symm.trans
        (lower.trans (grouped.keyed second secondAmong other inSecond)))
    exact (inOrder.1.and apart).imp fun ⟨before, different⟩ =>
      UInt64.lt_of_le_of_ne before different

/-- Files in order of which none repeats the hash of the one before it. -/
theorem increasing_of_repeatedFile? {files : List PendingFile}
    (inOrder : files.Pairwise fun first second => first.hash ≤ second.hash)
    (distinct : repeatedFile? files = none) : Increasing PendingFile.hash files := by
  induction files with
  | nil => exact .nil
  | cons first files ih =>
      obtain ⟨before, others⟩ := List.pairwise_cons.mp inOrder
      cases files with
      | nil => exact List.pairwise_singleton _ _
      | cons second rest =>
          rw [repeatedFile?] at distinct
          split at distinct
          · cases distinct
          · next different =>
              have next : first.hash < second.hash :=
                UInt64.lt_of_le_of_ne (before second (List.mem_cons_self ..)) different
              refine List.pairwise_cons.mpr ⟨fun other member => ?_, ih others distinct⟩
              rcases List.mem_cons.mp member with rfl | later
              · exact next
              · exact UInt64.lt_of_lt_of_le next ((List.pairwise_cons.mp others).1 other later)

end Groups

/-! ## Records that lead to their data -/

/-- The record of a framed file tells its hash and its size, and leads to its data. -/
structure FramedFile.ShownBy (archive : Archive) (framed : FramedFile) (record : FileRecord) :
    Prop where
  hash : record.hash = framed.file.hash
  fits : framed.Fits archive.header.archiveFlags archive.header.version
  sizeField : record.sizeField = framed.sizeField
  data : ∃ rest, archive.source.bytes.drop record.offset.toNat = framed.data ++ rest

namespace FramedFile.ShownBy

variable {archive : Archive} {framed : FramedFile} {record : FileRecord}

theorem flipCompression (shown : framed.ShownBy archive record) :
    record.flipCompression = framed.file.flipCompression :=
  flipCompression_of_sizeField shown.fits.small shown.sizeField

theorem window (shown : framed.ShownBy archive record) :
    archive.source.bytes.window record.offset.toNat record.dataLength = framed.data := by
  obtain ⟨rest, behind⟩ := shown.data
  rw [Bytes.window, behind, dataLength_of_sizeField shown.fits.small shown.sizeField]
  exact Bytes.take_append _ _ framed.length_data

theorem contents [Codecs] {contents : Bytes} (shown : framed.ShownBy archive record)
    (inverts : archive.header.version.compression.Inverts)
    (held : framed.file.Holds archive.header.archiveFlags archive.header.version contents) :
    archive.contents record = .ok contents := by
  obtain ⟨rest, behind⟩ := shown.data
  exact (contents_of_data inverts shown.fits held shown.sizeField behind).2

end FramedFile.ShownBy

/-- A group is listed with its hash, and each of its files with a record that leads to its data. -/
structure FramedGroup.ShownBy (archive : Archive) (group : FramedGroup) (folder : Folder) :
    Prop where
  hash : folder.hash = group.hash
  files : List.Forall₂ (FramedFile.ShownBy archive) group.files folder.files

namespace Builder

variable {builder : Builder}

theorem shownBy_placeFiles {archive : Archive} {offset : Nat} {files : List FramedFile}
    {records : List FileRecord}
    (leads : ∀ placed ∈ placeFiles offset files, ∀ record,
      (builder.fileEntry placed).ShownBy record → placed.framed.ShownBy archive record)
    (shown : List.Forall₂ FileEntry.ShownBy
      ((placeFiles offset files).map builder.fileEntry) records) :
    List.Forall₂ (FramedFile.ShownBy archive) files records := by
  rw [← map_framed_placeFiles offset files, List.forall₂_map_left_iff]
  have both := (List.forall₂_and_left _ _).mpr ⟨leads, List.forall₂_map_left_iff.mp shown⟩
  exact both.imp fun placed record ⟨lead, recordShown⟩ => lead record recordShown

theorem shownBy_folderEntries {archive : Archive} {header : Header} {blockOffset offset : Nat}
    {groups : List FramedGroup} {folders : List Folder}
    (leads : ∀ placed ∈ placeFiles offset (groups.flatMap FramedGroup.files), ∀ record,
      (builder.fileEntry placed).ShownBy record → placed.framed.ShownBy archive record)
    (shown : List.Forall₂ (FolderEntry.ShownBy header)
      (builder.folderEntries blockOffset offset groups) folders) :
    List.Forall₂ (FramedGroup.ShownBy archive) groups folders := by
  induction groups generalizing blockOffset offset folders with
  | nil =>
      cases shown
      exact .nil
  | cons group groups ih =>
      rw [List.flatMap_cons, placeFiles_append] at leads
      obtain ⟨folder, others, first, further, rfl⟩ := List.forall₂_cons_left_iff.mp shown
      refine .cons ⟨first.hash, ?_⟩ ?_
      · exact shownBy_placeFiles
          (fun placed member => leads placed (List.mem_append_left _ member)) first.files
      · exact ih (fun placed member => leads placed (List.mem_append_right _ member)) further

namespace Finished

variable {groups : List Group} {bytes : Bytes} (finished : builder.Finished groups bytes)

include finished in
theorem fits {placed : PlacedFile}
    (member : placed ∈ builder.placedFiles (groups.map builder.framedGroup))
    (recordable : Recordable placed)
    (sized : placed.framed.file.compressed →
      placed.framed.file.unpackedLength < UInt32.size) :
    placed.framed.Fits builder.flags builder.version := by
  have among := framed_of_mem_placedFiles member
  rw [files_framedGroups] at among
  obtain ⟨file, inGroup, framedEq⟩ := List.mem_map.mp among
  obtain ⟨group, groupAmong, fileAmong⟩ := List.mem_flatMap.mp inGroup
  have blob : placed.framed.blob = builder.blob file := by rw [← framedEq]
  exact {
    small := recordable.small
    sized
    named := fun blobs => ⟨builder.version.encoding.encode file.path,
      finished.shortPaths group groupAmong file fileAmong blobs, blob.trans (if_pos blobs)⟩
    nameless := fun none => blob.trans (if_neg (Bool.eq_false_iff.mp none)) }

include finished in
/-- A record that shows a placed file leads to its data. -/
theorem leads {header : Header} (name : String)
    (headerOf : builder.HeaderOf (groups.map builder.framedGroup) header) {placed : PlacedFile}
    (member : placed ∈ builder.placedFiles (groups.map builder.framedGroup))
    (recordable : Recordable placed)
    (sized : placed.framed.file.compressed →
      placed.framed.file.unpackedLength < UInt32.size) {record : FileRecord}
    (shown : (builder.fileEntry placed).ShownBy record) :
    placed.framed.ShownBy (builder.written (groups.map builder.framedGroup) header name)
      record := by
  have fits := finished.fits member recordable sized
  obtain ⟨front, after, row, offset⟩ :=
    data_at_offset header (named_framedGroup finished.grouped) member recordable.reachable
  refine ⟨shown.hash, ?_, shown.sizeField, after, ?_⟩
  · rw [header_written, headerOf.archiveFlags, headerOf.version]
    exact fits
  · rw [shown.offset, offset]
    exact (congrArg (List.drop front.length) row).trans (List.drop_left ..)

include finished in
/-- A finished archive lists its groups in their order, and its records lead to the data. -/
theorem lists (name : String) :
    ∃ opened folders, Archive.open ⟨name, bytes⟩ = .ok opened ∧ opened.folders = .ok folders ∧
      opened.source.bytes = bytes ∧ opened.header.version = builder.version ∧
      opened.header.archiveFlags = builder.flags ∧
      List.Forall₂ (FramedGroup.ShownBy opened) (groups.map builder.framedGroup) folders := by
  obtain ⟨header, rfl, headerOf, recordable, sized, -, opened, listed⟩ :=
    finished.reopens name
  refine ⟨_, _, opened, listed, rfl, headerOf.version, headerOf.archiveFlags, ?_⟩
  refine shownBy_folderEntries ?_ (shownBy_listNamedFolders header 0 _ _)
  intro placed member record shown
  exact finished.leads name headerOf member (recordable placed member)
    (sized _ (framed_of_mem_placedFiles member)) shown

variable {archive : Archive} {folders : List Folder}
  (shown : List.Forall₂ (FramedGroup.ShownBy archive) (groups.map builder.framedGroup) folders)

include shown in
theorem folder_hashes : groups.map Group.hash = folders.map Folder.hash :=
  map_eq_map_of_forall₂ (List.forall₂_map_left_iff.mp shown) fun _ _ both => both.hash.symm

include finished shown in
theorem increasing_files {folder : Folder} (member : folder ∈ folders) :
    Increasing FileRecord.hash folder.files := by
  obtain ⟨group, among, both⟩ :=
    exists_of_forall₂ (List.forall₂_map_left_iff.mp shown) member
  have distinct := requireDistinct_eq_ok_iff.mp finished.distinct group among
  refine (Increasing.congr ?_).mp
    (increasing_of_repeatedFile? (finished.inOrder.2 group among) distinct)
  exact map_eq_map_of_forall₂ (List.forall₂_map_left_iff.mp both.files)
    fun _ _ recordShown => recordShown.hash.symm

include finished shown in
/-- Two folders of one hash are all that can keep the folder hashes from being distinct. -/
theorem increasing_folders_iff :
    Increasing Folder.hash folders ↔
      Distinguishable (builder.files.map PendingFile.path) := by
  rw [← Increasing.congr (folder_hashes shown)]
  exact finished.grouped.increasing_iff finished.separate finished.inOrder

include finished shown in
/-- If the hashes of the folders are distinct, every file is found. -/
theorem finds (distinguishable : Distinguishable (builder.files.map PendingFile.path))
    {file : PendingFile} (member : file ∈ builder.files) :
    ∃ folder record, search? Folder.hash (folderHash file.folder) folders = some folder ∧
      search? FileRecord.hash file.hash folder.files = some record ∧
      FramedFile.ShownBy archive ⟨file, builder.blob file⟩ record := by
  have increasing := (finished.increasing_folders_iff shown).mpr distinguishable
  obtain ⟨group, groupAmong, fileAmong⟩ := finished.grouped.exists_group member
  obtain ⟨folder, folderAmong, both⟩ :=
    exists_of_forall₂ (List.forall₂_map_left_iff.mp shown).flip groupAmong
  obtain ⟨record, recordAmong, recordShown⟩ :=
    exists_of_forall₂ (List.forall₂_map_left_iff.mp both.files).flip fileAmong
  have folderHash : folder.hash = folderHash file.folder :=
    both.hash.trans (finished.grouped.hash_eq groupAmong fileAmong)
  refine ⟨folder, record, ?_, ?_, recordShown⟩
  · exact (search?_eq_some_iff increasing).mpr ⟨folderAmong, folderHash⟩
  · exact (search?_eq_some_iff (finished.increasing_files shown folderAmong)).mpr
      ⟨recordAmong, recordShown.hash⟩

end Finished

/-- The data that an added file takes in the archive. -/
def dataOf [Codecs] (builder : Builder) (entry : FileState × Bytes) : Bytes :=
  let file := builder.pend entry.1 entry.2
  FramedFile.data ⟨file, builder.blob file⟩

end Builder

/-! ## Searching for added files -/

/-- A search for the path of an added file ends at the record of its data. -/
structure Archive.Finds [Codecs] (archive : Archive) (folders : List Folder) (builder : Builder)
    (entry : FileState × Bytes) (record : FileRecord) : Prop where
  found : findFile? folders (Path.toArchive entry.1.path) = some record
  flipCompression : record.flipCompression = entry.1.flipCompression
  window : archive.source.bytes.window record.offset.toNat record.dataLength = builder.dataOf entry
  contents : archive.header.version.compression.Inverts →
    archive.contents record = .ok entry.2

/-- The folders and the files of each folder stand in order, the files in strict order.  If no two
of the added files belong to different folders of one hash, and in no other case, the folders stand
in strict order as well, and then every added file is found. -/
theorem searchable_iff_distinguishable [Codecs] {archive : String} {state : State}
    {builder : Builder} {added : List (FileState × Bytes)}
    {arrange : List Group → List Group} {bytes : Bytes} (name : String)
    (created : Builder.create archive state = .ok builder)
    (arranged : ∀ groups, (arrange groups).Perm groups)
    (built : (builder.addAll added).buildArranged arrange = .ok bytes) :
    let paths := added.map fun entry => Path.toArchive entry.1.path
    ∃ opened folders, Archive.open ⟨name, bytes⟩ = .ok opened ∧ opened.folders = .ok folders ∧
      opened.source.bytes = bytes ∧
      (folders.Pairwise fun first second => first.hash ≤ second.hash) ∧
      (∀ folder ∈ folders, Increasing FileRecord.hash folder.files) ∧
      (Increasing Folder.hash folders ↔ Distinguishable paths) ∧
      (Distinguishable paths → ∀ entry ∈ added, ∃ record,
        opened.Finds folders builder entry record) := by
  intro paths
  obtain ⟨-, rfl⟩ := Builder.create_eq_ok created
  let empty : Builder := ⟨archive, state.version, ⟨state.archiveFlags⟩, state.fileFlags, []⟩
  let finished : Builder :=
    { empty with files := added.map fun entry => empty.pend entry.1 entry.2 }
  have finishedEq : empty.addAll added = finished := empty.addAll_eq added
  rw [finishedEq] at built
  obtain ⟨groups, done⟩ := Builder.exists_finished arranged built
  obtain ⟨opened, folders, openedOk, foldersOk, bytesEq, version, flags, shown⟩ := done.lists name
  have hashes := Builder.Finished.folder_hashes shown
  have pathsEq : finished.files.map PendingFile.path = paths := List.map_map
  have strict := done.increasing_folders_iff shown
  rw [pathsEq] at strict
  refine ⟨opened, folders, openedOk, foldersOk, bytesEq, ?_,
    fun folder member => done.increasing_files shown member, strict, ?_⟩
  · have ordered := List.pairwise_map.mpr done.inOrder.1
    rw [hashes] at ordered
    exact List.pairwise_map.mp ordered
  · intro distinguishable entry among
    have member : empty.pend entry.1 entry.2 ∈ finished.files :=
      List.mem_map_of_mem (f := fun entry : FileState × Bytes => empty.pend entry.1 entry.2) among
    rw [← pathsEq] at distinguishable
    obtain ⟨folder, record, folderFound, recordFound, recordShown⟩ :=
      done.finds shown distinguishable member
    have folderEq : (empty.pend entry.1 entry.2).folder =
        Path.folder (Path.toArchive entry.1.path) := rfl
    have hashEq : (empty.pend entry.1 entry.2).hash =
        fileHash (Path.leaf (Path.toArchive entry.1.path)) := by simp only [Builder.pend]
    rw [folderEq] at folderFound
    rw [hashEq] at recordFound
    refine ⟨record, ?_, recordShown.flipCompression, recordShown.window, fun inverts => ?_⟩
    · rw [findFile?, folderFound]
      exact recordFound
    · refine recordShown.contents inverts ?_
      rw [flags, version]
      exact empty.pend_holds entry.1 entry.2

theorem searchable_iff_distinguishable_sampleFiles :
    let paths := sampleFiles.map fun entry => Path.toArchive entry.1.path
    Distinguishable paths ∧
      ∃ builder bytes opened folders, Builder.create "sample.bsa" sampleState = .ok builder ∧
        (builder.addAll sampleFiles).buildArranged id = .ok bytes ∧
        Archive.open ⟨"sample.bsa", bytes⟩ = .ok opened ∧ opened.folders = .ok folders ∧
        Increasing Folder.hash folders ∧
        ∀ entry ∈ sampleFiles, ∃ record, opened.Finds folders builder entry record := by
  intro paths
  let builder : Builder := ⟨"sample.bsa", .sse, ⟨0x107⟩, 0x5, []⟩
  have created : Builder.create "sample.bsa" sampleState = .ok builder := by decide +kernel
  have inOrder : ((builder.addAll sampleFiles).groups.map fun groups =>
      decide (InOrder (id groups))) = .ok true := by decide +kernel
  have distinguishable : Distinguishable paths := by decide +kernel
  obtain ⟨bytes, built⟩ := Builder.exists_buildArranged_eq_ok inOrder (by decide +kernel)
  obtain ⟨opened, folders, openedOk, foldersOk, -, -, -, strict, finds⟩ :=
    searchable_iff_distinguishable "sample.bsa" created List.Perm.refl built
  exact ⟨distinguishable, builder, bytes, opened, folders, created, built, openedOk, foldersOk,
    strict.mpr distinguishable, finds distinguishable⟩

/-- Two files in two folders whose hashes agree. -/
def collidingFiles : List (FileState × Bytes) :=
  [(⟨"galaxymap\\a.nif", 0, false⟩, [1]), (⟨"gzvbxaeap\\a.nif", 0, false⟩, [1])]

/-- Folders whose hashes agree are written all the same, and who searches for the one file or for
the other comes to the same record. -/
theorem written_with_colliding_folders :
    ∃ builder bytes opened folders,
      Builder.create "b.bsa" ⟨magicText, .sse, 0, 0⟩ = .ok builder ∧
        (builder.addAll collidingFiles).buildArranged id = .ok bytes ∧
        Archive.open ⟨"b.bsa", bytes⟩ = .ok opened ∧ opened.folders = .ok folders ∧
        folders.map Folder.hash = [0xEB2E685667096170, 0xEB2E685667096170] ∧
        ¬ Increasing Folder.hash folders ∧
        findFile? folders "galaxymap\\a.nif" = findFile? folders "gzvbxaeap\\a.nif" ∧
        (folders.flatMap Folder.files).map FileRecord.offset = [116, 117] := by
  let builder : Builder := ⟨"b.bsa", .sse, ⟨0⟩, 0, []⟩
  have inOrder : ((builder.addAll collidingFiles).groups.map fun groups =>
      decide (InOrder (id groups))) = .ok true := by decide +kernel
  have facts : ((builder.addAll collidingFiles).buildArranged id).toOption.any fun bytes =>
      (Archive.open ⟨"b.bsa", bytes⟩).toOption.any fun opened =>
        opened.folders.toOption.any fun folders =>
          folders.map Folder.hash = [0xEB2E685667096170, 0xEB2E685667096170] ∧
          (folders.flatMap Folder.files).map FileRecord.offset = [116, 117] := by
    rw [Builder.buildArranged_of_inOrder inOrder]
    decide +kernel
  obtain ⟨bytes, built, facts⟩ := Outcome.exists_ok_of_any facts
  obtain ⟨opened, openedOk, facts⟩ := Outcome.exists_ok_of_any facts
  obtain ⟨folders, foldersOk, facts⟩ := Outcome.exists_ok_of_any facts
  obtain ⟨hashes, offsets⟩ := of_decide_eq_true facts
  have collide : folderHash (Path.folder "galaxymap\\a.nif") =
      folderHash (Path.folder "gzvbxaeap\\a.nif") := by decide +kernel
  have oneName : Path.leaf "galaxymap\\a.nif" = Path.leaf "gzvbxaeap\\a.nif" := by
    decide +kernel
  refine ⟨builder, bytes, opened, folders, by decide +kernel, built, openedOk, foldersOk, hashes,
    fun increasing => ?_, by rw [findFile?, findFile?, collide, oneName], offsets⟩
  have ordered := List.pairwise_map.mpr increasing
  rw [hashes] at ordered
  exact absurd ordered (by decide)

end Tes4
end GameArchive
