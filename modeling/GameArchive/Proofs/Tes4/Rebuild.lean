import GameArchive.Bethesda.Builder
import GameArchive.Proofs.Tes4.RoundTrip

/-!
# Rebuilding an archive

An archive that lists its entries under well-formed names may have any order of records, any
hashes and offsets, and entries that share their data.  Rebuilding it regroups, sorts and packs
everything anew, and shows the same entries when it is read again.
-/

namespace GameArchive
namespace Tes4

theorem size_of_contents [Codecs] {archive : Archive} {file : FileRecord} {contents : Bytes}
    (read : archive.contents file = .ok contents) :
    archive.size file = .ok contents.length := by
  obtain ⟨start, started, others⟩ := Outcome.bind_eq_ok_iff.mp read
  simp only at others
  split at others
  · cases others
  · rw [Archive.size, started, Delivery.length_of_takeExactly others]
    rfl

/-- A listing whose entries have names that can be stored and read again, and whose folders do
not differ in case alone. -/
structure WellFormed (encoding : Encoding) (folders : List Folder) : Prop where
  named : ∀ folder ∈ folders, ∀ file ∈ folder.files, ∃ name leaf,
    folder.name = some name ∧ file.path = Path.inFolder name leaf ∧
      Path.toArchive file.path = file.path ∧
      leaf ≠ "" ∧ '\x00' ∉ leaf.toList ∧
      (∀ character ∈ leaf.toList, Path.isSeparator character = false) ∧
      encoding.decode (encoding.encode leaf) = leaf ∧
      encoding.decode (encoding.encode name) = name
  spelled : ∀ folder ∈ folders, ∀ other ∈ folders, ∀ name otherName,
    folder.name = some name → other.name = some otherName →
      Lowercase.text name = Lowercase.text otherName → name = otherName

def Archive.contentsOf [Codecs] (archive : Archive) (file : FileRecord) : Bytes :=
  (archive.contents file).toOption.getD []

/-- Adding the entries of an archive to a builder reads them all. -/
theorem addFiles_eq_ok [Codecs] {archive : Archive} {files : List FileRecord} {builder : Builder}
    {after : Bethesda.Builder}
    (added : (Bethesda.Builder.tes4 builder).addFiles (files.map (.tes4 archive)) = .ok after) :
    after = .tes4 (builder.addAll (files.map fun file => (file.state, archive.contentsOf file))) ∧
      ∀ file ∈ files, archive.contents file = .ok (archive.contentsOf file) := by
  induction files generalizing builder with
  | nil =>
      cases added
      exact ⟨rfl, by simp⟩
  | cons file files ih =>
      obtain ⟨contents, read, others⟩ := Outcome.bind_eq_ok_iff.mp added
      obtain ⟨next, addedOne, others⟩ := Outcome.bind_eq_ok_iff.mp others
      cases addedOne
      change archive.contents file = .ok contents at read
      have contentsEq : archive.contentsOf file = contents := by
        rw [Archive.contentsOf, read]
        rfl
      obtain ⟨afterEq, allRead⟩ := ih others
      constructor
      · rw [afterEq, ← contentsEq]
        rfl
      · intro other member
        rcases List.mem_cons.mp member with rfl | later
        · rw [read, contentsEq]
        · exact allRead other later

/-- The parts of a rebuild that succeeds: the entries are listed and read, and a builder that they
were added to is finished. -/
theorem rebuildArranged_eq_ok [Codecs] {arrange : List Group → List Group} {archive : Archive}
    {count : Nat} {bytes : Bytes}
    (rebuilt : (Bethesda.Archive.tes4 archive).rebuildArranged arrange = .ok (count, bytes)) :
    ∃ files builder, archive.files = .ok files ∧ count = files.length ∧
      Builder.create archive.source.name archive.state = .ok builder ∧
      (∀ file ∈ files, archive.contents file = .ok (archive.contentsOf file)) ∧
      (builder.addAll (files.map fun file => (file.state, archive.contentsOf file))).buildArranged
        arrange = .ok bytes := by
  obtain ⟨created, createdOk, others⟩ := Outcome.bind_eq_ok_iff.mp rebuilt
  obtain ⟨listed, listedOk, others⟩ := Outcome.bind_eq_ok_iff.mp others
  obtain ⟨after, addedOk, others⟩ := Outcome.bind_eq_ok_iff.mp others
  obtain ⟨written, writtenOk, equal⟩ := Outcome.bind_eq_ok_iff.mp others
  cases equal
  change (Builder.create archive.source.name archive.state).map _ = _ at createdOk
  change archive.files.map _ = _ at listedOk
  obtain ⟨builder, builderOk, rfl⟩ := Outcome.map_eq_ok_iff.mp createdOk
  obtain ⟨files, filesOk, rfl⟩ := Outcome.map_eq_ok_iff.mp listedOk
  obtain ⟨rfl, allRead⟩ := addFiles_eq_ok addedOk
  exact ⟨files, builder, filesOk, List.length_map _, builderOk, allRead, writtenOk⟩

theorem rebuildArranged_of_steps [Codecs] {arrange : List Group → List Group}
    {archive : Archive} {builder finished : Builder} {files : List Bethesda.File} {bytes : Bytes}
    (created : Builder.create archive.source.name archive.state = .ok builder)
    (listed : (Bethesda.Archive.tes4 archive).files = .ok files)
    (added : (Bethesda.Builder.tes4 builder).addFiles files = .ok (.tes4 finished))
    (built : finished.buildArranged arrange = .ok bytes) :
    (Bethesda.Archive.tes4 archive).rebuildArranged arrange = .ok (files.length, bytes) := by
  have createdToo : Bethesda.Builder.create archive.source.name (.tes4 archive.state) =
      .ok (.tes4 builder) := by
    change (Builder.create archive.source.name archive.state).map _ = _
    rw [created]
    rfl
  change (Bethesda.Builder.create archive.source.name (.tes4 archive.state) >>= _) = _
  rw [createdToo, Outcome.ok_bind, listed, Outcome.ok_bind, added, Outcome.ok_bind]
  change (finished.buildArranged arrange >>= _) = _
  rw [built]
  rfl

/-- A file is listed under its own path among files whose folders do not differ in case alone. -/
theorem listedPath_eq_self {paths : List String} {path : String}
    (archiveForm : Path.toArchive path = path)
    (agree : ∀ other ∈ paths,
      Lowercase.text (Path.folder other) = Lowercase.text (Path.folder path) →
        Path.folder other = Path.folder path) :
    listedPath paths path = path := by
  have spelling : spelledFolder paths path = Path.folder path := by
    unfold spelledFolder
    cases found : firstSpelling? (paths.map Path.folder) (Lowercase.text (Path.folder path)) with
    | none => rfl
    | some folder =>
        have same := lowercase_of_firstSpelling? found
        obtain ⟨other, member, rfl⟩ := List.mem_map.mp (List.mem_of_find?_eq_some found)
        exact agree other member same
  rw [listedPath, spelling, Path.inFolder_parts archiveForm]

theorem WellFormed.parts {encoding : Encoding} {folders : List Folder}
    (wellFormed : WellFormed encoding folders) {file : FileRecord}
    (member : file ∈ folders.flatMap Folder.files) :
    file.state.Nameable encoding ∧ Path.toArchive file.path = file.path ∧
      ∃ folder ∈ folders, folder.name = some (Path.folder file.path) := by
  obtain ⟨folder, folderAmong, fileAmong⟩ := List.mem_flatMap.mp member
  obtain ⟨name, leaf, named, path, archiveForm, notEmpty, noZero, plain, leafSurvives,
    nameSurvives⟩ := wellFormed.named folder folderAmong file fileAmong
  obtain ⟨folderEq, leafEq⟩ : Path.folder (Path.inFolder name leaf) = name ∧
      Path.leaf (Path.inFolder name leaf) = leaf :=
    Path.parts_inFolder plain
  rw [← path] at folderEq leafEq
  refine ⟨?_, archiveForm, folder, folderAmong, by rw [named, folderEq]⟩
  constructor
  all_goals rw [show file.state.path = file.path from rfl, archiveForm]
  · rwa [leafEq]
  · rwa [leafEq]
  · rwa [leafEq]
  · rwa [folderEq]

theorem WellFormed.agree {encoding : Encoding} {folders : List Folder}
    (wellFormed : WellFormed encoding folders) {file other : FileRecord}
    (member : file ∈ folders.flatMap Folder.files)
    (otherMember : other ∈ folders.flatMap Folder.files)
    (same : Lowercase.text (Path.folder other.path) = Lowercase.text (Path.folder file.path)) :
    Path.folder other.path = Path.folder file.path := by
  obtain ⟨-, -, folder, folderAmong, named⟩ := wellFormed.parts member
  obtain ⟨-, -, otherFolder, otherAmong, otherNamed⟩ := wellFormed.parts otherMember
  exact wellFormed.spelled otherFolder otherAmong folder folderAmong _ _ otherNamed named same

/-- What is expected of an entry that is added again is what is seen of it now. -/
theorem expectedView_state [Codecs] {archive : Archive} {folders : List Folder}
    (wellFormed : WellFormed archive.header.version.encoding folders) {file : FileRecord}
    (member : file ∈ folders.flatMap Folder.files)
    (read : archive.contents file = .ok (archive.contentsOf file)) :
    expectedView archive.header.archiveFlags
        ((folders.flatMap Folder.files).map fun other => Path.toArchive other.path)
        file.state (archive.contentsOf file) = archive.view file := by
  have archiveForm := (wellFormed.parts member).2.1
  have path : listedPath ((folders.flatMap Folder.files).map fun other =>
      Path.toArchive other.path) (Path.toArchive file.path) = file.path := by
    rw [archiveForm]
    refine listedPath_eq_self archiveForm fun otherPath among same => ?_
    obtain ⟨other, otherMember, rfl⟩ := List.mem_map.mp among
    rw [(wellFormed.parts otherMember).2.1] at same ⊢
    exact wellFormed.agree member otherMember same
  unfold expectedView Archive.view
  rw [size_of_contents read, read]
  change EntryView.mk (listedPath _ (Path.toArchive file.path)) _ _ _ _ = _
  rw [path]
  rfl

/-- An archive with a well-formed listing is rebuilt into one with the same state and the same
entries. -/
theorem rebuild_then_read [Codecs] {archive : Archive} {folders : List Folder}
    {arrange : List Group → List Group} {count : Nat} {bytes : Bytes} (name : String)
    (folderNames : archive.header.archiveFlags.hasFolderNames)
    (fileNames : archive.header.archiveFlags.hasFileNames)
    (listed : archive.folders = .ok folders)
    (wellFormed : WellFormed archive.header.version.encoding folders)
    (arranged : ∀ groups, (arrange groups).Perm groups)
    (rebuilt : (Bethesda.Archive.tes4 archive).rebuildArranged arrange = .ok (count, bytes))
    (inverts : archive.header.version.compression.Inverts) :
    ∃ files opened listing, archive.files = .ok files ∧ count = files.length ∧
      Archive.open ⟨name, bytes⟩ = .ok opened ∧ opened.state = archive.state ∧
      opened.files = .ok listing ∧
      (listing.map opened.view).Perm (files.map archive.view) := by
  obtain ⟨files, builder, filesOk, countEq, created, allRead, built⟩ :=
    rebuildArranged_eq_ok rebuilt
  have filesEq : files = folders.flatMap Folder.files := by
    rw [Archive.files, listed] at filesOk
    exact (Except.ok.inj filesOk).symm
  have nameable : ∀ entry ∈ files.map (fun file => (file.state, archive.contentsOf file)),
      entry.1.Nameable archive.state.version.encoding := by
    intro entry member
    obtain ⟨file, among, rfl⟩ := List.mem_map.mp member
    rw [filesEq] at among
    exact (wellFormed.parts among).1
  obtain ⟨opened, reopenedFolders, listing, openedOk, stateEq, -, listingOk, seen⟩ :=
    build_then_read name created folderNames fileNames arranged built nameable inverts
  refine ⟨files, opened, listing, filesOk, countEq, openedOk, stateEq, listingOk, ?_⟩
  have expected : (files.map fun file => (file.state, archive.contentsOf file)).map (fun entry =>
      expectedView archive.header.archiveFlags
        ((files.map fun file => (file.state, archive.contentsOf file)).map fun other =>
          Path.toArchive other.1.path) entry.1 entry.2) = files.map archive.view := by
    rw [List.map_map, List.map_map]
    refine List.map_congr_left fun file among => ?_
    have read := allRead file among
    rw [filesEq] at among ⊢
    exact expectedView_state wellFormed among read
  rw [← expected]
  exact seen

/-- An archive that the builder would not write: records out of order, hashes of nothing, a gap
after the header, an empty folder, and two entries that share data. -/
def disorderedBytes : Bytes :=
  magic ++ Bytes.ofWord32 0x69 ++ Bytes.ofWord32 0x28 ++ Bytes.ofWord32 0x3 ++ Bytes.ofWord32 3 ++
    Bytes.ofWord32 2 ++ Bytes.zeros 4 ++ Bytes.ofWord32 12 ++ Bytes.ofWord32 0x7 ++
    Bytes.zeros 4 ++
    Bytes.ofWord64 9 ++ Bytes.ofWord64 1 ++ Bytes.zeros 8 ++
    Bytes.ofWord64 5 ++ Bytes.ofWord64 0 ++ Bytes.zeros 8 ++
    Bytes.ofWord64 1 ++ Bytes.ofWord64 1 ++ Bytes.zeros 8 ++
    [9] ++ Utf8.encode "textures" ++ [0] ++
    Bytes.ofWord64 4 ++ Bytes.ofWord32 4 ++ Bytes.ofWord32 181 ++
    [6] ++ Utf8.encode "empty" ++ [0] ++
    [7] ++ Utf8.encode "meshes" ++ [0] ++
    Bytes.ofWord64 2 ++ Bytes.ofWord32 2 ++ Bytes.ofWord32 182 ++
    Utf8.encode "b.dds" ++ [0] ++ Utf8.encode "a.nif" ++ [0] ++ [1, 2, 3, 4]

def disordered : Archive where
  source := ⟨"disordered.bsa", disorderedBytes⟩
  header := ⟨.sse, 0x28, ⟨0x3⟩, 3, 2, 0, 12, 0x7⟩

def disorderedFolders : List Folder :=
  [⟨9, 1, 0, some "textures", [⟨4, 4, 181, 0, 0, "textures\\b.dds"⟩]⟩,
    ⟨5, 0, 0, some "empty", []⟩,
    ⟨1, 1, 0, some "meshes", [⟨2, 2, 182, 0, 1, "meshes\\a.nif"⟩]⟩]

theorem disordered_wellFormed : WellFormed .windows1252 disorderedFolders where
  named := by
    have parts : ∀ folder ∈ disorderedFolders, ∀ file ∈ folder.files,
        folder.name = some (Path.folder file.path) ∧
          file.path = Path.inFolder (Path.folder file.path) (Path.leaf file.path) ∧
          Path.toArchive file.path = file.path ∧ Path.leaf file.path ≠ "" ∧
          '\x00' ∉ (Path.leaf file.path).toList ∧
          (Path.leaf file.path).toList.all (fun character => !Path.isSeparator character) ∧
          Encoding.windows1252.decode (Encoding.windows1252.encode (Path.leaf file.path)) =
            Path.leaf file.path ∧
          Encoding.windows1252.decode (Encoding.windows1252.encode (Path.folder file.path)) =
            Path.folder file.path := by
      decide +kernel
    intro folder among file fileAmong
    obtain ⟨name, path, archiveForm, notEmpty, noZero, plain, survive⟩ :=
      parts folder among file fileAmong
    have noSeparator : ∀ character ∈ (Path.leaf file.path).toList,
        Path.isSeparator character = false := by
      simpa using plain
    exact ⟨_, _, name, path, archiveForm, notEmpty, noZero, noSeparator, survive⟩
  spelled := by
    have spelling : ∀ folder ∈ disorderedFolders, ∀ other ∈ disorderedFolders,
        Lowercase.text (folder.name.getD "") = Lowercase.text (other.name.getD "") →
          folder.name.getD "" = other.name.getD "" := by
      decide +kernel
    intro folder among other otherAmong name otherName named otherNamed
    have same := spelling folder among other otherAmong
    rwa [named, otherNamed] at same

theorem rebuild_then_read_disordered :
    ∃ count bytes files opened listing,
      Archive.open ⟨"disordered.bsa", disorderedBytes⟩ = .ok disordered ∧
        (Bethesda.Archive.tes4 disordered).rebuildArranged List.reverse = .ok (count, bytes) ∧
        disordered.files = .ok files ∧ count = files.length ∧
        Archive.open ⟨"rebuilt.bsa", bytes⟩ = .ok opened ∧ opened.state = disordered.state ∧
        opened.files = .ok listing ∧
        (listing.map opened.view).Perm (files.map disordered.view) := by
  have openedOk : Archive.open ⟨"disordered.bsa", disorderedBytes⟩ = .ok disordered := by
    decide +kernel
  have listed : disordered.folders = .ok disorderedFolders := by decide +kernel
  let builder : Builder := ⟨"disordered.bsa", .sse, ⟨0x3⟩, 0x7, []⟩
  let added : Builder :=
    builder.addAll [(⟨"textures\\b.dds", 0, false⟩, [1, 2, 3, 4]),
      (⟨"meshes\\a.nif", 0, false⟩, [2, 3])]
  let files := (disorderedFolders.flatMap Folder.files).map (Bethesda.File.tes4 disordered)
  have createdOk : Builder.create "disordered.bsa" disordered.state = .ok builder := by
    decide +kernel
  have filesOk : (Bethesda.Archive.tes4 disordered).files = .ok files := by
    decide +kernel
  have addedOk : (Bethesda.Builder.tes4 builder).addFiles files = .ok (.tes4 added) := by
    decide +kernel
  have inOrder : (added.groups.map fun groups => decide (InOrder groups.reverse)) = .ok true := by
    decide +kernel
  obtain ⟨bytes, built⟩ := Builder.exists_buildArranged_eq_ok inOrder (by decide +kernel)
  have rebuilt : (Bethesda.Archive.tes4 disordered).rebuildArranged List.reverse =
      .ok (2, bytes) :=
    rebuildArranged_of_steps createdOk filesOk addedOk built
  obtain ⟨files, opened, listing, filesOk, countEq, reopened, stateEq, listingOk, seen⟩ :=
    rebuild_then_read "rebuilt.bsa" (by decide) (by decide) listed disordered_wellFormed
      List.reverse_perm rebuilt Compression.lz4Frame_inverts
  exact ⟨2, bytes, files, opened, listing, openedOk, rebuilt, filesOk, countEq, reopened, stateEq,
    listingOk, seen⟩

end Tes4
end GameArchive
