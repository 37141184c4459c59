import GameArchive.Proofs.Tes3.Placement
import GameArchive.Proofs.Text.Encoding
import Mathlib.Data.List.TakeWhile

/-!
# Building a Morrowind archive and reading it

The reader derives from the position of the hash table where the names end and where the data
begin.  On the image of a builder this leads it back to the listing that the builder wrote: every
entry has its name, its hashes and its window of the data, and the windows fill the rest of the
archive.
-/

namespace GameArchive
namespace Tes3

/-- Entries that are read one by one at their positions are read together. -/
theorem readFiles_eq_ok {source : Source} {dataOffset : Nat} {tables : Tables}
    {names hashes : Bytes} {files : List FileState} (first : Nat)
    (each : ∀ position file, files[position]? = some file →
      readFile source dataOffset tables names hashes (first + position) = .ok file) :
    readFiles source dataOffset tables names hashes files.length first = .ok files := by
  induction files generalizing first with
  | nil => rfl
  | cons file files ih =>
      have here := each 0 file rfl
      have others := ih (first + 1) (by
        intro position other there
        have further := each (position + 1) other there
        rwa [Nat.add_assoc, Nat.add_comm 1 position])
      rw [Nat.add_zero] at here
      rw [List.length_cons, readFiles, here, Outcome.ok_bind, others]
      rfl

/-- A name in a block of names ends at its own zero byte or before. -/
theorem takeWhile_append_zero (name rest : Bytes) :
    (name ++ 0 :: rest).takeWhile (· != 0) = name.takeWhile (· != 0) := by
  induction name with
  | nil => rfl
  | cons byte name ih =>
      rw [List.cons_append, List.takeWhile_cons, List.takeWhile_cons, ih]

namespace PendingFile

/-- A path without the zero character is shown as its bytes are read. -/
theorem shownPath_of_noZero {file : PendingFile} (noZero : '\x00' ∉ file.state.path.toList) :
    file.shownPath = encoding.decode (encoding.encode file.state.path) := by
  have whole : (encoding.encode file.state.path).takeWhile (· != 0) =
      encoding.encode file.state.path := by
    rw [List.takeWhile_eq_self_iff]
    intro byte member
    simpa using encoding.encode_nonzero noZero byte member
  rw [shownPath, whole]

section Words

variable {position dataOffset nameOffset : Nat} {file : PendingFile}
  (fits : file.Fits dataOffset nameOffset)

include fits in
theorem size_shown :
    (file.shown position dataOffset nameOffset).size.toNat = file.contents.length :=
  UInt32.toNat_ofNat_of_lt' fits.size

include fits in
theorem offset_shown :
    (file.shown position dataOffset nameOffset).offset.toNat = dataOffset :=
  UInt32.toNat_ofNat_of_lt' fits.offset

include fits in
theorem nameOffset_shown :
    (file.shown position dataOffset nameOffset).nameOffset.toNat = nameOffset :=
  UInt32.toNat_ofNat_of_lt' fits.nameOffset

end Words

end PendingFile

/-- The data of some entries fill the bytes from `start` to `stop` one after the other. -/
def Fill (dataOffset : Nat) : (start stop : Nat) → List FileState → Prop
  | start, stop, [] => start = stop
  | start, stop, file :: files =>
      dataOffset + file.offset.toNat = start ∧
        Fill dataOffset (start + file.size.toNat) stop files

theorem fill_listed (base position dataOffset nameOffset : Nat) {files : List PendingFile}
    (fits : ∀ (index : Nat) (file : PendingFile), files[index]? = some file →
      file.Fits (dataOffset + (dataOf (files.take index)).length)
        (nameOffset + (namesOf (files.take index)).length)) :
    Fill base (base + dataOffset) (base + dataOffset + (dataOf files).length)
      (listed position dataOffset nameOffset files) := by
  induction files generalizing position dataOffset nameOffset with
  | nil => rfl
  | cons file files ih =>
      have here := fits 0 file rfl
      change file.Fits dataOffset nameOffset at here
      have data : dataOf (file :: files) = file.contents ++ dataOf files := List.flatMap_cons
      have names : ∀ others, namesOf (file :: others) = file.name ++ namesOf others :=
        fun others => List.flatMap_cons
      have others := ih (position + 1) (dataOffset + file.contents.length)
        (nameOffset + file.name.length) (by
          intro index other there
          have further := fits (index + 1) other there
          rw [List.take_succ_cons, names, dataOf, List.flatMap_cons, List.length_append,
            List.length_append, ← Nat.add_assoc, ← Nat.add_assoc] at further
          exact further)
      rw [listed, Fill, PendingFile.offset_shown here, PendingFile.size_shown here]
      refine ⟨rfl, ?_⟩
      simp only [data, List.length_append, Nat.add_assoc] at others ⊢
      exact others

namespace Builder

variable {builder : Builder}

theorem getElem?_listing (index : Nat) :
    builder.listing[index]? =
      builder.sortedFiles[index]?.map (PendingFile.shown index
        (dataOf (builder.sortedFiles.take index)).length
        (namesOf (builder.sortedFiles.take index)).length) := by
  rw [listing, getElem?_listed, Nat.zero_add, Nat.zero_add, Nat.zero_add]

/-- The data of the file at an index stand where its entry says, and end inside the archive. -/
theorem data_image {index : Nat} {file : PendingFile}
    (there : builder.sortedFiles[index]? = some file) :
    (∃ rest, builder.image.drop
        (builder.dataStart + (dataOf (builder.sortedFiles.take index)).length) =
          file.contents ++ rest) ∧
      builder.dataStart + (dataOf (builder.sortedFiles.take index)).length +
        file.contents.length ≤ builder.image.length := by
  have row : builder.image = (builder.directory ++ dataOf (builder.sortedFiles.take index)) ++
      (file.contents ++ dataOf (builder.sortedFiles.drop (index + 1))) := by
    rw [image_eq, dataOf, Bytes.flatMap_split PendingFile.contents there, List.append_assoc]
    rfl
  have front : (builder.directory ++ dataOf (builder.sortedFiles.take index)).length =
      builder.dataStart + (dataOf (builder.sortedFiles.take index)).length := by
    rw [List.length_append, length_directory]
  constructor
  · exact ⟨_, row ▸ Bytes.drop_append _ _ front⟩
  · rw [row, List.length_append, front, List.length_append]
    omega

theorem nameAt_namesOf (archive : String) {index : Nat} {file : PendingFile} {nameOffset : UInt32}
    (there : builder.sortedFiles[index]? = some file)
    (offset : nameOffset.toNat = (namesOf (builder.sortedFiles.take index)).length) :
    nameAt archive (namesOf builder.sortedFiles) nameOffset = .ok file.shownPath := by
  have row : namesOf builder.sortedFiles = namesOf (builder.sortedFiles.take index) ++
      (encoding.encode file.state.path ++
        0 :: namesOf (builder.sortedFiles.drop (index + 1))) := by
    rw [namesOf, Bytes.flatMap_split PendingFile.name there, PendingFile.name, List.append_assoc]
    rfl
  have inside : ¬ (namesOf builder.sortedFiles).length < nameOffset.toNat := by
    rw [row, List.length_append]
    omega
  rw [nameAt, if_neg inside, row, offset, List.drop_left, takeWhile_append_zero]
  rfl

/-- An entry of the listing is found in its rows of the tables. -/
theorem tableWords_listing {index : Nat} {file : FileState}
    (there : builder.listing[index]? = some file) :
    tableWord builder.tables.records (2 * index) = file.size ∧
      tableWord builder.tables.records (2 * index + 1) = file.offset ∧
      tableWord builder.tables.nameOffsets index = file.nameOffset ∧
      tableWord (builder.listing.flatMap FileState.hashes) (2 * index) = file.hash1 ∧
      tableWord (builder.listing.flatMap FileState.hashes) (2 * index + 1) = file.hash2 := by
  have records : ∀ column < 2,
      tableWord builder.tables.records (2 * index + column) = tableWord file.record column :=
    fun column => tableWord_flatMap FileState.record (fun file _ => file.length_record) there
  have hashes : ∀ column < 2,
      tableWord (builder.listing.flatMap FileState.hashes) (2 * index + column) =
        tableWord file.hashes column :=
    fun column => tableWord_flatMap FileState.hashes (fun file _ => file.length_hashes) there
  have nameOffset : tableWord builder.tables.nameOffsets (1 * index + 0) =
      tableWord (Bytes.ofWord32 file.nameOffset ++ []) 0 := by
    rw [List.append_nil]
    exact tableWord_flatMap (fun file : FileState => Bytes.ofWord32 file.nameOffset)
      (fun _ _ => Bytes.length_ofWord32 _) there (by decide)
  rw [Nat.one_mul, Nat.add_zero, tableWord_append] at nameOffset
  refine ⟨?_, ?_, nameOffset, ?_, ?_⟩
  · exact (records 0 (by decide)).trans (tableWord_record file).1
  · exact (records 1 (by decide)).trans (tableWord_record file).2
  · exact (hashes 0 (by decide)).trans (tableWord_hashes file).1
  · exact (hashes 1 (by decide)).trans (tableWord_hashes file).2

/-- Every entry is read from its rows of the tables. -/
theorem readFile_image (name : String) (writable : builder.Writable) {index : Nat}
    {file : FileState} (there : builder.listing[index]? = some file) :
    readFile ⟨name, builder.image⟩ builder.dataStart builder.tables
        (namesOf builder.sortedFiles) (builder.listing.flatMap FileState.hashes) index =
      .ok file := by
  obtain ⟨size, offset, nameOffset, hash1, hash2⟩ := tableWords_listing there
  rw [getElem?_listing] at there
  obtain ⟨pending, pendingThere, rfl⟩ := Option.map_eq_some_iff.mp there
  have fits := writable.fits index pending pendingThere
  have nameOffsetEq : (pending.shown index (dataOf (builder.sortedFiles.take index)).length
      (namesOf (builder.sortedFiles.take index)).length).nameOffset.toNat =
        (namesOf (builder.sortedFiles.take index)).length :=
    PendingFile.nameOffset_shown fits
  have path := nameAt_namesOf name pendingThere nameOffsetEq
  have inside : ¬ builder.image.length <
      builder.dataStart + (dataOf (builder.sortedFiles.take index)).length +
        pending.contents.length :=
    Nat.not_lt.mpr (data_image pendingThere).2
  unfold readFile
  simp only [size, offset, nameOffset, hash1, hash2, PendingFile.offset_shown fits,
    PendingFile.size_shown fits, if_neg inside, path, Outcome.ok_bind]
  rfl

theorem fileCount_tables (few : builder.sortedFiles.length < UInt32.size) :
    builder.tables.fileCount.toNat = builder.sortedFiles.length :=
  UInt32.toNat_ofNat_of_lt' few

theorem hashOffset_tables (fits : builder.hashOffset < UInt32.size) :
    builder.tables.hashOffset.toNat = builder.hashOffset :=
  UInt32.toNat_ofNat_of_lt' fits

/-- The state that an archive shows. -/
def shownState (builder : Builder) : State where
  versionNumber := builder.versionNumber
  fileCount := UInt32.ofNat builder.sortedFiles.length
  dataOffset := UInt64.ofNat builder.dataStart
  hashOffset := UInt32.ofNat builder.hashOffset

theorem dataOffset_shownState (writable : builder.Writable) :
    builder.shownState.dataOffset.toNat = builder.dataStart := by
  have few := writable.few
  have hashOffset := writable.hashOffset
  apply UInt64.toNat_ofNat_of_lt'
  unfold UInt32.size at few hashOffset
  unfold UInt64.size dataStart headerLength
  omega

/-- The image of a builder is opened with the listing that the builder wrote. -/
theorem open_image (name : String) (known : builder.versionNumber = Tes3.versionNumber)
    (writable : builder.Writable) :
    Archive.open ⟨name, builder.image⟩ = .ok {
      source := ⟨name, builder.image⟩
      state := builder.shownState
      files := builder.listing } := by
  have count := fileCount_tables writable.few
  have hashTable : headerLength + builder.tables.hashOffset.toNat =
      headerLength + 12 * builder.sortedFiles.length + (namesOf builder.sortedFiles).length := by
    rw [hashOffset_tables writable.hashOffset, hashOffset, Nat.add_assoc]
  have namesLength : (namesOf builder.sortedFiles).length =
      headerLength + builder.tables.hashOffset.toNat -
        (headerLength + 12 * builder.sortedFiles.length) := by
    omega
  have names := readBlock_append name none (namesOf builder.sortedFiles)
    (builder.listing.flatMap FileState.hashes ++ dataOf builder.sortedFiles) namesLength
  have hashes := readBlock_append name none (builder.listing.flatMap FileState.hashes)
    (dataOf builder.sortedFiles) builder.length_hashes
  have dataOffset : headerLength + builder.tables.hashOffset.toNat +
      8 * builder.sortedFiles.length = builder.dataStart := by
    rw [hashOffset_tables writable.hashOffset, dataStart]
  have files : readFiles ⟨name, builder.image⟩ builder.dataStart builder.tables
      (namesOf builder.sortedFiles) (builder.listing.flatMap FileState.hashes)
      builder.listing.length 0 = .ok builder.listing := by
    apply readFiles_eq_ok
    intro position file there
    rw [Nat.zero_add]
    exact readFile_image name writable there
  rw [length_listing] at files
  have version : ¬ builder.tables.versionNumber ≠ Tes3.versionNumber := not_not.mpr known
  have inOrder : ¬ headerLength + builder.tables.hashOffset.toNat <
      headerLength + 12 * builder.sortedFiles.length := by
    omega
  have rest : builder.tables.rest = namesOf builder.sortedFiles ++
      (builder.listing.flatMap FileState.hashes ++ dataOf builder.sortedFiles) := rfl
  unfold Archive.open
  simp only [read?_image writable.few, if_neg version, count, if_neg inOrder, rest, names, hashes,
    Outcome.ok_bind, dataOffset, files]
  rfl

/-- An image with another version number is refused. -/
theorem open_image_unknown (name : String) (unknown : builder.versionNumber ≠ Tes3.versionNumber)
    (few : builder.sortedFiles.length < UInt32.size) :
    Archive.open ⟨name, builder.image⟩ =
      .error (.invalidFormat name (.unknownTes3Version builder.versionNumber.toNat)) := by
  unfold Archive.open
  simp only [read?_image few]
  exact if_pos unknown

/-- The windows of the listing fill the archive from the end of the directory on. -/
theorem fill_listing (writable : builder.Writable) :
    Fill builder.dataStart builder.dataStart builder.image.length builder.listing := by
  have fits := writable.fits
  have filled := fill_listed builder.dataStart 0 0 0 (by simpa using fits)
  rwa [Nat.add_zero, ← length_image] at filled

def addAll (builder : Builder) (added : List (FileState × Bytes)) : Builder :=
  added.foldl (fun builder entry => builder.add entry.1 entry.2) builder

theorem addAll_eq (builder : Builder) (added : List (FileState × Bytes)) :
    builder.addAll added =
      { builder with files := builder.files ++ added.map fun entry => ⟨entry.1, entry.2⟩ } := by
  induction added generalizing builder with
  | nil => simp [addAll]
  | cons entry added ih =>
      change (builder.add entry.1 entry.2).addAll added = _
      rw [ih]
      simp [add]

theorem sortedFiles_addAll (archive : String) (state : State)
    (added : List (FileState × Bytes)) :
    ((create archive state).addAll added).sortedFiles =
      (added.mergeSort fun first second => first.1.index ≤ second.1.index).map
        fun entry => ⟨entry.1, entry.2⟩ := by
  rw [addAll_eq, sortedFiles]
  exact (List.map_mergeSort (f := fun entry : FileState × Bytes => PendingFile.mk entry.1 entry.2)
    fun _ _ _ _ => rfl).symm

end Builder

theorem contents_of_drop {archive : Archive} {file : FileState} {contents rest : Bytes}
    (there : archive.source.bytes.drop (archive.state.dataOffset.toNat + file.offset.toNat) =
      contents ++ rest) (size : file.size.toNat = contents.length) :
    archive.contents file = .ok contents := by
  unfold Archive.contents
  simp only [there, readBlock_append _ _ _ _ size.symm, Outcome.ok_bind]
  rfl

/-- What is to be seen of a file at the given position of an opened archive. -/
structure Shows (archive : Archive) (position : Nat) (state : FileState) (contents : Bytes)
    (file : FileState) : Prop where
  path : file.path = state.path
  index : file.index = position
  hash1 : file.hash1 = state.hash1
  hash2 : file.hash2 = state.hash2
  size : file.size.toNat = contents.length
  readable : archive.contents file = .ok contents

theorem Builder.shows_listing {builder : Builder} (name : String) (writable : builder.Writable)
    {position : Nat} {state : FileState} {contents : Bytes}
    (there : builder.sortedFiles[position]? = some ⟨state, contents⟩)
    (noZero : '\x00' ∉ state.path.toList)
    (survives : encoding.decode (encoding.encode state.path) = state.path) :
    ∃ file, builder.listing[position]? = some file ∧
      Shows ⟨⟨name, builder.image⟩, builder.shownState, builder.listing⟩ position state contents
        file := by
  have fits := writable.fits position _ there
  obtain ⟨⟨rest, data⟩, -⟩ := data_image there
  have shown := builder.getElem?_listing position
  rw [there, Option.map_some] at shown
  refine ⟨_, shown, ?_⟩
  exact {
    path := (PendingFile.shownPath_of_noZero noZero).trans survives
    index := rfl
    hash1 := rfl
    hash2 := rfl
    size := PendingFile.size_shown fits
    readable := by
      apply contents_of_drop
      · rw [dataOffset_shownState writable, PendingFile.offset_shown fits]
        exact data
      · exact PendingFile.size_shown fits }

/-- An archive that is built from some files lists them in the order of their indices, and their
windows fill it from the end of the directory on. -/
theorem build_then_list {archive : String} {state : State} {added : List (FileState × Bytes)}
    {bytes : Bytes} (name : String) (known : state.versionNumber = versionNumber)
    (built : ((Builder.create archive state).addAll added).build = .ok bytes)
    (noZero : ∀ entry ∈ added, '\x00' ∉ entry.1.path.toList)
    (survive : ∀ entry ∈ added,
      encoding.decode (encoding.encode entry.1.path) = entry.1.path) :
    ∃ opened, Archive.open ⟨name, bytes⟩ = .ok opened ∧
      opened.state.versionNumber = versionNumber ∧
      opened.state.fileCount.toNat = added.length ∧
      opened.state.dataOffset.toNat =
        12 + opened.state.hashOffset.toNat + 8 * opened.state.fileCount.toNat ∧
      opened.files.length = added.length ∧
      (∀ position entry,
        (added.mergeSort fun first second => first.1.index ≤ second.1.index)[position]? =
            some entry →
          ∃ file, opened.files[position]? = some file ∧
            Shows opened position entry.1 entry.2 file) ∧
      Fill opened.state.dataOffset.toNat opened.state.dataOffset.toNat bytes.length
        opened.files := by
  let finished : Builder := (Builder.create archive state).addAll added
  have version : finished.versionNumber = versionNumber := by
    rw [← known]
    exact congrArg Builder.versionNumber (Builder.addAll_eq _ added)
  obtain ⟨rfl, writable⟩ := Builder.build_eq_ok built
  have dataOffset := finished.dataOffset_shownState writable
  have sorted : finished.sortedFiles =
      (added.mergeSort fun first second => first.1.index ≤ second.1.index).map
        fun entry => ⟨entry.1, entry.2⟩ :=
    Builder.sortedFiles_addAll archive state added
  have sameLength : finished.sortedFiles.length = added.length := by
    rw [sorted, List.length_map, List.length_mergeSort]
  have count : finished.shownState.fileCount.toNat = finished.sortedFiles.length :=
    Builder.fileCount_tables writable.few
  have hashOffset : finished.shownState.hashOffset.toNat = finished.hashOffset :=
    Builder.hashOffset_tables writable.hashOffset
  refine ⟨_, finished.open_image name version writable, version, ?_, ?_, ?_, ?_, ?_⟩
  · exact count.trans sameLength
  · rw [dataOffset, count, hashOffset]
    rfl
  · exact Builder.length_listing.trans sameLength
  · intro position entry there
    have fileThere : finished.sortedFiles[position]? = some ⟨entry.1, entry.2⟩ := by
      rw [sorted, List.getElem?_map, there]
      rfl
    have among : entry ∈ added := List.mem_mergeSort.mp (List.mem_of_getElem? there)
    exact finished.shows_listing name writable fileThere (noZero entry among)
      (survive entry among)
  · rw [dataOffset]
    exact finished.fill_listing writable

/-- Three files, two of which have the same index and one of which is empty. -/
def sampleFiles : List (FileState × Bytes) :=
  [(⟨"meshes\\b.nif", 5, 0, 0, 0, 0x11, 0x22⟩, [1, 2, 3]),
    (⟨"icons\\a.tga", 2, 0, 0, 0, 0x33, 0x44⟩, []),
    (⟨"meshes\\é.nif", 5, 0, 0, 0, 0x55, 0x66⟩, [4])]

def sampleState : State where
  versionNumber := versionNumber
  fileCount := 0
  dataOffset := 0
  hashOffset := 0

/-- The files in the order in which they are listed. -/
def sampleOrder : List (FileState × Bytes) :=
  [(⟨"icons\\a.tga", 2, 0, 0, 0, 0x33, 0x44⟩, []),
    (⟨"meshes\\b.nif", 5, 0, 0, 0, 0x11, 0x22⟩, [1, 2, 3]),
    (⟨"meshes\\é.nif", 5, 0, 0, 0, 0x55, 0x66⟩, [4])]

theorem build_then_list_repeatedIndex :
    ∃ bytes opened,
      ((Builder.create "sample.bsa" sampleState).addAll sampleFiles).build = .ok bytes ∧
        Archive.open ⟨"sample.bsa", bytes⟩ = .ok opened ∧ opened.files.length = 3 ∧
        (∀ position entry, sampleOrder[position]? = some entry →
          ∃ file, opened.files[position]? = some file ∧
            Shows opened position entry.1 entry.2 file) ∧
        Fill opened.state.dataOffset.toNat opened.state.dataOffset.toNat bytes.length
          opened.files := by
  let builder : Builder := (Builder.create "sample.bsa" sampleState).addAll sampleFiles
  have sorted : (sampleFiles.mergeSort fun first second => first.1.index ≤ second.1.index) =
      sampleOrder := by
    simp [sampleFiles, sampleOrder, List.mergeSort, List.MergeSort.Internal.splitInTwo]
  have sortedFiles : builder.sortedFiles =
      sampleOrder.map fun entry => ⟨entry.1, entry.2⟩ := by
    rw [← sorted]
    exact Builder.sortedFiles_addAll "sample.bsa" sampleState sampleFiles
  obtain ⟨bytes, built⟩ : ∃ bytes, builder.build = .ok bytes := by
    apply Outcome.exists_ok_of_isOk
    rw [Builder.build, sortedFiles]
    decide +kernel
  obtain ⟨opened, openedOk, -, -, -, count, shows, filled⟩ :=
    build_then_list "sample.bsa" (rfl : sampleState.versionNumber = versionNumber) built
      (by decide) (by decide +kernel)
  rw [sorted] at shows
  exact ⟨bytes, opened, built, openedOk, count, shows, filled⟩

end Tes3
end GameArchive
