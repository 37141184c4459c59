import GameArchive.Proofs.Bethesda.Truncation
import GameArchive.Proofs.Tes4.Listing

/-!
# The windows of entries

A reader checks once, when an archive is opened or listed, that every entry ends inside the archive,
and never looks at that end again.  Where the data of an entry begin is found out later: it is an
offset from the end of the directory, or lies behind a path and a size that stand in the data.  This
module proves for any bytes whatsoever that both come to the same end, so that an entry which is not
compressed is read as its window, and the decoder of any other sees nothing beyond it.
-/

namespace GameArchive

/-- A window that ends inside some bytes shows as many as it promises. -/
theorem Bytes.length_window {bytes : Bytes} {start length : Nat}
    (inside : start + length ≤ bytes.length) : (bytes.window start length).length = length := by
  rw [window, List.length_take, List.length_drop]
  omega

theorem readBlock_drop (archive : String) (entry : Option String) {bytes : Bytes}
    {start length : Nat} (inside : start + length ≤ bytes.length) :
    readBlock archive entry length (bytes.drop start) =
      .ok (bytes.window start length, bytes.drop (start + length)) := by
  rw [readBlock_eq_ok, Bytes.window_append_drop]
  exact ⟨rfl, Bytes.length_window inside⟩

theorem Delivery.takeExactly_ready (archive : String) (entry : Option String) {bytes : Bytes}
    {count : Nat} (lengthEq : bytes.length = count) :
    (Delivery.ready bytes).takeExactly archive entry count = .ok bytes := by
  have everything : (Delivery.ready bytes).all? = some bytes := rfl
  rw [← lengthEq, Delivery.takeExactly_of_all? everything]

/-- A decoder sees of its input no more than the packed length. -/
theorem Compression.deliver_take [Codecs] (compression : Compression) (input : Bytes)
    {packedLength unpackedLength : Nat}
    (stored : compression = .stored → unpackedLength ≤ packedLength) :
    compression.deliver (input.take packedLength) packedLength unpackedLength =
      compression.deliver input packedLength unpackedLength := by
  cases compression with
  | stored => rw [deliver, deliver, List.take_take, Nat.min_eq_left (stored rfl)]
  | zlib | lz4Frame | lz4Block =>
      simp only [deliver, List.take_take, Nat.min_self]

namespace Tes3

/-! ## Morrowind archives -/

/-- An entry is read from its window behind the directory. -/
structure Archive.ReadsWindow (archive : Archive) (bytes : Bytes) (file : FileState) : Prop where
  /-- The end of the directory has not been cut to a word. -/
  dataOffset : archive.state.dataOffset.toNat =
    headerLength + archive.state.hashOffset.toNat + 8 * archive.state.fileCount.toNat
  inside : archive.state.dataOffset.toNat + file.offset.toNat + file.size.toNat ≤ bytes.length
  addressable : archive.state.dataOffset.toNat + file.offset.toNat + file.size.toNat < UInt64.size
  contents : archive.contents file =
    .ok (bytes.window (archive.state.dataOffset.toNat + file.offset.toNat) file.size.toNat)

theorem readFiles_inside {source : Source} {dataOffset count index : Nat} {tables : Tables}
    {names hashes : Bytes} {files : List FileState}
    (succeeded : readFiles source dataOffset tables names hashes count index = .ok files) :
    ∀ file ∈ files, dataOffset + file.offset.toNat + file.size.toNat ≤ source.bytes.length := by
  induction count generalizing index files with
  | zero =>
      cases succeeded
      exact fun _ => nofun
  | succ count ih =>
      obtain ⟨file, here, others⟩ := Outcome.bind_eq_ok_iff.mp succeeded
      obtain ⟨rest, further, equal⟩ := Outcome.bind_eq_ok_iff.mp others
      cases equal
      obtain ⟨-, -, inside⟩ := readFile_eq_ok here
      exact List.forall_mem_cons.mpr ⟨inside, ih further⟩

theorem Archive.readsWindow_of_open {source : Source} {archive : Archive}
    (opened : Archive.open source = .ok archive) :
    ∀ file ∈ archive.files, archive.ReadsWindow source.bytes file := by
  obtain ⟨tables, names, hashes, rest, others, -, -, -, filesOk, rfl, state⟩ :=
    Archive.open_eq_ok opened
  intro file member
  have dataOffset : archive.state.dataOffset.toNat =
      headerLength + archive.state.hashOffset.toNat + 8 * archive.state.fileCount.toNat := by
    have hashOffset := tables.hashOffset.toNat_lt
    have fileCount := tables.fileCount.toNat_lt
    rw [state]
    refine UInt64.toNat_ofNat_of_lt' ?_
    unfold UInt64.size headerLength
    omega
  have inside : archive.state.dataOffset.toNat + file.offset.toNat + file.size.toNat ≤
      archive.source.bytes.length := by
    have within := readFiles_inside filesOk file member
    rw [dataOffset, state]
    exact within
  refine ⟨dataOffset, inside, ?_, ?_⟩
  · have hashOffset := archive.state.hashOffset.toNat_lt
    have fileCount := archive.state.fileCount.toNat_lt
    have offset := file.offset.toNat_lt
    have size := file.size.toNat_lt
    rw [dataOffset]
    unfold UInt64.size headerLength
    omega
  · unfold contents
    simp only
    rw [readBlock_drop _ _ inside]
    rfl

end Tes3

namespace Ba2

/-! ## BA2 archives -/

/-- The number of bytes that the data of an entry take. -/
def File.onDisk (file : File) : Nat :=
  if file.packedSize = 0 then file.unpackedSize else file.packedSize

/-- An entry ends inside the archive, and is read from its window if it is not packed. -/
structure Archive.ReadsWindow [Codecs] (archive : Archive) (bytes : Bytes) (file : File) :
    Prop where
  /-- The end is no position beyond those of the archive, however great the offset is. -/
  inside : file.offset + file.onDisk ≤ bytes.length
  contents : file.packedSize = 0 → archive.contents file =
    .ok (bytes.window file.offset file.unpackedSize)

theorem readFiles_inside {source : Source} {records : List Record} {index : Nat}
    {names : Option (List String)} {files : List File}
    (succeeded : readFiles source records index names = .ok files) :
    ∀ file ∈ files, file.offset + file.onDisk ≤ source.bytes.length := by
  induction records generalizing index names files with
  | nil =>
      cases succeeded
      exact fun _ => nofun
  | cons record records ih =>
      obtain ⟨inside, file, others, rfl, offset, packedSize, unpackedSize, further⟩ :=
        readFiles_cons_eq_ok succeeded
      refine List.forall_mem_cons.mpr ⟨?_, ih further⟩
      have packed : record.packedSize.toNat = 0 ↔ record.packedSize = 0 := by
        rw [← UInt32.toNat_inj]
        rfl
      unfold Record.onDisk at inside
      rwa [File.onDisk, offset, packedSize, unpackedSize, if_congr packed rfl rfl]

theorem Archive.readsWindow_of_open [Codecs] {source : Source} {archive : Archive}
    (opened : Archive.open source = .ok archive) :
    ∀ file ∈ archive.files, archive.ReadsWindow source.bytes file := by
  obtain ⟨_, _, _, _, _, _, _, _, -, -, -, -, -, filesOk, rfl⟩ := Archive.open_eq_ok opened
  intro file member
  have inside := readFiles_inside filesOk file member
  refine ⟨inside, fun unpacked => ?_⟩
  rw [File.onDisk, if_pos unpacked] at inside
  have plain : file.isCompressed = false := by rw [File.isCompressed, unpacked]; rfl
  unfold contents
  simp only [plain, Bool.false_eq_true, if_false, Compression.deliver]
  exact Delivery.takeExactly_ready _ _ (Bytes.length_window inside)

end Ba2

namespace Tes4

/-! ## Archives of the TES4 family -/

/-- What the decoder of an entry makes of its payload. -/
def Archive.unpack [Codecs] (archive : Archive) (file : FileRecord) (start : DataStart) :
    Except ExtractError Bytes :=
  let compression :=
    if archive.isCompressed file then archive.header.version.compression else .stored
  match compression.deliver start.payload start.onDisk start.size with
  | .error cause => .error (.io archive.source.name cause)
  | .ok delivery => delivery.takeExactly archive.source.name (some file.path) start.size

/-- The last bytes of the window of an entry, as many as its payload takes. -/
def FileRecord.payload (file : FileRecord) (bytes : Bytes) (start : DataStart) : Bytes :=
  bytes.window (file.windowEnd - start.onDisk) start.onDisk

/-- The decoder of an entry is given the last bytes of its window.  What is not packed is read as it
stands there. -/
structure Archive.ReadsPayload [Codecs] (archive : Archive) (bytes : Bytes) (file : FileRecord)
    (start : DataStart) : Prop where
  /-- The payload does not begin before the data of the entry. -/
  within : file.offset.toNat ≤ file.windowEnd - start.onDisk ∧ start.onDisk ≤ file.windowEnd
  payload : start.payload.take start.onDisk = file.payload bytes start
  contents : archive.contents file =
    archive.unpack file { start with payload := file.payload bytes start }
  stored : archive.isCompressed file = false → start.size = start.onDisk ∧
    archive.contents file = .ok (file.payload bytes start)

/-- The window of an entry ends inside the archive.  If the sizes of the entry can be told, its
payload is read from there. -/
structure Archive.ReadsWindow [Codecs] (archive : Archive) (bytes : Bytes) (file : FileRecord) :
    Prop where
  inside : file.windowEnd ≤ bytes.length
  addressable : file.windowEnd < UInt64.size
  payload : ∀ start, archive.dataStart file = .ok start → archive.ReadsPayload bytes file start

theorem Version.compression_ne_stored (version : Version) : version.compression ≠ .stored := by
  cases version <;> exact nofun

/-- A file that was read ends inside the archive, and has its path from a folder and one of some
names, or from its hash. -/
structure FileRecord.ReadFrom (source : Source) (folder : Option String) (names : List String)
    (file : FileRecord) : Prop where
  inside : file.dataEnd ≤ source.bytes.length
  path : ∃ name : Option String, file.path = filePath folder name file.hash ∧
    ∀ text ∈ name, text ∈ names

theorem FileRecord.ReadFrom.mono {source : Source} {folder : Option String}
    {names others : List String} {file : FileRecord} (readFrom : file.ReadFrom source folder names)
    (among : names ⊆ others) : file.ReadFrom source folder others := by
  obtain ⟨name, path, found⟩ := readFrom.path
  exact ⟨readFrom.inside, name, path, fun text member => among (found text member)⟩

theorem readFrom_of_readFiles {source : Source} {folder : Option String}
    {count index overallIndex : Nat} {names : List String} {bytes : Bytes}
    {files : List FileRecord}
    (succeeded : readFiles source folder count index overallIndex names bytes = .ok files) :
    ∀ file ∈ files, file.ReadFrom source folder names := by
  induction count generalizing index overallIndex names bytes files with
  | zero =>
      cases succeeded
      exact fun _ => nofun
  | succ count ih =>
      rw [readFiles] at succeeded
      simp only at succeeded
      split at succeeded
      · cases succeeded
      · next inside =>
          obtain ⟨rest, further, equal⟩ := Outcome.bind_eq_ok_iff.mp succeeded
          cases equal
          refine List.forall_mem_cons.mpr ⟨⟨Nat.le_of_not_lt inside, names.head?, rfl,
            fun text => List.mem_of_mem_head?⟩, fun file member => ?_⟩
          exact (ih further file member).mono fun _ => List.mem_of_mem_tail

theorem readFrom_of_readFolders {source : Source} {blocks : List FolderBlock}
    {overallIndex : Nat} {names : List String} {folders : List Folder}
    (succeeded : readFolders source blocks overallIndex names = .ok folders) :
    ∀ file ∈ folders.flatMap Folder.files, ∃ block ∈ blocks,
      file.ReadFrom source block.name names := by
  induction blocks generalizing overallIndex names folders with
  | nil =>
      cases succeeded
      exact fun _ => nofun
  | cons block blocks ih =>
      obtain ⟨files, filesOk, others⟩ := Outcome.bind_eq_ok_iff.mp succeeded
      obtain ⟨rest, further, equal⟩ := Outcome.bind_eq_ok_iff.mp others
      cases equal
      rw [List.flatMap_cons]
      refine List.forall_mem_append.mpr ⟨fun file member => ?_, fun file member => ?_⟩
      · exact ⟨block, List.mem_cons_self .., readFrom_of_readFiles filesOk file member⟩
      · obtain ⟨other, among, readFrom⟩ := ih further file member
        exact ⟨other, List.mem_cons_of_mem _ among, readFrom.mono (List.drop_subset _ names)⟩

theorem Archive.windowEnd_le_of_files {archive : Archive} {files : List FileRecord}
    (listed : archive.files = .ok files) :
    ∀ file ∈ files, file.windowEnd ≤ archive.source.bytes.length := by
  obtain ⟨folders, foldersOk, equal⟩ := Outcome.bind_eq_ok_iff.mp listed
  cases equal
  obtain ⟨_, -, foldersOk⟩ := Outcome.bind_eq_ok_iff.mp foldersOk
  obtain ⟨_, -, foldersOk⟩ := Outcome.bind_eq_ok_iff.mp foldersOk
  obtain ⟨_, -, foldersOk⟩ := Outcome.bind_eq_ok_iff.mp foldersOk
  intro file member
  rw [file.windowEnd_eq]
  obtain ⟨block, -, readFrom⟩ := readFrom_of_readFolders foldersOk file member
  exact readFrom.inside

section DataStart

variable {archive : Archive} {file : FileRecord}

theorem Archive.skipNameBlob_eq_ok {bytes rest : Bytes} {skipped : Nat}
    (succeeded : archive.skipNameBlob file bytes = .ok (skipped, rest)) :
    rest = bytes.drop skipped := by
  unfold skipNameBlob at succeeded
  split at succeeded
  · obtain ⟨⟨length, others⟩, lengthOk, equal⟩ := Outcome.bind_eq_ok_iff.mp succeeded
    cases equal
    obtain ⟨rfl, lengthEq⟩ := readBlock_eq_ok.mp lengthOk
    rw [Nat.add_comm, ← List.drop_drop, ← lengthEq, List.drop_left]
  · cases succeeded
    rfl

/-- The start of an entry and its payload make up its data. -/
theorem Archive.dataStart_eq_ok {start : DataStart}
    (succeeded : archive.dataStart file = .ok start) :
    ∃ front, front + start.onDisk = file.dataLength ∧
      start.payload = archive.source.bytes.drop (file.offset.toNat + front) ∧
      (archive.isCompressed file = false → start.size = start.onDisk) := by
  unfold dataStart at succeeded
  simp only at succeeded
  split at succeeded
  · cases succeeded
  · next enough =>
      obtain ⟨⟨skipped, behindPath⟩, skippedOk, others⟩ := Outcome.bind_eq_ok_iff.mp succeeded
      obtain ⟨⟨size, payload⟩, sizeOk, others⟩ := Outcome.bind_eq_ok_iff.mp others
      have path := skipNameBlob_eq_ok skippedOk
      obtain ⟨behind, sizeLength⟩ := readBlock_eq_ok.mp sizeOk
      change behindPath = size ++ payload at behind
      -- What the size word takes is what was taken away before.
      have whole : (if archive.isCompressed file then file.dataLength - 4 else file.dataLength) +
          size.length = file.dataLength := by
        rw [sizeLength]
        split
        · next packed =>
            exact Nat.sub_add_cancel (Nat.le_of_not_lt fun small => enough ⟨packed, small⟩)
        · rfl
      simp only at others
      generalize (if archive.isCompressed file then file.dataLength - 4 else file.dataLength) =
        length at others whole
      split at others
      · cases others
      · next room =>
          cases others
          refine ⟨skipped + size.length, ?_, ?_, ?_⟩
          · simp only
            omega
          · rw [← Nat.add_assoc, ← List.drop_drop, ← List.drop_drop, ← path, behind, List.drop_left]
          · intro plain
            rw [plain]
            rfl

end DataStart

theorem Archive.source_of_open {source : Source} {archive : Archive}
    (opened : Archive.open source = .ok archive) : archive.source = source := by
  obtain ⟨rest, -, others⟩ := Outcome.bind_eq_ok_iff.mp opened
  split at others
  · cases others
  · split at others
    · cases others
    · cases others
      rfl

variable [Codecs] {archive : Archive} {file : FileRecord} {start : DataStart}

theorem Archive.readsPayload_of_dataStart (inside : file.windowEnd ≤ archive.source.bytes.length)
    (succeeded : archive.dataStart file = .ok start) :
    archive.ReadsPayload archive.source.bytes file start := by
  obtain ⟨front, length, payload, plain⟩ := dataStart_eq_ok succeeded
  have place : file.windowEnd - start.onDisk = file.offset.toNat + front := by
    rw [file.windowEnd_eq, FileRecord.dataEnd]
    omega
  have ends : file.windowEnd - start.onDisk + start.onDisk = file.windowEnd := by
    rw [place, file.windowEnd_eq, FileRecord.dataEnd]
    omega
  have window : start.payload.take start.onDisk = file.payload archive.source.bytes start := by
    rw [FileRecord.payload, Bytes.window, place, payload]
  have lengthEq : (file.payload archive.source.bytes start).length = start.onDisk :=
    Bytes.length_window (by rwa [ends])
  have whole : archive.contents file = archive.unpack file start := by
    rw [contents, succeeded]
    rfl
  have handed : archive.contents file =
      archive.unpack file { start with payload := file.payload archive.source.bytes start } := by
    rw [whole, unpack, unpack, ← window]
    simp only
    rw [Compression.deliver_take]
    -- No version stores what it counts as compressed.
    intro uncompressed
    cases packed : archive.isCompressed file with
    | true =>
        rw [packed, if_pos rfl] at uncompressed
        exact absurd uncompressed (Version.compression_ne_stored _)
    | false => exact Nat.le_of_eq (plain packed)
  refine ⟨⟨by omega, by omega⟩, window, handed, fun unpacked => ⟨plain unpacked, ?_⟩⟩
  rw [handed, unpack, unpacked, plain unpacked]
  simp only [Bool.false_eq_true, if_false, Compression.deliver]
  rw [List.take_of_length_le (Nat.le_of_eq lengthEq)]
  exact Delivery.takeExactly_ready _ _ lengthEq

theorem Archive.readsWindow_of_files {files : List FileRecord}
    (listed : archive.files = .ok files) :
    ∀ file ∈ files, archive.ReadsWindow archive.source.bytes file := by
  intro file member
  have inside := windowEnd_le_of_files listed file member
  refine ⟨inside, ?_, fun start succeeded => readsPayload_of_dataStart inside succeeded⟩
  have offset := file.offset.toNat_lt
  have sizeField : (file.sizeField &&& ~~~0x40000000).toNat < _ := UInt32.toNat_lt _
  unfold FileRecord.windowEnd UInt64.size
  omega

end Tes4

namespace Bethesda

/-! ## Archives of any layout -/

/-- An entry is read from its window in the bytes of its archive. -/
def File.ReadsWindow [Codecs] (bytes : Bytes) : File → Prop
  | .tes3 archive file => archive.ReadsWindow bytes file
  | .ba2 archive file => archive.ReadsWindow bytes file
  | .tes4 archive file => archive.ReadsWindow bytes file

/-- Whatever bytes an archive is opened from, every entry that is listed is read from its window,
which ends inside these bytes. -/
theorem readsWindow_of_listed [Codecs] {kind : ContainerKind} {source : Source}
    {archive : Archive} {files : List File} (opened : Archive.openAs kind source = .ok archive)
    (listed : archive.files = .ok files) :
    ∀ file ∈ files, file.ReadsWindow source.bytes := by
  intro file member
  unfold Archive.openAs at opened
  split at opened
  · obtain ⟨inner, openedOk, rfl⟩ := Outcome.map_eq_ok_iff.mp opened
    obtain ⟨records, listedOk, rfl⟩ := Outcome.map_eq_ok_iff.mp listed
    obtain ⟨record, among, rfl⟩ := List.mem_map.mp member
    rw [← Tes4.Archive.source_of_open openedOk]
    exact Tes4.Archive.readsWindow_of_files listedOk record among
  · obtain ⟨inner, openedOk, rfl⟩ := Outcome.map_eq_ok_iff.mp opened
    cases listed
    obtain ⟨entry, among, rfl⟩ := List.mem_map.mp member
    exact Tes3.Archive.readsWindow_of_open openedOk entry among
  · obtain ⟨inner, openedOk, rfl⟩ := Outcome.map_eq_ok_iff.mp opened
    cases listed
    obtain ⟨entry, among, rfl⟩ := List.mem_map.mp member
    exact Ba2.Archive.readsWindow_of_open openedOk entry among
  · cases opened

/-- A header of an archive with one folder and one file, which begins with its path. -/
def onePathHeader : Tes4.Header where
  version := .sse
  folderRecordOffset := 36
  archiveFlags := ⟨0x103⟩
  folderCount := 1
  fileCount := 1
  folderNamesLength := 2
  fileNamesLength := 2
  fileFlags := 0

/-- An archive whose only file stores its path and two bytes. -/
def onePathBytes : Bytes :=
  let folder : Tes4.StoredFolder :=
    { hash := 9, offset := 0, name := [0x62], files := [⟨8, 6, 81, [0x79]⟩], unknown := 0 }
  onePathHeader.write ++
    (Tes4.layout .sse ⟨0x103⟩ [folder] ++ [3, 0x62, 0x5C, 0x79, 1, 2])

theorem readsWindow_of_listed_onePath :
    let archive : Tes4.Archive := ⟨⟨"a.bsa", onePathBytes⟩, onePathHeader⟩
    let file : Tes4.FileRecord := ⟨8, 6, 81, 0, 0, "b\\y"⟩
    Archive.openAs .bsa ⟨"a.bsa", onePathBytes⟩ = .ok (.tes4 archive) ∧
      (Archive.tes4 archive).files = .ok [.tes4 archive file] ∧ file.windowEnd = 87 ∧
      archive.dataStart file = .ok ⟨2, 2, [1, 2]⟩ ∧
      file.payload onePathBytes ⟨2, 2, [1, 2]⟩ = [1, 2] ∧ archive.contents file = .ok [1, 2] := by
  intro archive file
  have opened : Archive.openAs .bsa ⟨"a.bsa", onePathBytes⟩ = .ok (.tes4 archive) := by
    decide +kernel
  have listed : (Archive.tes4 archive).files = .ok [.tes4 archive file] := by decide +kernel
  have start : archive.dataStart file = .ok ⟨2, 2, [1, 2]⟩ := by decide +kernel
  have reads : (File.tes4 archive file).ReadsWindow onePathBytes :=
    readsWindow_of_listed opened listed _ (List.mem_singleton_self _)
  have payload : file.payload onePathBytes ⟨2, 2, [1, 2]⟩ = [1, 2] := by decide +kernel
  obtain ⟨-, contents⟩ := (reads.payload _ start).stored (by decide +kernel)
  rw [payload] at contents
  exact ⟨opened, listed, by decide, start, payload, contents⟩

end Bethesda
end GameArchive
