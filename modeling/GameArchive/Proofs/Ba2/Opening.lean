import GameArchive.Proofs.Ba2.Placement
import GameArchive.Proofs.Codec.Inversion

/-!
# Opening a BA2 archive that was built

The image of a builder is opened with the state of the builder, as far as its version stores it,
and with one entry for each file.  The entry has what the record holds, and its data are the
payload of the file.
-/

namespace GameArchive
namespace Ba2

/-- What an archive stores of a state: the extra words and the compression number only in the
versions that have them. -/
def State.stored (state : State) : State :=
  { state with
    extra1 := if state.version = 2 ∨ state.version = 3 then state.extra1 else 0
    extra2 := if state.version = 2 ∨ state.version = 3 then state.extra2 else 0
    compression := if state.version = 3 then state.compression else 0 }

theorem State.packing_stored (state : State) : state.stored.packing = state.packing := by
  unfold packing stored
  by_cases three : state.version = 3
  · simp [three]
  · simp [three]

namespace Builder

variable {builder : Builder}

/-- The words that are read after the header. -/
def shownExtras (builder : Builder) : Extras :=
  ⟨builder.state.stored.extra1, builder.state.stored.extra2, builder.state.stored.compression⟩

theorem read?_extras (rest : Bytes) :
    Extras.read? builder.state.version (builder.extras ++ rest) =
      some (builder.shownExtras, rest) := by
  unfold extras shownExtras State.stored Extras.read?
  by_cases two : builder.state.version = 2
  · simp [two, Bytes.word32?_ofWord32_append]
  · by_cases three : builder.state.version = 3
    · simp [three, Bytes.word32?_ofWord32_append]
    · simp [two, three]

theorem length_header :
    24 + builder.extras.length = headerLength builder.state.version := by
  unfold extras headerLength
  by_cases two : builder.state.version = 2
  · simp [two]
  · by_cases three : builder.state.version = 3
    · simp [three]
    · simp [two, three]

/-- The path under which a file is listed. -/
def shownPath (builder : Builder) (file : PendingFile) : String :=
  if builder.state.hasNameTable then encoding.decode (encoding.encode file.state.path)
  else
    Hexadecimal.renderPadded 8 file.state.nameHash.toNat ++ "." ++
      extensionText (extensionBytes file.state.extension)

def shownNames (builder : Builder) (files : List PendingFile) : Option (List String) :=
  if builder.state.hasNameTable then
    some (files.map fun file => encoding.decode (encoding.encode file.state.path))
  else none

variable [Codecs]

/-- The entry for a file at the given position, whose data begin at `offset`. -/
def shownFile (builder : Builder) (position offset : Nat) (file : PendingFile) : File where
  state := {
    path := builder.shownPath file
    index := position
    nameHash := file.state.nameHash
    extension := extensionText (extensionBytes file.state.extension)
    dirHash := file.state.dirHash
    flags := file.state.flags
    align := file.state.align
    compressed := file.state.compressed }
  offset := offset
  packedSize := if file.state.compressed then (builder.payload file).length else 0
  unpackedSize := file.contents.length

/-- The entries for some files, from the given position and offset on. -/
def shownFiles (builder : Builder) :
    (position offset : Nat) → List PendingFile → List File
  | _, _, [] => []
  | position, offset, file :: files =>
      builder.shownFile position offset file ::
        builder.shownFiles (position + 1) (offset + (builder.payload file).length) files

section Records

variable {file : PendingFile} (fits : builder.Fits file)
  (nonempty : ∀ contents, builder.state.packing.pack contents ≠ [])

include fits in
theorem packedSize_recordAt (offset : Nat) :
    (builder.recordAt offset file).packedSize.toNat =
      if file.state.compressed then (builder.payload file).length else 0 := by
  unfold recordAt
  split
  · exact UInt32.toNat_ofNat_of_lt' fits.payload
  · rfl

include fits nonempty in
/-- The packed size tells whether an entry is compressed, since nothing is packed into nothing. -/
theorem packedSize_ne_zero (offset : Nat) :
    ((builder.recordAt offset file).packedSize != 0) = file.state.compressed := by
  have size := packedSize_recordAt fits offset
  cases compressed : file.state.compressed with
  | true =>
      rw [if_pos compressed, payload, if_pos compressed] at size
      have positive : 0 < (builder.state.packing.pack file.contents).length :=
        List.length_pos_iff.mpr (nonempty file.contents)
      rw [bne_iff_ne]
      intro zero
      rw [zero] at size
      change 0 = _ at size
      omega
  | false =>
      rw [recordAt, compressed]
      rfl

include fits nonempty in
theorem onDisk_recordAt (offset : Nat) :
    (builder.recordAt offset file).onDisk = (builder.payload file).length := by
  have compressedEq := packedSize_ne_zero fits nonempty offset
  unfold Record.onDisk
  cases compressed : file.state.compressed with
  | true =>
      rw [compressed, bne_iff_ne] at compressedEq
      rw [if_neg compressedEq, packedSize_recordAt fits, if_pos compressed]
  | false =>
      rw [compressed, bne_eq_false_iff_eq] at compressedEq
      rw [if_pos compressedEq, payload, compressed]
      exact UInt32.toNat_ofNat_of_lt' fits.contents

end Records

theorem readFiles_recordsAt {source : Source} {files : List PendingFile} (position offset : Nat)
    (fits : ∀ file ∈ files, builder.Fits file)
    (nonempty : ∀ contents, builder.state.packing.pack contents ≠ [])
    (within : offset + (builder.data files).length ≤ source.bytes.length)
    (addressable : source.bytes.length < UInt64.size) :
    readFiles source (builder.recordsAt offset files) position (builder.shownNames files) =
      .ok (builder.shownFiles position offset files) := by
  induction files generalizing position offset with
  | nil => rfl
  | cons file files ih =>
      obtain ⟨fileFits, othersFit⟩ := List.forall_mem_cons.mp fits
      rw [data_cons, List.length_append] at within
      have path : ((builder.shownNames (file :: files)).bind List.head?).getD
          (hashName (builder.recordAt offset file)) = builder.shownPath file := by
        unfold shownNames shownPath
        split
        · rfl
        · rfl
      have names : (builder.shownNames (file :: files)).map List.tail =
          builder.shownNames files := by
        unfold shownNames
        split
        · rfl
        · rfl
      have start : (builder.recordAt offset file).offset.toNat = offset :=
        UInt64.toNat_ofNat_of_lt' (by omega)
      have contents : (builder.recordAt offset file).unpackedSize.toNat = file.contents.length :=
        UInt32.toNat_ofNat_of_lt' fileFits.contents
      have inside : ¬ source.bytes.length < (builder.recordAt offset file).offset.toNat +
          (builder.recordAt offset file).onDisk := by
        rw [start, onDisk_recordAt fileFits nonempty]
        omega
      rw [recordsAt, readFiles]
      simp only [path, names]
      rw [if_neg inside, ih (position + 1) _ othersFit (by omega), Outcome.ok_bind, start,
        contents, packedSize_recordAt fileFits, packedSize_ne_zero fileFits nonempty]
      rfl

/-- What stands before the data. -/
def directory (builder : Builder) : Bytes :=
  magic ++ (Bytes.ofWord32 builder.state.version ++ (generalKind ++
    (Bytes.ofWord32 (UInt32.ofNat builder.sortedFiles.length) ++
      (Bytes.ofWord64 (UInt64.ofNat builder.nameTableOffset) ++
        (builder.extras ++ builder.recordTable.flatMap Record.write)))))

theorem length_recordTable :
    (builder.recordTable.flatMap Record.write).length =
      recordLength * builder.sortedFiles.length := by
  have lengths : ∀ record ∈ builder.recordTable, record.write.length = recordLength :=
    fun record member => Record.length_write (builder.extension_recordsAt _ _ record member)
  rw [Bytes.length_flatMap_of_forall lengths, recordTable, length_recordsAt]

theorem readRecords_recordTable :
    readRecords builder.sortedFiles.length (builder.recordTable.flatMap Record.write) =
      builder.recordTable := by
  have four := builder.extension_recordsAt builder.dataStart builder.sortedFiles
  have read := Record.readRecords_flatMap_write four
  rwa [length_recordsAt] at read

theorem length_directory : builder.directory.length = builder.dataStart := by
  have header := builder.length_header
  simp only [directory, List.length_append, Bytes.length_ofWord32, Bytes.length_ofWord64,
    length_recordTable, dataStart, magic, generalKind, List.length_cons, List.length_nil]
  omega

theorem image_eq : builder.image =
    builder.directory ++ (builder.data builder.sortedFiles ++ builder.nameTable) := by
  simp only [image, directory, List.append_assoc]

def shownHeader (builder : Builder) : Header where
  version := builder.state.version
  kind := generalKind
  fileCount := UInt32.ofNat builder.sortedFiles.length
  nameTableOffset := UInt64.ofNat builder.nameTableOffset

theorem read?_header (rest : Bytes) :
    Header.read? (Bytes.ofWord32 builder.state.version ++ (generalKind ++
      (Bytes.ofWord32 (UInt32.ofNat builder.sortedFiles.length) ++
        (Bytes.ofWord64 (UInt64.ofNat builder.nameTableOffset) ++ rest)))) =
      some (builder.shownHeader, rest) := by
  have kind : ∀ others, Bytes.split? 4 (generalKind ++ others) = some (generalKind, others) :=
    Bytes.split?_append generalKind
  simp only [Header.read?, Bytes.word32?_ofWord32_append, kind, Bytes.word64?_ofWord64_append,
    Option.bind_eq_bind, Option.bind_some]
  rfl

theorem check_shownHeader (archive : String) (known : isKnownVersion builder.state.version) :
    builder.shownHeader.check archive = .ok () := by
  unfold Header.check shownHeader
  simp only [known]
  rfl

theorem nameTableOffset_toNat (addressable : builder.image.length < UInt64.size) :
    builder.shownHeader.nameTableOffset.toNat = builder.nameTableOffset := by
  apply UInt64.toNat_ofNat_of_lt'
  rw [image_eq] at addressable
  simp only [List.length_append, length_directory] at addressable
  unfold nameTableOffset dataEnd
  split
  · omega
  · omega

/-- The offset of the table of names tells whether there is one. -/
theorem nameTableOffset_ne_zero (addressable : builder.image.length < UInt64.size) :
    (builder.shownHeader.nameTableOffset != 0) = builder.state.hasNameTable := by
  have toNat := nameTableOffset_toNat addressable
  have header := builder.length_header
  cases table : builder.state.hasNameTable with
  | true =>
      rw [bne_iff_ne]
      intro zero
      rw [zero, nameTableOffset, if_pos table, dataEnd, dataStart] at toNat
      change 0 = _ at toNat
      omega
  | false =>
      rw [shownHeader, nameTableOffset, table]
      rfl

theorem readNameTable_image (name : String) (writable : builder.Writable)
    (addressable : builder.image.length < UInt64.size) :
    readNameTable ⟨name, builder.image⟩ builder.shownHeader =
      .ok (builder.shownNames builder.sortedFiles) := by
  have present := nameTableOffset_ne_zero addressable
  have toNat := nameTableOffset_toNat addressable
  unfold readNameTable shownNames
  cases table : builder.state.hasNameTable with
  | false =>
      rw [table, bne_eq_false_iff_eq] at present
      rw [if_pos present]
      rfl
  | true =>
      rw [table, bne_iff_ne] at present
      rw [nameTableOffset, if_pos table] at toNat
      have dropped : builder.image.drop builder.dataEnd =
          builder.sortedFiles.flatMap fun file => nameEntry (encoding.encode file.state.path) := by
        rw [image_eq, ← List.append_assoc, Bytes.drop_append, nameTable, if_pos table]
        rw [List.length_append, length_directory, dataEnd]
      have reached : builder.dataEnd ≤ builder.image.length := by
        rw [image_eq, List.length_append, List.length_append, length_directory, dataEnd]
        omega
      have count : builder.shownHeader.fileCount.toNat = builder.sortedFiles.length :=
        UInt32.toNat_ofNat_of_lt' writable.few
      have short : ∀ encoded ∈ builder.sortedFiles.map fun file =>
          encoding.encode file.state.path, encoded.length < UInt16.size := by
        intro encoded member
        obtain ⟨file, among, rfl⟩ := List.mem_map.mp member
        exact writable.short table file among
      have read := readNames_append name short []
      rw [List.append_nil, List.flatMap_map, List.length_map, List.map_map] at read
      rw [if_neg present, toNat, if_neg (Nat.not_lt.mpr reached), count, dropped, read]
      rfl

/-- The image of a builder is opened with what it stores. -/
theorem open_image (name : String) (kind : Utf8.encode builder.state.kind = generalKind)
    (magicEq : builder.state.magic = magicText) (known : isKnownVersion builder.state.version)
    (writable : builder.Writable)
    (nonempty : ∀ contents, builder.state.packing.pack contents ≠ [])
    (addressable : builder.image.length < UInt64.size) :
    Archive.open ⟨name, builder.image⟩ = .ok {
      source := ⟨name, builder.image⟩
      state := builder.state.stored
      files := builder.shownFiles 0 builder.dataStart builder.sortedFiles } := by
  have within : builder.dataStart + (builder.data builder.sortedFiles).length ≤
      builder.image.length := by
    rw [image_eq, List.length_append, List.length_append, length_directory]
    omega
  have files : readFiles ⟨name, builder.image⟩ builder.recordTable 0
      (builder.shownNames builder.sortedFiles) =
      .ok (builder.shownFiles 0 builder.dataStart builder.sortedFiles) :=
    readFiles_recordsAt 0 builder.dataStart writable.fits nonempty within addressable
  have names := readNameTable_image name writable addressable
  have count : builder.shownHeader.fileCount.toNat = builder.sortedFiles.length :=
    UInt32.toNat_ofNat_of_lt' writable.few
  have stored : (State.mk builder.state.version magicText (Utf8.decodeReplacing generalKind)
      builder.state.hasNameTable builder.state.stored.extra1 builder.state.stored.extra2
      builder.state.stored.compression) = builder.state.stored := by
    rw [← kind, Utf8.decodeReplacing_encode, ← magicEq]
    rfl
  have magicRead : readMagic name "BA2" magic builder.image = .ok _ :=
    readMagic_append name "BA2" _ rfl
  have version : builder.shownHeader.version = builder.state.version := rfl
  have block := readBlock_append name none (builder.recordTable.flatMap Record.write)
    (builder.data builder.sortedFiles ++ builder.nameTable) builder.length_recordTable
  rw [Archive.open]
  simp only
  rw [magicRead, Outcome.ok_bind, read?_header]
  simp only
  rw [check_shownHeader name known, Outcome.ok_bind, version, read?_extras]
  simp only
  rw [count, block, Outcome.ok_bind]
  simp only
  rw [names, Outcome.ok_bind, readRecords_recordTable, files, Outcome.ok_bind,
    nameTableOffset_ne_zero addressable, ← stored]
  rfl

end Builder
end Ba2
end GameArchive
