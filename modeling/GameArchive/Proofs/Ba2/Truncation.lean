import GameArchive.Proofs.Ba2.Opening
import GameArchive.Proofs.Extension

/-!
# Cut BA2 archives

The beginning of an archive that was built cannot be opened.  If it reached behind the records,
these would be those of the whole archive, and the last data would end inside the beginning.
Nothing follows them but the table of names, which is read to its end.
-/

namespace GameArchive
namespace Ba2

theorem Header.read?_extend {bytes rest : Bytes} {header : Header} (tail : Bytes)
    (found : read? bytes = some (header, rest)) :
    read? (bytes ++ tail) = some (header, rest ++ tail) := by
  simp only [read?, Option.bind_eq_bind, Option.bind_eq_some_iff, Prod.exists] at found
  obtain ⟨version, _, versionRead, kind, _, kindCut, fileCount, _, countRead, nameTableOffset, _,
    offsetRead, equal⟩ := found
  cases equal
  simp only [read?, Bytes.word32?_extend tail versionRead, Bytes.split?_extend tail kindCut,
    Bytes.word32?_extend tail countRead, Bytes.word64?_extend tail offsetRead,
    Option.bind_eq_bind, Option.bind_some]
  rfl

theorem Extras.read?_extend {version : UInt32} {bytes rest : Bytes} {extras : Extras}
    (tail : Bytes) (found : read? version bytes = some (extras, rest)) :
    read? version (bytes ++ tail) = some (extras, rest ++ tail) := by
  unfold read? at found ⊢
  split at found
  · next some =>
      simp only [Option.bind_eq_bind, Option.bind_eq_some_iff, Prod.exists] at found
      obtain ⟨extra1, _, first, extra2, _, second, others⟩ := found
      rw [if_pos some, Bytes.word32?_extend tail first]
      simp only [Option.bind_eq_bind, Option.bind_some, Bytes.word32?_extend tail second]
      split at others
      · next three =>
          obtain ⟨⟨compression, behind⟩, third, equal⟩ := Option.bind_eq_some_iff.mp others
          cases equal
          rw [if_pos three, Bytes.word32?_extend tail third]
          rfl
      · next two =>
          cases others
          rw [if_neg two]
          rfl
  · next none =>
      cases found
      rw [if_neg none]
      rfl

/-- Names that are read from the beginning of their table are read from all of it. -/
theorem tail_of_readNames {archive : String} {names : List Bytes} {front tail : Bytes}
    {found : List String} (short : ∀ name ∈ names, name.length < UInt16.size)
    (read : readNames archive names.length front = .ok found)
    (row : front ++ tail = names.flatMap nameEntry) : tail = [] := by
  induction names generalizing front found with
  | nil => exact (List.append_eq_nil_iff.mp row).2
  | cons name names ih =>
      have fits : name.length < LittleEndian.bound 2 := short name (List.mem_cons_self ..)
      rw [List.length_cons, readNames] at read
      rw [List.flatMap_cons, nameEntry, List.append_assoc] at row
      split at read
      · cases read
      · next length rest lengthRead =>
          obtain ⟨⟨block, others⟩, blockRead, read⟩ := Outcome.bind_eq_ok_iff.mp read
          obtain ⟨decoded, further, -⟩ := Outcome.bind_eq_ok_iff.mp read
          have extended := Bytes.word16?_extend tail lengthRead
          rw [row, Bytes.word16?, LittleEndian.read?_encode_append fits, Option.map_some]
            at extended
          obtain ⟨rfl, restEq⟩ := Prod.mk.inj (Option.some.inj extended)
          have toNat : (UInt16.ofNat name.length).toNat = name.length :=
            UInt16.toNat_ofNat_of_lt' (short name (List.mem_cons_self ..))
          obtain ⟨-, othersEq⟩ := readBlock_of_row blockRead restEq.symm toNat.symm
          exact ih (fun other member => short other (List.mem_cons_of_mem _ member)) further
            othersEq

/-- An entry that is read is where its record tells, inside the archive. -/
theorem readFiles_cons_eq_ok {source : Source} {record : Record} {records : List Record}
    {index : Nat} {names : Option (List String)} {files : List File}
    (succeeded : readFiles source (record :: records) index names = .ok files) :
    record.offset.toNat + record.onDisk ≤ source.bytes.length ∧
      ∃ file others, files = file :: others ∧ file.offset = record.offset.toNat ∧
        file.packedSize = record.packedSize.toNat ∧
        file.unpackedSize = record.unpackedSize.toNat ∧
        readFiles source records (index + 1) (names.map List.tail) = .ok others := by
  rw [readFiles] at succeeded
  split at succeeded
  · cases succeeded
  · next inside =>
      obtain ⟨others, further, equal⟩ := Outcome.bind_eq_ok_iff.mp succeeded
      cases equal
      exact ⟨Nat.le_of_not_lt inside, _, others, rfl, rfl, rfl, rfl, further⟩

theorem readFiles_within {source : Source} {records : List Record} {index : Nat}
    {names : Option (List String)} {files : List File}
    (succeeded : readFiles source records index names = .ok files) :
    ∀ record ∈ records, record.offset.toNat + record.onDisk ≤ source.bytes.length := by
  induction records generalizing index names files with
  | nil => simp
  | cons record records ih =>
      obtain ⟨inside, _, _, -, -, -, -, further⟩ := readFiles_cons_eq_ok succeeded
      exact List.forall_mem_cons.mpr ⟨inside, ih further⟩

/-- What is read of an archive that is opened. -/
theorem Archive.open_eq_ok {source : Source} {archive : Archive}
    (succeeded : Archive.open source = .ok archive) :
    ∃ header extras afterMagic afterHeader afterExtras records others names,
      readMagic source.name "BA2" magic source.bytes = .ok afterMagic ∧
      Header.read? afterMagic = some (header, afterHeader) ∧
      Extras.read? header.version afterHeader = some (extras, afterExtras) ∧
      readBlock source.name none (recordLength * header.fileCount.toNat) afterExtras =
        .ok (records, others) ∧
      readNameTable source header = .ok names ∧
      readFiles source (readRecords header.fileCount.toNat records) 0 names =
        .ok archive.files ∧
      archive.source = source := by
  obtain ⟨afterMagic, magicOk, succeeded⟩ := Outcome.bind_eq_ok_iff.mp succeeded
  split at succeeded
  · cases succeeded
  · next header afterHeader headerRead =>
      obtain ⟨⟨⟩, -, succeeded⟩ := Outcome.bind_eq_ok_iff.mp succeeded
      split at succeeded
      · cases succeeded
      · next extras afterExtras extrasRead =>
          obtain ⟨⟨records, others⟩, recordsOk, succeeded⟩ := Outcome.bind_eq_ok_iff.mp succeeded
          obtain ⟨names, namesOk, succeeded⟩ := Outcome.bind_eq_ok_iff.mp succeeded
          obtain ⟨files, filesOk, equal⟩ := Outcome.bind_eq_ok_iff.mp succeeded
          cases equal
          exact ⟨header, extras, afterMagic, afterHeader, afterExtras, records, others, names,
            magicOk, headerRead, extrasRead, recordsOk, namesOk, filesOk, rfl⟩

namespace Builder

variable [Codecs] {builder : Builder}

/-- A record counts the whole payload of its file. -/
theorem length_payload_le_onDisk {file : PendingFile} (fits : builder.Fits file) (offset : Nat) :
    (builder.payload file).length ≤ (builder.recordAt offset file).onDisk := by
  by_cases compressed : file.state.compressed
  · have packedSize := packedSize_recordAt fits offset
    rw [if_pos compressed] at packedSize
    unfold Record.onDisk
    split
    · next zero =>
        rw [zero] at packedSize
        change 0 = _ at packedSize
        omega
    · exact Nat.le_of_eq packedSize.symm
  · have zero : (builder.recordAt offset file).packedSize = 0 := if_neg compressed
    rw [Record.onDisk, if_pos zero, payload, if_neg compressed]
    exact Nat.le_of_eq (UInt32.toNat_ofNat_of_lt' fits.contents).symm

/-- Data whose records all end before a bound end before it together. -/
theorem dataEnd_le {files : List PendingFile} {offset bound : Nat}
    (fits : ∀ file ∈ files, builder.Fits file)
    (addressable : offset + (builder.data files).length < UInt64.size) (start : offset ≤ bound)
    (within : ∀ record ∈ builder.recordsAt offset files,
      record.offset.toNat + record.onDisk ≤ bound) :
    offset + (builder.data files).length ≤ bound := by
  induction files generalizing offset with
  | nil => exact start
  | cons file files ih =>
      obtain ⟨fileFits, othersFit⟩ := List.forall_mem_cons.mp fits
      obtain ⟨here, further⟩ := List.forall_mem_cons.mp within
      have length := length_payload_le_onDisk fileFits offset
      rw [data_cons, List.length_append, ← Nat.add_assoc] at addressable ⊢
      have offsetEq : (builder.recordAt offset file).offset.toNat = offset :=
        UInt64.toNat_ofNat_of_lt' (by omega)
      exact ih othersFit addressable (by omega) further

theorem length_image : builder.image.length = builder.dataEnd + builder.nameTable.length := by
  rw [image_eq, List.length_append, List.length_append, length_directory, dataEnd, Nat.add_assoc]

/-- A table of names that is read from the beginning of an archive is followed by nothing. -/
theorem tail_of_readNameTable {name : String} {front tail : Bytes}
    {names : Option (List String)} (writable : builder.Writable)
    (addressable : builder.image.length < UInt64.size) (whole : front ++ tail = builder.image)
    (table : builder.state.hasNameTable)
    (read : readNameTable ⟨name, front⟩ builder.shownHeader = .ok names) : tail = [] := by
  have present := nameTableOffset_ne_zero addressable
  have offset := nameTableOffset_toNat addressable
  rw [table, bne_iff_ne] at present
  rw [nameTableOffset, if_pos table] at offset
  unfold readNameTable at read
  rw [if_neg present, offset] at read
  split at read
  · cases read
  · next reached =>
      obtain ⟨found, namesRead, -⟩ := Outcome.bind_eq_ok_iff.mp read
      have count : builder.shownHeader.fileCount.toNat =
          (builder.sortedFiles.map fun file => encoding.encode file.state.path).length := by
        rw [List.length_map]
        exact UInt32.toNat_ofNat_of_lt' writable.few
      have row : front.drop builder.dataEnd ++ tail =
          (builder.sortedFiles.map fun file => encoding.encode file.state.path).flatMap
            nameEntry := by
        rw [← List.drop_append_of_le_length (Nat.le_of_not_lt reached), whole, image_eq,
          ← List.append_assoc, Bytes.drop_append, nameTable, if_pos table, List.flatMap_map]
        rw [List.length_append, length_directory, dataEnd]
      rw [count] at namesRead
      refine tail_of_readNames ?_ namesRead row
      intro encoded member
      obtain ⟨file, among, rfl⟩ := List.mem_map.mp member
      exact writable.short table file among

/-- What is read of the beginning of an archive is read of all of it. -/
theorem directory_of_open {name : String} {front tail : Bytes} {archive : Archive}
    (writable : builder.Writable) (whole : front ++ tail = builder.image)
    (opened : Archive.open ⟨name, front⟩ = .ok archive) :
    builder.dataStart ≤ front.length ∧
      ∃ names, readNameTable ⟨name, front⟩ builder.shownHeader = .ok names ∧
        readFiles ⟨name, front⟩ builder.recordTable 0 names = .ok archive.files := by
  obtain ⟨header, extras, afterMagic, afterHeader, afterExtras, records, others, names, magicOk,
    headerRead, extrasRead, recordsOk, namesOk, filesOk, -⟩ := Archive.open_eq_ok opened
  have lengths := congrArg List.length whole
  rw [image_eq, List.length_append, List.length_append, length_directory] at lengths
  have row : front = magic ++ afterMagic := readMagic_eq_ok magicOk
  rw [row, List.append_assoc, image] at whole
  have headerExtended := Header.read?_extend tail headerRead
  rw [List.append_cancel_left whole, read?_header] at headerExtended
  obtain ⟨rfl, afterHeaderEq⟩ := Prod.mk.inj (Option.some.inj headerExtended)
  have extrasExtended := Extras.read?_extend tail extrasRead
  have version : builder.shownHeader.version = builder.state.version := rfl
  rw [← afterHeaderEq, version, read?_extras] at extrasExtended
  obtain ⟨rfl, afterExtrasEq⟩ := Prod.mk.inj (Option.some.inj extrasExtended)
  have count : builder.shownHeader.fileCount.toNat = builder.sortedFiles.length :=
    UInt32.toNat_ofNat_of_lt' writable.few
  obtain ⟨rfl, othersEq⟩ := readBlock_of_row recordsOk afterExtrasEq.symm
    (by rw [length_recordTable, count])
  rw [count, readRecords_recordTable] at filesOk
  refine ⟨?_, names, namesOk, filesOk⟩
  have behind := congrArg List.length othersEq
  rw [List.length_append] at behind
  omega

/-- A beginning of an archive that can be opened is all of it. -/
theorem tail_of_open {name : String} {front tail : Bytes} {archive : Archive}
    (writable : builder.Writable) (addressable : builder.image.length < UInt64.size)
    (whole : front ++ tail = builder.image)
    (opened : Archive.open ⟨name, front⟩ = .ok archive) : tail = [] := by
  obtain ⟨reached, names, namesOk, filesOk⟩ := directory_of_open writable whole opened
  by_cases table : builder.state.hasNameTable
  · exact tail_of_readNameTable writable addressable whole table namesOk
  · have lengths := builder.length_image
    rw [nameTable, if_neg table, List.length_nil, Nat.add_zero] at lengths
    have dataEndLt : builder.dataEnd < UInt64.size := by omega
    have ending : builder.dataEnd ≤ front.length :=
      dataEnd_le writable.fits dataEndLt reached (readFiles_within filesOk)
    rw [← whole, List.length_append] at lengths
    exact List.length_eq_zero_iff.mp (by omega)

end Builder
end Ba2
end GameArchive
