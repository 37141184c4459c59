import GameArchive.Proofs.Extension
import GameArchive.Proofs.Tes3.RoundTrip

/-!
# Cut Morrowind archives

The beginning of an archive that was built cannot be opened.  If it reached behind the directory,
the entries would be those of the whole archive, and their data fill the archive to its end.
-/

namespace GameArchive
namespace Tes3

theorem Tables.read?_extend {bytes : Bytes} {tables : Tables} (tail : Bytes)
    (found : read? bytes = some tables) :
    read? (bytes ++ tail) = some { tables with rest := tables.rest ++ tail } := by
  simp only [read?, Option.bind_eq_bind, Option.bind_eq_some_iff, Prod.exists] at found
  obtain ⟨versionNumber, _, version, hashOffset, _, hash, fileCount, _, count, records, _,
    recordsCut, nameOffsets, rest, offsetsCut, equal⟩ := found
  cases equal
  simp only [read?, Bytes.word32?_extend tail version, Bytes.word32?_extend tail hash,
    Bytes.word32?_extend tail count, Bytes.split?_extend tail recordsCut,
    Bytes.split?_extend tail offsetsCut, Option.bind_eq_bind, Option.bind_some]
  rfl

section Entries

variable {source : Source} {dataOffset index : Nat} {tables : Tables} {names hashes : Bytes}

/-- An entry that is read is where the table tells, inside the archive. -/
theorem readFile_eq_ok {file : FileState}
    (succeeded : readFile source dataOffset tables names hashes index = .ok file) :
    file.size = tableWord tables.records (2 * index) ∧
      file.offset = tableWord tables.records (2 * index + 1) ∧
      dataOffset + file.offset.toNat + file.size.toNat ≤ source.bytes.length := by
  obtain ⟨path, -, others⟩ := Outcome.bind_eq_ok_iff.mp succeeded
  split at others
  · cases others
  · next inside =>
      cases others
      exact ⟨rfl, rfl, Nat.le_of_not_lt inside⟩

theorem readFiles_within {count : Nat} {files : List FileState}
    (succeeded : readFiles source dataOffset tables names hashes count index = .ok files)
    {position : Nat} (before : position < count) :
    dataOffset + (tableWord tables.records (2 * (index + position) + 1)).toNat +
      (tableWord tables.records (2 * (index + position))).toNat ≤ source.bytes.length := by
  induction count generalizing index position files with
  | zero => omega
  | succ count ih =>
      obtain ⟨file, here, others⟩ := Outcome.bind_eq_ok_iff.mp succeeded
      obtain ⟨rest, further, -⟩ := Outcome.bind_eq_ok_iff.mp others
      cases position with
      | zero =>
          obtain ⟨size, offset, inside⟩ := readFile_eq_ok here
          rwa [size, offset] at inside
      | succ position =>
          have later := ih further (Nat.lt_of_succ_lt_succ before)
          rwa [Nat.add_assoc index, Nat.add_comm 1 position] at later

end Entries

/-- What is read of an archive that is opened. -/
theorem Archive.open_eq_ok {source : Source} {archive : Archive}
    (succeeded : Archive.open source = .ok archive) :
    ∃ tables names hashes rest others,
      Tables.read? source.bytes = some tables ∧
      readBlock source.name none (headerLength + tables.hashOffset.toNat -
        (headerLength + 12 * tables.fileCount.toNat)) tables.rest = .ok (names, rest) ∧
      readBlock source.name none (8 * tables.fileCount.toNat) rest = .ok (hashes, others) ∧
      readFiles source (headerLength + tables.hashOffset.toNat + 8 * tables.fileCount.toNat)
        tables names hashes tables.fileCount.toNat 0 = .ok archive.files ∧
      archive.source = source ∧
      archive.state = ⟨tables.versionNumber, tables.fileCount, UInt64.ofNat (headerLength +
        tables.hashOffset.toNat + 8 * tables.fileCount.toNat), tables.hashOffset⟩ := by
  unfold Archive.open at succeeded
  split at succeeded
  · cases succeeded
  · next tables read =>
      split at succeeded
      · cases succeeded
      · simp only at succeeded
        split at succeeded
        · cases succeeded
        · obtain ⟨⟨names, rest⟩, namesOk, succeeded⟩ := Outcome.bind_eq_ok_iff.mp succeeded
          obtain ⟨⟨hashes, others⟩, hashesOk, succeeded⟩ := Outcome.bind_eq_ok_iff.mp succeeded
          obtain ⟨files, filesOk, equal⟩ := Outcome.bind_eq_ok_iff.mp succeeded
          cases equal
          exact ⟨tables, names, hashes, rest, others, read, namesOk, hashesOk, filesOk, rfl, rfl⟩

/-- Data that fill an archive reach no further than the last of them. -/
theorem Fill.stop_le {dataOffset start stop bound : Nat} {files : List FileState}
    (filled : Fill dataOffset start stop files) (startLe : start ≤ bound)
    (within : ∀ file ∈ files, dataOffset + file.offset.toNat + file.size.toNat ≤ bound) :
    stop ≤ bound := by
  induction files generalizing start with
  | nil =>
      change start = stop at filled
      omega
  | cons file files ih =>
      obtain ⟨here, further⟩ := filled
      have inside := within file (List.mem_cons_self ..)
      exact ih further (by omega) fun other member => within other (List.mem_cons_of_mem _ member)

namespace Builder

variable {builder : Builder}

/-- The beginning of an archive that is opened has the whole directory, and all data that the
directory tells of. -/
theorem directory_of_open {name : String} {front tail : Bytes} {archive : Archive}
    (writable : builder.Writable) (whole : front ++ tail = builder.image)
    (opened : Archive.open ⟨name, front⟩ = .ok archive) :
    builder.dataStart ≤ front.length ∧
      ∀ file ∈ builder.listing,
        builder.dataStart + file.offset.toNat + file.size.toNat ≤ front.length := by
  obtain ⟨tables, names, hashes, rest, others, read, namesOk, hashesOk, filesOk, -⟩ :=
    Archive.open_eq_ok opened
  have sameTables : { tables with rest := tables.rest ++ tail } = builder.tables := by
    have extended := Tables.read?_extend tail read
    rw [whole, read?_image writable.few] at extended
    exact (Option.some.inj extended).symm
  have records : tables.records = builder.tables.records := by rw [← sameTables]
  have body : tables.rest ++ tail = builder.body := by
    change Tables.rest { tables with rest := tables.rest ++ tail } = builder.tables.rest
    rw [sameTables]
  have count : tables.fileCount.toNat = builder.sortedFiles.length := by
    rw [← fileCount_tables writable.few, ← sameTables]
  have hashOffset : tables.hashOffset.toNat = builder.hashOffset := by
    rw [← hashOffset_tables writable.hashOffset, ← sameTables]
  constructor
  · have namesLength : (namesOf builder.sortedFiles).length =
        headerLength + tables.hashOffset.toNat -
          (headerLength + 12 * tables.fileCount.toNat) := by
      rw [hashOffset, count, Builder.hashOffset]
      omega
    obtain ⟨rfl, restEq⟩ := readBlock_of_row namesOk body namesLength
    obtain ⟨rfl, dataEq⟩ := readBlock_of_row hashesOk restEq (by rw [length_hashes, count])
    have dataLength := congrArg List.length dataEq
    have wholeLength := congrArg List.length whole
    rw [List.length_append] at dataLength
    rw [length_image, List.length_append] at wholeLength
    omega
  · intro file member
    have dataOffset : headerLength + tables.hashOffset.toNat + 8 * tables.fileCount.toNat =
        builder.dataStart := by
      rw [hashOffset, count, dataStart]
    obtain ⟨index, there⟩ := List.getElem?_of_mem member
    obtain ⟨below, -⟩ := List.getElem?_eq_some_iff.mp there
    obtain ⟨size, offset, -⟩ := tableWords_listing there
    rw [length_listing, ← count] at below
    have inside := readFiles_within filesOk below
    rwa [dataOffset, Nat.zero_add, records, size, offset] at inside

/-- A beginning of an archive that can be opened is all of it. -/
theorem tail_of_open {name : String} {front tail : Bytes} {archive : Archive}
    (writable : builder.Writable) (whole : front ++ tail = builder.image)
    (opened : Archive.open ⟨name, front⟩ = .ok archive) : tail = [] := by
  obtain ⟨directoryLe, within⟩ := directory_of_open writable whole opened
  -- The data fill the archive from the directory to its end, so no byte of it is missing.
  have reached := (fill_listing writable).stop_le directoryLe within
  rw [← whole, List.length_append] at reached
  exact List.length_eq_zero_iff.mp (by omega)

end Builder
end Tes3
end GameArchive
