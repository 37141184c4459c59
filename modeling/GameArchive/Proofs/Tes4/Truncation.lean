import GameArchive.Proofs.Extension
import GameArchive.Proofs.Tes4.RoundTrip

/-!
# Cut archives of the TES4 family

The beginning of an archive that was built has no listing.  If it reached behind the directory,
the file records would be those of the whole archive, and the data of the last file would end
inside the beginning.
-/

namespace GameArchive

theorem PrefixedName.read_extend {encoding : Encoding} {bytes rest : Bytes} {name : String}
    (tail : Bytes) (read : PrefixedName.read encoding bytes = .ok (name, rest)) :
    PrefixedName.read encoding (bytes ++ tail) = .ok (name, rest ++ tail) := by
  cases bytes with
  | nil => cases read
  | cons length bytes =>
      rw [PrefixedName.read] at read
      rw [List.cons_append, PrefixedName.read]
      split at read
      · cases read
      · next field others cut =>
          cases read
          rw [Bytes.split?_extend tail cut]

namespace Tes4

/-! ## Readers of the directory -/

theorem StoredHeader.length_of_read? {bytes : Bytes} {stored : StoredHeader}
    (found : read? bytes = some stored) : headerLength ≤ magic.length + bytes.length := by
  simp only [read?, Option.bind_eq_bind, Option.bind_eq_some_iff, Prod.exists] at found
  obtain ⟨_, _, version, _, _, recordOffset, _, _, archiveFlags, _, _, folderCount, _, _,
    fileCount, _, _, folderNames, _, _, fileNames, _, _, fileFlags, -⟩ := found
  have lengths := Bytes.length_of_word32? version
  rw [Bytes.length_of_word32? recordOffset, Bytes.length_of_word32? archiveFlags,
    Bytes.length_of_word32? folderCount, Bytes.length_of_word32? fileCount,
    Bytes.length_of_word32? folderNames, Bytes.length_of_word32? fileNames,
    Bytes.length_of_word32? fileFlags] at lengths
  change 36 ≤ 4 + bytes.length
  omega

theorem readFolderName_extend {archive : String} {header : Header} {bytes rest : Bytes}
    {name : Option String} (tail : Bytes)
    (read : readFolderName archive header bytes = .ok (name, rest)) :
    readFolderName archive header (bytes ++ tail) = .ok (name, rest ++ tail) := by
  unfold readFolderName at read ⊢
  split at read
  · next named =>
      rw [if_pos named]
      split at read
      · next text others found =>
          cases read
          rw [PrefixedName.read_extend tail found]
      · cases read
      · cases read
  · next nameless =>
      cases read
      rw [if_neg nameless]

theorem readFolderBlocks_extend {archive : String} {header : Header}
    {records : List FolderRecord} {bytes rest : Bytes} {blocks : List FolderBlock} (tail : Bytes)
    (read : readFolderBlocks archive header records bytes = .ok (blocks, rest)) :
    readFolderBlocks archive header records (bytes ++ tail) = .ok (blocks, rest ++ tail) := by
  induction records generalizing bytes blocks with
  | nil =>
      cases read
      rfl
  | cons record records ih =>
      obtain ⟨⟨name, afterName⟩, nameOk, others⟩ := Outcome.bind_eq_ok_iff.mp read
      obtain ⟨⟨files, afterFiles⟩, filesOk, others⟩ := Outcome.bind_eq_ok_iff.mp others
      obtain ⟨⟨later, afterAll⟩, further, equal⟩ := Outcome.bind_eq_ok_iff.mp others
      cases equal
      rw [readFolderBlocks, readFolderName_extend tail nameOk, Outcome.ok_bind]
      simp only [readBlock_extend tail filesOk, Outcome.ok_bind, ih further]
      rfl

/-- Names are read from a block that is there as a whole. -/
theorem length_of_readFileNames {archive : String} {header : Header} {bytes : Bytes}
    {names : List String} (read : readFileNames archive header bytes = .ok names) :
    (if header.archiveFlags.hasFileNames then header.fileNamesLength.toNat else 0) ≤
      bytes.length := by
  unfold readFileNames at read
  split at read
  · next named =>
      obtain ⟨⟨block, rest⟩, blockOk, -⟩ := Outcome.bind_eq_ok_iff.mp read
      obtain ⟨rfl, lengthEq⟩ := readBlock_eq_ok.mp blockOk
      rw [if_pos named, ← lengthEq, List.length_append]
      exact Nat.le_add_right ..
  · next nameless =>
      rw [if_neg nameless]
      exact Nat.zero_le _

/-- The files that are read lie inside the archive. -/
theorem readFiles_within {source : Source} {folder : Option String} {index overallIndex : Nat}
    {names : List String} {entries : List FileEntry} {files : List FileRecord}
    (succeeded : readFiles source folder entries.length index overallIndex names
      (entries.flatMap FileEntry.record) = .ok files) :
    ∀ entry ∈ entries, entry.dataEnd ≤ source.bytes.length := by
  induction entries generalizing index overallIndex names files with
  | nil => simp
  | cons entry entries ih =>
      obtain ⟨hash, sizeField, offset⟩ :=
        entry.window_record (entries.flatMap FileEntry.record)
      rw [List.length_cons, readFiles, List.flatMap_cons] at succeeded
      simp only [hash, sizeField, offset, Bytes.decode_ofWord64, Bytes.decode_ofWord32,
        UInt64.ofNat_toNat, UInt32.ofNat_toNat, Bytes.drop_append _ _ entry.length_record]
        at succeeded
      split at succeeded
      · cases succeeded
      · next inside =>
          obtain ⟨rest, further, -⟩ := Outcome.bind_eq_ok_iff.mp succeeded
          exact List.forall_mem_cons.mpr ⟨Nat.le_of_not_lt inside, ih further⟩

theorem readFolders_within {source : Source} {header : Header} {overallIndex : Nat}
    {names : List String} {entries : List FolderEntry} {folders : List Folder}
    (storable : ∀ entry ∈ entries, entry.Storable)
    (succeeded : readFolders source (entries.map (FolderEntry.toBlock header)) overallIndex
      names = .ok folders) :
    ∀ file ∈ entries.flatMap FolderEntry.files, file.dataEnd ≤ source.bytes.length := by
  induction entries generalizing overallIndex names folders with
  | nil => simp
  | cons entry entries ih =>
      obtain ⟨first, others⟩ := List.forall_mem_cons.mp storable
      obtain ⟨files, filesOk, succeeded⟩ := Outcome.bind_eq_ok_iff.mp succeeded
      obtain ⟨rest, further, -⟩ := Outcome.bind_eq_ok_iff.mp succeeded
      have count : (entry.toBlock header).record.fileCount.toNat = entry.files.length :=
        UInt32.toNat_ofNat_of_lt' first.fewFiles
      rw [count] at filesOk
      intro file member
      rw [List.flatMap_cons] at member
      rcases List.mem_append.mp member with here | later
      · exact readFiles_within filesOk file here
      · exact ih others further file later

/-- Data whose parts all end before a bound end before it together. -/
theorem placeFiles_le {offset bound : Nat} {files : List FramedFile} (start : offset ≤ bound)
    (within : ∀ placed ∈ placeFiles offset files,
      placed.offset + placed.framed.storedLength ≤ bound) :
    offset + (filesData files).length ≤ bound := by
  induction files generalizing offset with
  | nil => exact start
  | cons framed files ih =>
      obtain ⟨here, further⟩ := List.forall_mem_cons.mp within
      rw [filesData_cons, List.length_append, framed.length_data, ← Nat.add_assoc]
      exact ih here further

/-! ## The beginning of an archive -/

/-- The beginning of an archive that is opened has its header. -/
theorem Archive.open_front {name : String} {header : Header} {front tail body : Bytes}
    {archive : Archive} (whole : front ++ tail = header.write ++ body)
    (opened : Archive.open ⟨name, front⟩ = .ok archive) :
    ∃ rest, front = header.write ++ rest ∧ rest ++ tail = body ∧
      archive = ⟨⟨name, front⟩, header⟩ := by
  obtain ⟨afterMagic, magicOk, others⟩ := Outcome.bind_eq_ok_iff.mp opened
  have row : front = magic ++ afterMagic := readMagic_eq_ok magicOk
  have long : headerLength ≤ front.length := by
    split at others
    · cases others
    · next stored found =>
        rw [row, List.length_append]
        exact StoredHeader.length_of_read? found
  have headerFirst : header.write <+: front ++ tail := ⟨body, whole.symm⟩
  have frontFirst : front <+: front ++ tail := List.prefix_append front tail
  obtain ⟨rest, rfl⟩ : header.write <+: front := by
    apply List.prefix_of_prefix_length_le headerFirst frontFirst
    rwa [header.length_write]
  rw [List.append_assoc] at whole
  refine ⟨rest, rfl, List.append_cancel_left whole, ?_⟩
  rw [Archive.open_write] at opened
  exact (Except.ok.inj opened).symm

/-- A listing of the beginning of an archive has read the whole directory, and the data of every
file end inside the beginning. -/
theorem Archive.folders_front {archive : Archive} {entries : List FolderEntry}
    {tail others : Bytes} {folders : List Folder}
    (row : archive.source.bytes.drop archive.header.folderRecordOffset.toNat ++ tail =
      directory archive.header.version archive.header.archiveFlags entries ++ others)
    (folderCount : archive.header.folderCount.toNat = entries.length)
    (storable : ∀ entry ∈ entries, entry.Storable)
    (namesLength : archive.header.fileNamesLength.toNat =
      (nameBlock (entries.flatMap FolderEntry.files)).length)
    (listed : archive.folders = .ok folders) :
    tail.length ≤ others.length ∧
      ∀ file ∈ entries.flatMap FolderEntry.files, file.dataEnd ≤ archive.source.bytes.length := by
  obtain ⟨⟨records, afterRecords⟩, recordsOk, listed⟩ := Outcome.bind_eq_ok_iff.mp listed
  obtain ⟨⟨blocks, afterBlocks⟩, blocksOk, listed⟩ := Outcome.bind_eq_ok_iff.mp listed
  obtain ⟨names, namesOk, listed⟩ := Outcome.bind_eq_ok_iff.mp listed
  rw [directory, List.append_assoc, List.append_assoc] at row
  obtain ⟨rfl, blocksRow⟩ := readBlock_of_row recordsOk row
    (by rw [FolderEntry.length_records, folderCount])
  have recordsEq := folderRecords_append archive.header.version entries []
  rw [List.append_nil] at recordsEq
  rw [folderCount, recordsEq] at blocksOk
  -- What follows the blocks in the beginning follows them in the whole archive.
  have extended := readFolderBlocks_extend tail blocksOk
  rw [blocksRow, readFolderBlocks_append _ _ storable] at extended
  obtain ⟨rfl, namesRow⟩ := Prod.mk.inj (Except.ok.inj extended)
  constructor
  · have namesThere := length_of_readFileNames namesOk
    have lengths := congrArg List.length namesRow
    rw [List.length_append, List.length_append] at lengths
    split at namesThere
    · next named =>
        rw [if_pos named] at lengths
        omega
    · next nameless =>
        rw [if_neg nameless, List.length_nil] at lengths
        omega
  · exact readFolders_within storable listed

namespace Builder

variable {builder : Builder}

/-- A beginning of written groups that can be listed is all of them. -/
theorem tail_of_written {groups : List FramedGroup} {header : Header} {name : String}
    {front tail : Bytes} {archive : Archive} {folders : List Folder}
    (named : ∀ group ∈ groups, ∃ name, group.Named name)
    (few : (groups.flatMap FramedGroup.files).length < UInt32.size)
    (headerOf : builder.HeaderOf groups header)
    (recordable : ∀ placed ∈ builder.placedFiles groups, Recordable placed)
    (whole : front ++ tail = header.write ++ (directory builder.version builder.flags
      (builder.entries groups) ++ filesData (groups.flatMap FramedGroup.files)))
    (opened : Archive.open ⟨name, front⟩ = .ok archive) (listed : archive.folders = .ok folders) :
    tail = [] := by
  obtain ⟨rest, frontEq, row, rfl⟩ := Archive.open_front whole opened
  have dropped : front.drop header.folderRecordOffset.toNat = rest := by
    rw [headerOf.folderRecordOffset, frontEq, Bytes.drop_append _ _ header.length_write]
  have directoryRow : front.drop header.folderRecordOffset.toNat ++ tail =
      directory header.version header.archiveFlags (builder.entries groups) ++
        filesData (groups.flatMap FramedGroup.files) := by
    rw [headerOf.version, headerOf.archiveFlags, dropped, row]
  obtain ⟨reached, within⟩ := Archive.folders_front directoryRow
    (by rw [headerOf.folderCount, entries, length_entries])
    (fun entry member => storable_of_mem_entries named few member)
    (by rw [headerOf.fileNamesLength, entries, fileNames_eq]) listed
  have lengths := congrArg List.length whole
  rw [List.length_append, List.length_append, List.length_append, header.length_write,
    ← Nat.add_assoc, ← firstDataOffset_eq named] at lengths
  have lastEnd : builder.firstDataOffset groups +
      (filesData (groups.flatMap FramedGroup.files)).length ≤ front.length := by
    apply placeFiles_le
    · omega
    · intro placed member
      have fits := recordable placed member
      have inside := within (builder.fileEntry placed) (by
        rw [entries, files_folderEntries]
        exact List.mem_map_of_mem member)
      rwa [dataEnd_fileEntry fits.small, fileEntry, UInt32.toNat_ofNat_of_lt' fits.reachable]
        at inside
  exact List.length_eq_zero_iff.mp (by omega)

/-- A beginning of an archive that can be listed is all of it. -/
theorem tail_of_files {arrange : List Group → List Group} {name : String}
    {front tail : Bytes} {archive : Archive} {files : List FileRecord}
    (arranged : ∀ groups, (arrange groups).Perm groups)
    (built : builder.buildArranged arrange = .ok (front ++ tail))
    (opened : Archive.open ⟨name, front⟩ = .ok archive)
    (listed : archive.files = .ok files) : tail = [] := by
  obtain ⟨groups, grouped, written, -⟩ := buildArranged_eq_ok arranged built
  have named := named_framedGroup grouped
  obtain ⟨header, headerOf, whole, recordable, -⟩ := write_eq_ok named written
  obtain ⟨folders, foldersOk, -⟩ := Outcome.bind_eq_ok_iff.mp listed
  have few : ((groups.map builder.framedGroup).flatMap FramedGroup.files).length <
      UInt32.size := by
    rw [files_framedGroups, List.length_map, grouped.members.length_eq, ← headerOf.fileCount]
    exact header.fileCount.toNat_lt
  exact tail_of_written named few headerOf recordable whole opened foldersOk

end Builder
end Tes4
end GameArchive
