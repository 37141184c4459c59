import GameArchive.Proofs.Reading
import GameArchive.Tes3.Archive
import GameArchive.Tes3.Builder

/-!
# What the Morrowind builder writes

The builder counts offsets from three places: those of data from the end of the directory, those
of names from the start of their block, and that of the hash table from the end of the first three
header words.  A finished archive is one row of parts, in which the tables follow from the listing
of the entries, and every size and offset in it fits into its word.
-/

namespace GameArchive
namespace Tes3

theorem word32_eq_ok {archive : String} {value : Nat} {word : UInt32}
    (succeeded : word32 archive value = .ok word) :
    value < UInt32.size ∧ word = UInt32.ofNat value := by
  obtain ⟨fits, rfl⟩ := Outcome.ite_eq_ok_iff.mp succeeded
  exact ⟨fits, rfl⟩

namespace FileState

def record (file : FileState) : Bytes :=
  Bytes.ofWord32 file.size ++ Bytes.ofWord32 file.offset

def hashes (file : FileState) : Bytes :=
  Bytes.ofWord32 file.hash1 ++ Bytes.ofWord32 file.hash2

theorem length_record (file : FileState) : file.record.length = 4 * 2 := by
  simp [record]

theorem length_hashes (file : FileState) : file.hashes.length = 4 * 2 := by
  simp [hashes]

end FileState

namespace Tables

def write (tables : Tables) : Bytes :=
  Bytes.ofWord32 tables.versionNumber ++ (Bytes.ofWord32 tables.hashOffset ++
    (Bytes.ofWord32 tables.fileCount ++ (tables.records ++ (tables.nameOffsets ++ tables.rest))))

theorem read?_write {tables : Tables}
    (records : tables.records.length = 8 * tables.fileCount.toNat)
    (nameOffsets : tables.nameOffsets.length = 4 * tables.fileCount.toNat) :
    read? tables.write = some tables := by
  have recordsCut := Bytes.split?_append tables.records (tables.nameOffsets ++ tables.rest)
  have offsetsCut := Bytes.split?_append tables.nameOffsets tables.rest
  rw [records] at recordsCut
  rw [nameOffsets] at offsetsCut
  simp [read?, write, Bytes.word32?_ofWord32_append, recordsCut, offsetsCut]

end Tables

/-! ## Words of a table -/

theorem tableWord_append (word : UInt32) (rest : Bytes) :
    tableWord (Bytes.ofWord32 word ++ rest) 0 = word := by
  rw [tableWord, Bytes.window_append _ _ (Bytes.length_ofWord32 word), Bytes.decode_ofWord32,
    UInt32.ofNat_toNat]

theorem tableWord_append_succ (word : UInt32) (rest : Bytes) (index : Nat) :
    tableWord (Bytes.ofWord32 word ++ rest) (index + 1) = tableWord rest index := by
  have shifted : Bytes.window (Bytes.ofWord32 word ++ rest) (4 * (index + 1)) 4 =
      rest.window (4 * index) 4 := by
    apply Bytes.window_append_right
    rw [Bytes.length_ofWord32]
    omega
  rw [tableWord, tableWord, shifted]

/-- In a table whose rows have `columns` words each, a word is found in its row. -/
theorem tableWord_flatMap {α : Type} (row : α → Bytes) {columns column index : Nat}
    {values : List α} {value : α} (lengthEq : ∀ value ∈ values, (row value).length = 4 * columns)
    (there : values[index]? = some value) (inRow : column < columns) :
    tableWord (values.flatMap row) (columns * index + column) =
      tableWord (row value) column := by
  rw [tableWord, tableWord]
  congr 2
  rw [← Bytes.window_flatMap lengthEq there (by omega)]
  rw [Nat.mul_add, Nat.mul_assoc]

theorem tableWord_record (file : FileState) :
    tableWord file.record 0 = file.size ∧ tableWord file.record 1 = file.offset := by
  have last := tableWord_append file.offset []
  rw [List.append_nil] at last
  rw [FileState.record, tableWord_append_succ]
  exact ⟨tableWord_append file.size _, last⟩

theorem tableWord_hashes (file : FileState) :
    tableWord file.hashes 0 = file.hash1 ∧ tableWord file.hashes 1 = file.hash2 := by
  have last := tableWord_append file.hash2 []
  rw [List.append_nil] at last
  rw [FileState.hashes, tableWord_append_succ]
  exact ⟨tableWord_append file.hash1 _, last⟩

namespace PendingFile

/-- The path under which a file is listed: a name ends at its first zero byte. -/
def shownPath (file : PendingFile) : String :=
  encoding.decode ((encoding.encode file.state.path).takeWhile (· != 0))

/-- The entry for a file at the given position whose data and name begin at the given offsets. -/
def shown (position dataOffset nameOffset : Nat) (file : PendingFile) : FileState where
  path := file.shownPath
  index := position
  size := UInt32.ofNat file.contents.length
  offset := UInt32.ofNat dataOffset
  nameOffset := UInt32.ofNat nameOffset
  hash1 := file.state.hash1
  hash2 := file.state.hash2

/-- A file whose size and offsets fit into their words. -/
structure Fits (dataOffset nameOffset : Nat) (file : PendingFile) : Prop where
  size : file.contents.length < UInt32.size
  offset : dataOffset < UInt32.size
  nameOffset : nameOffset < UInt32.size

theorem entry_eq_ok {archive : String} {dataOffset nameOffset : Nat} {file : PendingFile}
    {record offset : Bytes}
    (succeeded : file.entry archive dataOffset nameOffset = .ok (record, offset))
    (position : Nat) :
    record = (file.shown position dataOffset nameOffset).record ∧
      offset = Bytes.ofWord32 (file.shown position dataOffset nameOffset).nameOffset ∧
      file.Fits dataOffset nameOffset := by
  obtain ⟨nameWord, nameOk, others⟩ := Outcome.bind_eq_ok_iff.mp succeeded
  obtain ⟨sizeWord, sizeOk, others⟩ := Outcome.bind_eq_ok_iff.mp others
  obtain ⟨offsetWord, offsetOk, equal⟩ := Outcome.bind_eq_ok_iff.mp others
  obtain ⟨nameFits, rfl⟩ := word32_eq_ok nameOk
  obtain ⟨sizeFits, rfl⟩ := word32_eq_ok sizeOk
  obtain ⟨offsetFits, rfl⟩ := word32_eq_ok offsetOk
  cases equal
  exact ⟨rfl, rfl, sizeFits, offsetFits, nameFits⟩

end PendingFile

def namesOf (files : List PendingFile) : Bytes :=
  files.flatMap PendingFile.name

def dataOf (files : List PendingFile) : Bytes :=
  files.flatMap PendingFile.contents

/-- The entries for some files, of which the first has the given position and offsets. -/
def listed : (position dataOffset nameOffset : Nat) → List PendingFile → List FileState
  | _, _, _, [] => []
  | position, dataOffset, nameOffset, file :: files =>
      file.shown position dataOffset nameOffset ::
        listed (position + 1) (dataOffset + file.contents.length) (nameOffset + file.name.length)
          files

theorem length_listed (position dataOffset nameOffset : Nat) (files : List PendingFile) :
    (listed position dataOffset nameOffset files).length = files.length := by
  induction files generalizing position dataOffset nameOffset with
  | nil => rfl
  | cons file files ih => rw [listed, List.length_cons, ih, List.length_cons]

/-- The entry at an index is that of the file there, with offsets that the files before it add up
to. -/
theorem getElem?_listed (position dataOffset nameOffset : Nat) (files : List PendingFile)
    (index : Nat) :
    (listed position dataOffset nameOffset files)[index]? =
      files[index]?.map (PendingFile.shown (position + index)
        (dataOffset + (dataOf (files.take index)).length)
        (nameOffset + (namesOf (files.take index)).length)) := by
  induction files generalizing position dataOffset nameOffset index with
  | nil => rfl
  | cons file files ih =>
      cases index with
      | zero => rfl
      | succ index =>
          have data : dataOf ((file :: files).take (index + 1)) =
              file.contents ++ dataOf (files.take index) := List.flatMap_cons
          have names : namesOf ((file :: files).take (index + 1)) =
              file.name ++ namesOf (files.take index) := List.flatMap_cons
          have positions : position + 1 + index = position + (index + 1) := by omega
          rw [listed, List.getElem?_cons_succ, List.getElem?_cons_succ, ih, data, names,
            List.length_append, List.length_append, positions, Nat.add_assoc, Nat.add_assoc]

theorem entries_eq_ok {archive : String} {dataOffset nameOffset : Nat} {files : List PendingFile}
    {records offsets : Bytes}
    (succeeded : entries archive dataOffset nameOffset files = .ok (records, offsets))
    (position : Nat) :
    records = (listed position dataOffset nameOffset files).flatMap FileState.record ∧
      offsets = (listed position dataOffset nameOffset files).flatMap
        (fun file => Bytes.ofWord32 file.nameOffset) ∧
      ∀ (index : Nat) (file : PendingFile), files[index]? = some file →
        file.Fits (dataOffset + (dataOf (files.take index)).length)
          (nameOffset + (namesOf (files.take index)).length) := by
  induction files generalizing position dataOffset nameOffset records offsets with
  | nil =>
      cases succeeded
      exact ⟨rfl, rfl, by simp⟩
  | cons file files ih =>
      obtain ⟨⟨record, offset⟩, first, others⟩ := Outcome.bind_eq_ok_iff.mp succeeded
      obtain ⟨⟨restRecords, restOffsets⟩, further, equal⟩ := Outcome.bind_eq_ok_iff.mp others
      cases equal
      obtain ⟨rfl, rfl, fits⟩ := PendingFile.entry_eq_ok first position
      obtain ⟨rfl, rfl, restFits⟩ := ih further (position + 1)
      refine ⟨rfl, rfl, ?_⟩
      intro index other there
      cases index with
      | zero =>
          have same : file = other := by simpa using there
          subst same
          exact fits
      | succ index =>
          have otherFits := restFits index other there
          rw [Nat.add_assoc, Nat.add_assoc, ← List.length_append, ← List.length_append] at otherFits
          exact otherFits

/-! ## The whole archive -/

namespace Builder

variable {builder : Builder}

def listing (builder : Builder) : List FileState :=
  listed 0 0 0 builder.sortedFiles

def hashOffset (builder : Builder) : Nat :=
  12 * builder.sortedFiles.length + (namesOf builder.sortedFiles).length

/-- Where the data begin. -/
def dataStart (builder : Builder) : Nat :=
  headerLength + builder.hashOffset + 8 * builder.sortedFiles.length

/-- What follows the table of name offsets. -/
def body (builder : Builder) : Bytes :=
  namesOf builder.sortedFiles ++
    (builder.listing.flatMap FileState.hashes ++ dataOf builder.sortedFiles)

def tables (builder : Builder) : Tables where
  versionNumber := builder.versionNumber
  hashOffset := UInt32.ofNat builder.hashOffset
  fileCount := UInt32.ofNat builder.sortedFiles.length
  records := builder.listing.flatMap FileState.record
  nameOffsets := builder.listing.flatMap fun file => Bytes.ofWord32 file.nameOffset
  rest := builder.body

def image (builder : Builder) : Bytes :=
  builder.tables.write

/-- A builder all of whose sizes and offsets fit into their words. -/
structure Writable (builder : Builder) : Prop where
  fits : ∀ (index : Nat) (file : PendingFile), builder.sortedFiles[index]? = some file →
    file.Fits (dataOf (builder.sortedFiles.take index)).length
      (namesOf (builder.sortedFiles.take index)).length
  hashOffset : builder.hashOffset < UInt32.size
  few : builder.sortedFiles.length < UInt32.size

theorem flatMap_hashes_listed (position dataOffset nameOffset : Nat) (files : List PendingFile) :
    (listed position dataOffset nameOffset files).flatMap FileState.hashes =
      files.flatMap PendingFile.hashes := by
  induction files generalizing position dataOffset nameOffset with
  | nil => rfl
  | cons file files ih =>
      rw [listed, List.flatMap_cons, List.flatMap_cons, ih]
      rfl

/-- What is written, when it is. -/
theorem build_eq_ok {bytes : Bytes} (succeeded : builder.build = .ok bytes) :
    bytes = builder.image ∧ builder.Writable := by
  obtain ⟨⟨records, offsets⟩, entriesOk, others⟩ := Outcome.bind_eq_ok_iff.mp succeeded
  obtain ⟨hashWord, hashOk, others⟩ := Outcome.bind_eq_ok_iff.mp others
  obtain ⟨countWord, countOk, equal⟩ := Outcome.bind_eq_ok_iff.mp others
  obtain ⟨rfl, rfl, fits⟩ := entries_eq_ok entriesOk 0
  obtain ⟨hashFits, rfl⟩ := word32_eq_ok hashOk
  obtain ⟨few, rfl⟩ := word32_eq_ok countOk
  cases equal
  constructor
  · have hashes : builder.listing.flatMap FileState.hashes =
        builder.sortedFiles.flatMap PendingFile.hashes :=
      flatMap_hashes_listed 0 0 0 builder.sortedFiles
    simp only [image, tables, Tables.write, body, hashes, List.append_assoc]
    rfl
  · refine ⟨?_, hashFits, few⟩
    simpa using fits

theorem length_listing : builder.listing.length = builder.sortedFiles.length :=
  length_listed 0 0 0 builder.sortedFiles

theorem length_hashes :
    (builder.listing.flatMap FileState.hashes).length = 8 * builder.sortedFiles.length := by
  rw [Bytes.length_flatMap_of_forall fun file _ => file.length_hashes, length_listing]

theorem read?_image (few : builder.sortedFiles.length < UInt32.size) :
    Tables.read? builder.image = some builder.tables := by
  have count : builder.tables.fileCount.toNat = builder.sortedFiles.length :=
    UInt32.toNat_ofNat_of_lt' few
  apply Tables.read?_write
  · rw [count, tables, Bytes.length_flatMap_of_forall fun file _ => file.length_record,
      length_listing]
  · rw [count, tables, Bytes.length_flatMap_of_forall fun file _ =>
      Bytes.length_ofWord32 file.nameOffset, length_listing]

/-- What stands before the data. -/
def directory (builder : Builder) : Bytes :=
  Bytes.ofWord32 builder.versionNumber ++ (Bytes.ofWord32 builder.tables.hashOffset ++
    (Bytes.ofWord32 builder.tables.fileCount ++ (builder.tables.records ++
      (builder.tables.nameOffsets ++
        (namesOf builder.sortedFiles ++ builder.listing.flatMap FileState.hashes)))))

theorem image_eq : builder.image = builder.directory ++ dataOf builder.sortedFiles := by
  simp only [image, tables, Tables.write, body, directory, List.append_assoc]

theorem length_directory : builder.directory.length = builder.dataStart := by
  simp only [directory, tables, List.length_append, Bytes.length_ofWord32, length_hashes,
    Bytes.length_flatMap_of_forall fun (file : FileState) _ => file.length_record,
    Bytes.length_flatMap_of_forall fun (file : FileState) _ =>
      Bytes.length_ofWord32 file.nameOffset,
    length_listing, dataStart, headerLength, hashOffset]
  omega

theorem length_image :
    builder.image.length = builder.dataStart + (dataOf builder.sortedFiles).length := by
  rw [image_eq, List.length_append, length_directory]

end Builder
end Tes3
end GameArchive
