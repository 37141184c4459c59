import GameArchive.Proofs.Ba2.Records

/-!
# What the BA2 builder writes

All offsets are summed up before anything is written: the data of a file begin where the data of
the files before it end.  A finished archive is one fixed row of parts, and every size in it fits
into its field.
-/

namespace GameArchive
namespace Ba2

theorem word32_eq_ok {archive : String} {value : Nat} {word : UInt32}
    (succeeded : word32 archive value = .ok word) :
    value < UInt32.size ∧ word = UInt32.ofNat value := by
  obtain ⟨fits, rfl⟩ := Outcome.ite_eq_ok_iff.mp succeeded
  exact ⟨fits, rfl⟩

namespace Builder

variable {builder : Builder}

theorem names_eq_ok {files : List PendingFile} {names : List Bytes}
    (succeeded : files.mapM builder.name = .ok names) :
    names = files.map (fun file => nameEntry (encoding.encode file.state.path)) ∧
      ∀ file ∈ files, (encoding.encode file.state.path).length < UInt16.size := by
  have written : ∀ file found, builder.name file = .ok found →
      found = nameEntry (encoding.encode file.state.path) ∧
        (encoding.encode file.state.path).length < UInt16.size := by
    intro file found ok
    obtain ⟨short, rfl⟩ := Outcome.ite_eq_ok_iff.mp ok
    exact ⟨rfl, short⟩
  refine ⟨Outcome.mapM_eq_ok (fun file _ found ok => (written file found ok).1) succeeded, ?_⟩
  intro file member
  obtain ⟨found, ok⟩ := Outcome.exists_ok_of_mapM_eq_ok succeeded member
  exact (written file found ok).2

variable [Codecs]

/-- The record of a file whose data begin at `offset`. -/
def recordAt (builder : Builder) (offset : Nat) (file : PendingFile) : Record where
  nameHash := file.state.nameHash
  extension := extensionBytes file.state.extension
  dirHash := file.state.dirHash
  flags := file.state.flags
  offset := UInt64.ofNat offset
  packedSize :=
    if file.state.compressed then UInt32.ofNat (builder.payload file).length else 0
  unpackedSize := UInt32.ofNat file.contents.length
  align := file.state.align

/-- A file whose sizes fit into its record. -/
structure Fits (builder : Builder) (file : PendingFile) : Prop where
  contents : file.contents.length < UInt32.size
  payload : (builder.payload file).length < UInt32.size

theorem record_eq_ok {offset : Nat} {file : PendingFile} {record : Record}
    (succeeded : builder.record offset file = .ok record) :
    record = builder.recordAt offset file ∧ builder.Fits file := by
  obtain ⟨unpackedSize, unpackedOk, others⟩ := Outcome.bind_eq_ok_iff.mp succeeded
  obtain ⟨contents, rfl⟩ := word32_eq_ok unpackedOk
  by_cases compressed : file.state.compressed
  · simp only [if_pos compressed] at others
    obtain ⟨packedSize, packedOk, equal⟩ := Outcome.bind_eq_ok_iff.mp others
    obtain ⟨payload, rfl⟩ := word32_eq_ok packedOk
    cases equal
    refine ⟨?_, contents, payload⟩
    rw [recordAt, if_pos compressed]
  · simp only [if_neg compressed] at others
    cases others
    refine ⟨?_, contents, ?_⟩
    · rw [recordAt, if_neg compressed]
    · rwa [payload, if_neg compressed]

/-- The records of some files.  `offset` is where the data of the first of them begin. -/
def recordsAt (builder : Builder) : (offset : Nat) → List PendingFile → List Record
  | _, [] => []
  | offset, file :: files =>
      builder.recordAt offset file ::
        builder.recordsAt (offset + (builder.payload file).length) files

def data (builder : Builder) (files : List PendingFile) : Bytes :=
  files.flatMap builder.payload

theorem data_cons (file : PendingFile) (files : List PendingFile) :
    builder.data (file :: files) = builder.payload file ++ builder.data files :=
  List.flatMap_cons

theorem length_recordsAt (offset : Nat) (files : List PendingFile) :
    (builder.recordsAt offset files).length = files.length := by
  induction files generalizing offset with
  | nil => rfl
  | cons file files ih => rw [recordsAt, List.length_cons, ih, List.length_cons]

theorem extension_recordsAt (builder : Builder) (offset : Nat) (files : List PendingFile) :
    ∀ record ∈ builder.recordsAt offset files, record.extension.length = 4 := by
  induction files generalizing offset with
  | nil => simp [recordsAt]
  | cons file files ih =>
      intro record member
      rcases List.mem_cons.mp member with rfl | later
      · exact length_extensionBytes file.state.extension
      · exact ih _ record later

theorem records_eq_ok {offset dataEnd : Nat} {files : List PendingFile} {bytes : Bytes}
    (succeeded : builder.records offset files = .ok (bytes, dataEnd)) :
    bytes = (builder.recordsAt offset files).flatMap Record.write ∧
      dataEnd = offset + (builder.data files).length ∧ ∀ file ∈ files, builder.Fits file := by
  induction files generalizing offset bytes with
  | nil =>
      cases succeeded
      exact ⟨rfl, rfl, by simp⟩
  | cons file files ih =>
      obtain ⟨record, recordOk, others⟩ := Outcome.bind_eq_ok_iff.mp succeeded
      obtain ⟨⟨rest, restEnd⟩, restOk, equal⟩ := Outcome.bind_eq_ok_iff.mp others
      cases equal
      obtain ⟨rfl, fits⟩ := record_eq_ok recordOk
      obtain ⟨rfl, rfl, restFits⟩ := ih restOk
      refine ⟨rfl, ?_, List.forall_mem_cons.mpr ⟨fits, restFits⟩⟩
      rw [data_cons, List.length_append, Nat.add_assoc]

/-- Where the data of the first file begin. -/
def dataStart (builder : Builder) : Nat :=
  headerLength builder.state.version + recordLength * builder.sortedFiles.length

/-- Where the data of the last file end. -/
def dataEnd (builder : Builder) : Nat :=
  builder.dataStart + (builder.data builder.sortedFiles).length

/-- The offset of the table of names, as the header has it. -/
def nameTableOffset (builder : Builder) : Nat :=
  if builder.state.hasNameTable then builder.dataEnd else 0

/-- The table of names, if there is one. -/
def nameTable (builder : Builder) : Bytes :=
  if builder.state.hasNameTable then
    builder.sortedFiles.flatMap fun file => nameEntry (encoding.encode file.state.path)
  else []

def recordTable (builder : Builder) : List Record :=
  builder.recordsAt builder.dataStart builder.sortedFiles

def image (builder : Builder) : Bytes :=
  magic ++ (Bytes.ofWord32 builder.state.version ++ (generalKind ++
    (Bytes.ofWord32 (UInt32.ofNat builder.sortedFiles.length) ++
      (Bytes.ofWord64 (UInt64.ofNat builder.nameTableOffset) ++
        (builder.extras ++ (builder.recordTable.flatMap Record.write ++
          (builder.data builder.sortedFiles ++ builder.nameTable)))))))

/-- A builder whose files fit into their records and whose names fit into their table. -/
structure Writable (builder : Builder) : Prop where
  few : builder.sortedFiles.length < UInt32.size
  fits : ∀ file ∈ builder.sortedFiles, builder.Fits file
  short : builder.state.hasNameTable →
    ∀ file ∈ builder.sortedFiles, (encoding.encode file.state.path).length < UInt16.size

/-- What is written, when it is. -/
theorem build_eq_ok {bytes : Bytes} (succeeded : builder.build = .ok bytes) :
    bytes = builder.image ∧ builder.Writable := by
  obtain ⟨⟨records, dataEnd⟩, recordsOk, others⟩ := Outcome.bind_eq_ok_iff.mp succeeded
  obtain ⟨rfl, rfl, fits⟩ := records_eq_ok recordsOk
  obtain ⟨fileCount, countOk, others⟩ := Outcome.bind_eq_ok_iff.mp others
  obtain ⟨few, rfl⟩ := word32_eq_ok countOk
  unfold image nameTableOffset nameTable
  by_cases table : builder.state.hasNameTable
  · simp only [if_pos table] at others ⊢
    obtain ⟨names, namesOk, equal⟩ := Outcome.bind_eq_ok_iff.mp others
    obtain ⟨rfl, short⟩ := names_eq_ok namesOk
    cases equal
    refine ⟨?_, few, fits, fun _ => short⟩
    simp only [List.append_assoc]
    rfl
  · simp only [if_neg table] at others ⊢
    cases others
    refine ⟨?_, few, fits, fun shown => absurd shown table⟩
    simp only [List.append_assoc, List.flatten_nil]
    rfl

end Builder
end Ba2
end GameArchive
