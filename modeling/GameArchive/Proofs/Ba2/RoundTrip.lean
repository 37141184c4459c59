import GameArchive.Proofs.Ba2.Opening
import GameArchive.Proofs.Codec.Lz4Inversion
import GameArchive.Stream

/-!
# Building a BA2 archive and reading it

An archive that was built from some files is opened with the state it was built from, as far as
its version stores it, and its entries are those files in the order of their indices.
-/

namespace GameArchive
namespace Ba2

namespace Builder

def addAll (builder : Builder) (added : List (FileState × Bytes)) : Builder :=
  added.foldl (fun builder entry => builder.add entry.1 entry.2) builder

theorem addAll_eq (builder : Builder) (added : List (FileState × Bytes)) :
    builder.addAll added =
      { builder with files := builder.files ++ added.map fun entry => ⟨entry.1, entry.2⟩ } := by
  induction added generalizing builder with
  | nil => simp [addAll]
  | cons entry added ih =>
      change (builder.add entry.1 entry.2).addAll added = _
      rw [ih]
      simp [add]

theorem create_eq_ok {archive : String} {state : State} {builder : Builder}
    (succeeded : create archive state = .ok builder) :
    state.magic = magicText ∧ Utf8.encode state.kind = generalKind ∧
      isKnownVersion state.version ∧ builder = ⟨archive, state, []⟩ := by
  unfold create at succeeded
  split at succeeded
  · cases succeeded
  · next magic =>
      split at succeeded
      · cases succeeded
      · next kind =>
          split at succeeded
          · cases succeeded
          · next known =>
              cases succeeded
              exact ⟨Decidable.of_not_not magic, Decidable.of_not_not kind,
                by simpa using known, rfl⟩

variable [Codecs] {builder : Builder}

/-- The entry at an index is that of the file there, and its data begin where those of the files
before it end. -/
theorem getElem?_shownFiles (position offset : Nat) (files : List PendingFile) (index : Nat) :
    (builder.shownFiles position offset files)[index]? =
      files[index]?.map (builder.shownFile (position + index)
        (offset + (builder.data (files.take index)).length)) := by
  induction files generalizing position offset index with
  | nil => rfl
  | cons file files ih =>
      cases index with
      | zero => rfl
      | succ index =>
          rw [shownFiles, List.getElem?_cons_succ, List.getElem?_cons_succ, ih, List.take_succ_cons,
            data_cons, List.length_append]
          have positions : position + 1 + index = position + (index + 1) := by omega
          rw [positions, Nat.add_assoc]

theorem length_shownFiles (position offset : Nat) (files : List PendingFile) :
    (builder.shownFiles position offset files).length = files.length := by
  induction files generalizing position offset with
  | nil => rfl
  | cons file files ih => rw [shownFiles, List.length_cons, ih, List.length_cons]

/-- The payload of a file stands where its data begin. -/
theorem drop_image {index : Nat} {file : PendingFile}
    (there : builder.sortedFiles[index]? = some file) :
    ∃ rest, builder.image.drop
        (builder.dataStart + (builder.data (builder.sortedFiles.take index)).length) =
      builder.payload file ++ rest := by
  have row : builder.image =
      builder.directory ++ builder.data (builder.sortedFiles.take index) ++
        (builder.payload file ++
          (builder.data (builder.sortedFiles.drop (index + 1)) ++ builder.nameTable)) := by
    rw [image_eq, data, Bytes.flatMap_split builder.payload there]
    simp only [data, List.append_assoc]
  refine ⟨builder.data (builder.sortedFiles.drop (index + 1)) ++ builder.nameTable, ?_⟩
  rw [row, Bytes.drop_append]
  rw [List.length_append, length_directory]

theorem isCompressed_shownFile {position offset : Nat} {file : PendingFile}
    (nonempty : ∀ contents, builder.state.packing.pack contents ≠ []) :
    (builder.shownFile position offset file).isCompressed = file.state.compressed := by
  unfold File.isCompressed shownFile
  cases compressed : file.state.compressed with
  | true =>
      rw [if_pos rfl, payload, if_pos compressed, bne_iff_ne]
      exact fun zero => nonempty file.contents (List.length_eq_zero_iff.mp zero)
  | false => rfl

/-- The contents of an entry are what its decoder delivers. -/
theorem contents_of_deliver {archive : Archive} {file : File} {delivery : Delivery}
    {contents : Bytes}
    (delivered : (if file.isCompressed then archive.state.packing else .stored).deliver
      (archive.source.bytes.drop file.offset) file.packedSize file.unpackedSize = .ok delivery)
    (taken : delivery.takeExactly archive.source.name (some file.state.path) file.unpackedSize =
      .ok contents) :
    archive.contents file = .ok contents := by
  rw [Archive.contents]
  simp only [delivered, taken]

theorem contents_shownFile {archive : Archive} {file : PendingFile} {offset : Nat} {rest : Bytes}
    (position : Nat) (packing : archive.state.packing = builder.state.packing)
    (there : archive.source.bytes.drop offset = builder.payload file ++ rest)
    (inverts : builder.state.packing.Inverts)
    (nonempty : ∀ contents, builder.state.packing.pack contents ≠ []) :
    archive.contents (builder.shownFile position offset file) = .ok file.contents := by
  have isCompressed : (builder.shownFile position offset file).isCompressed =
      file.state.compressed := isCompressed_shownFile nonempty
  cases compressed : file.state.compressed with
  | true =>
      obtain ⟨delivery, delivered, taken⟩ := inverts.read file.contents rest archive.source.name
        (some (builder.shownPath file))
      have size : (builder.shownFile position offset file).packedSize =
          (builder.state.packing.pack file.contents).length := by
        rw [shownFile, if_pos compressed, payload, if_pos compressed]
      rw [payload, if_pos compressed] at there
      refine contents_of_deliver ?_ taken
      rw [isCompressed, if_pos compressed, packing, size, shownFile, there]
      exact delivered
  | false =>
      obtain ⟨delivery, delivered, taken⟩ := Compression.stored_inverts.read file.contents rest
        archive.source.name (some (builder.shownPath file))
      rw [payload, if_neg (Bool.eq_false_iff.mp compressed)] at there
      refine contents_of_deliver ?_ taken
      rw [isCompressed, if_neg (Bool.eq_false_iff.mp compressed), shownFile, there]
      -- Stored data have no packed size, and none is asked for.
      exact delivered

end Builder

/-- What is to be seen of a file at the given position of an opened archive. -/
structure Shows [Codecs] (archive : Archive) (position : Nat) (state : FileState)
    (contents : Bytes) (file : File) : Prop where
  index : file.state.index = position
  nameHash : file.state.nameHash = state.nameHash
  dirHash : file.state.dirHash = state.dirHash
  flags : file.state.flags = state.flags
  align : file.state.align = state.align
  compressed : file.state.compressed = state.compressed
  packed : file.isCompressed = state.compressed
  extension : (Utf8.encode state.extension).length ≤ 4 →
    state.extension.toList.getLast? ≠ some '\x00' → file.state.extension = state.extension
  size : file.unpackedSize = contents.length
  readable : archive.contents file = .ok contents
  named : archive.state.hasNameTable →
    encoding.decode (encoding.encode state.path) = state.path → file.state.path = state.path
  nameless : archive.state.hasNameTable = false →
    file.state.path =
      Hexadecimal.renderPadded 8 state.nameHash.toNat ++ "." ++ file.state.extension

/-- An archive that is built from some files is opened with its state and shows the files in the
order of their indices.  An archive is written to a stream and read from one, and no stream is
longer than its greatest position. -/
theorem build_then_open [Codecs] {archive : String} {state : State} {builder : Builder}
    {added : List (FileState × Bytes)} {bytes : Bytes} (name : String)
    (created : Builder.create archive state = .ok builder)
    (built : (builder.addAll added).build = .ok bytes)
    (addressable : bytes.length ≤ Stream.memoryLimit.toNat) (inverts : state.packing.Inverts)
    (nonempty : ∀ contents, state.packing.pack contents ≠ []) :
    ∃ opened, Archive.open ⟨name, bytes⟩ = .ok opened ∧ opened.state = state.stored ∧
      opened.files.length = added.length ∧
      ∀ position entry,
        (added.mergeSort fun first second => first.1.index ≤ second.1.index)[position]? =
            some entry →
          ∃ file, opened.files[position]? = some file ∧
            Shows opened position entry.1 entry.2 file := by
  obtain ⟨magicEq, kind, known, rfl⟩ := Builder.create_eq_ok created
  let finished : Builder := ⟨archive, state, added.map fun entry => ⟨entry.1, entry.2⟩⟩
  have finishedEq : (⟨archive, state, []⟩ : Builder).addAll added = finished :=
    Builder.addAll_eq _ added
  rw [finishedEq] at built
  obtain ⟨rfl, writable⟩ := Builder.build_eq_ok built
  have fitsWord : finished.image.length < UInt64.size := Nat.lt_succ_of_le addressable
  have sorted : finished.sortedFiles =
      (added.mergeSort fun first second => first.1.index ≤ second.1.index).map
        fun entry => ⟨entry.1, entry.2⟩ :=
    (List.map_mergeSort (f := fun entry : FileState × Bytes => PendingFile.mk entry.1 entry.2)
      fun _ _ _ _ => rfl).symm
  refine ⟨_, finished.open_image name kind magicEq known writable nonempty fitsWord, rfl,
    ?_, ?_⟩
  · simp only
    rw [Builder.length_shownFiles, sorted, List.length_map, List.length_mergeSort]
  · intro position entry there
    have fileThere : finished.sortedFiles[position]? = some ⟨entry.1, entry.2⟩ := by
      rw [sorted, List.getElem?_map, there]
      rfl
    obtain ⟨rest, data⟩ := finished.drop_image fileThere
    have shown := finished.getElem?_shownFiles 0 finished.dataStart finished.sortedFiles position
    rw [fileThere, Nat.zero_add, Option.map_some] at shown
    refine ⟨_, shown, ?_⟩
    exact {
      index := rfl
      nameHash := rfl
      dirHash := rfl
      flags := rfl
      align := rfl
      compressed := rfl
      packed := Builder.isCompressed_shownFile nonempty
      extension := extensionText_extensionBytes
      size := rfl
      readable :=
        Builder.contents_shownFile position state.packing_stored data inverts nonempty
      named := fun table survives => (if_pos table).trans survives
      nameless := fun noTable => if_neg (Bool.eq_false_iff.mp noTable) }

/-- A state of the version that knows of LZ4 blocks. -/
def sampleState : State where
  version := 3
  magic := magicText
  kind := "GNRL"
  hasNameTable := true
  extra1 := 1
  extra2 := 0
  compression := 3

/-- Two files whose indices leave gaps. -/
def sampleFiles : List (FileState × Bytes) :=
  [(⟨"a.txt", 3, 0x33, "txt", 0x44, 1, 0xBAADF00D, false⟩, [4, 5]),
    (⟨"Textures\\b.dds", 7, 0x11, "dds", 0x22, 0, 0xBAADF00D, true⟩, [1, 2, 3, 1, 2, 3])]

theorem build_then_open_gaps :
    ∃ builder bytes opened,
      Builder.create "sample.ba2" sampleState = .ok builder ∧
        (builder.addAll sampleFiles).build = .ok bytes ∧
        Archive.open ⟨"sample.ba2", bytes⟩ = .ok opened ∧ opened.state = sampleState ∧
        opened.files.length = 2 ∧
        ∀ position entry, sampleFiles[position]? = some entry →
          ∃ file, opened.files[position]? = some file ∧
            Shows opened position entry.1 entry.2 file := by
  let builder : Builder := ⟨"sample.ba2", sampleState, []⟩
  have created : Builder.create "sample.ba2" sampleState = .ok builder := rfl
  have sorted : (builder.addAll sampleFiles).sortedFiles = (builder.addAll sampleFiles).files :=
    List.mergeSort_of_pairwise (by decide)
  have sortedEntries : (sampleFiles.mergeSort fun first second =>
      first.1.index ≤ second.1.index) = sampleFiles :=
    List.mergeSort_of_pairwise (by decide)
  obtain ⟨bytes, built, short⟩ :
      ∃ bytes, (builder.addAll sampleFiles).build = .ok bytes ∧
        bytes.length ≤ Stream.memoryLimit.toNat := by
    have finished : (builder.addAll sampleFiles).build.toOption.any
        fun bytes => bytes.length ≤ Stream.memoryLimit.toNat := by
      rw [Builder.build, sorted]
      decide +kernel
    cases outcome : (builder.addAll sampleFiles).build with
    | error failure =>
        rw [outcome] at finished
        cases finished
    | ok bytes =>
        rw [outcome] at finished
        exact ⟨bytes, rfl, of_decide_eq_true finished⟩
  obtain ⟨opened, openedOk, stateEq, count, shows⟩ :=
    build_then_open "sample.ba2" created built short Compression.lz4Block_inverts
      Lz4.packBlock_ne_nil
  rw [sortedEntries] at shows
  exact ⟨builder, bytes, opened, created, built, openedOk, stateEq, count, shows⟩

end Ba2
end GameArchive
