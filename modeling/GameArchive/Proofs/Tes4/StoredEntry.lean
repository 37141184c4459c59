import GameArchive.Proofs.Codec.Inversion
import GameArchive.Proofs.Reading
import GameArchive.Tes4.Archive
import GameArchive.Tes4.Builder

/-!
# Stored entries

The data of an entry are its path, its size and its payload, of which the first two may be
missing.  This module proves that a reader who finds these bytes at the offset of a file record
gets the size and the contents of the entry from them.
-/

namespace GameArchive
namespace Tes4

namespace FramedFile

/-- The data of a file: its path, its size if it is compressed, and its payload. -/
def data (framed : FramedFile) : Bytes :=
  framed.blob ++
    ((if framed.file.compressed then Bytes.ofWord32 (UInt32.ofNat framed.file.unpackedLength)
      else []) ++ framed.file.payload)

@[simp] theorem length_data (framed : FramedFile) : framed.data.length = framed.storedLength := by
  unfold data storedLength
  split
  · simp only [List.length_append, Bytes.length_ofWord32]
    omega
  · simp only [List.length_append, List.length_nil]
    omega

/-- The size field of the record of a file. -/
def sizeField (framed : FramedFile) : UInt32 :=
  UInt32.ofNat
    (if framed.file.flipCompression then framed.storedLength + flipBit else framed.storedLength)

/-- A file that was framed for an archive with the given flags and fits into it. -/
structure Fits (flags : Flags) (version : Version) (framed : FramedFile) : Prop where
  small : framed.storedLength < flipBit
  sized : framed.file.compressed → framed.file.unpackedLength < UInt32.size
  named : flags.hasNameBlobs version →
    ∃ path : Bytes, path.length < 256 ∧ framed.blob = UInt8.ofNat path.length :: path
  nameless : flags.hasNameBlobs version = false → framed.blob = []

end FramedFile

/-- A file whose payload stands for some contents. -/
structure PendingFile.Holds [Codecs] (flags : Flags) (version : Version) (contents : Bytes)
    (file : PendingFile) : Prop where
  compressedEq : file.compressed = (file.flipCompression != flags.compressedByDefault)
  payloadEq : file.payload =
    (if file.compressed then version.compression.pack contents else contents)
  lengthEq : file.unpackedLength = contents.length

theorem Builder.pend_holds [Codecs] (builder : Builder) (state : FileState) (contents : Bytes) :
    (builder.pend state contents).Holds builder.flags builder.version contents :=
  ⟨rfl, rfl, rfl⟩

section SizeField

variable {file : FileRecord} {framed : FramedFile}

theorem sizeField_toNat (small : framed.storedLength < flipBit) :
    framed.sizeField.toNat =
      if framed.file.flipCompression then framed.storedLength + flipBit
      else framed.storedLength := by
  have bound : flipBit = 1073741824 := rfl
  unfold FramedFile.sizeField
  rw [UInt32.toNat_ofNat_of_lt']
  unfold UInt32.size
  split <;> omega

theorem flipCompression_of_sizeField (small : framed.storedLength < flipBit)
    (sizeField : file.sizeField = framed.sizeField) :
    file.flipCompression = framed.file.flipCompression := by
  unfold FileRecord.flipCompression
  rw [sizeField, sizeField_toNat small]
  have low : framed.storedLength.testBit 30 = false := Nat.testBit_lt_two_pow small
  cases framed.file.flipCompression with
  | true =>
      rw [if_pos rfl, Nat.add_comm, show flipBit = 2 ^ 30 from rfl, Nat.testBit_two_pow_add_eq, low]
      rfl
  | false => exact low

theorem dataLength_of_sizeField (small : framed.storedLength < flipBit)
    (sizeField : file.sizeField = framed.sizeField) :
    file.dataLength = framed.storedLength := by
  unfold FileRecord.dataLength
  rw [flipCompression_of_sizeField small sizeField, sizeField, sizeField_toNat small]
  split <;> omega

end SizeField

section Data

variable {archive : Archive} {file : FileRecord} {framed : FramedFile}

theorem isCompressed_of_sizeField
    (compressedEq : framed.file.compressed =
      (framed.file.flipCompression != archive.header.archiveFlags.compressedByDefault))
    (small : framed.storedLength < flipBit) (sizeField : file.sizeField = framed.sizeField) :
    archive.isCompressed file = framed.file.compressed := by
  rw [Archive.isCompressed, flipCompression_of_sizeField small sizeField, compressedEq]

/-- The path at the start of the data is passed over. -/
theorem skipNameBlob_append
    (fits : framed.Fits archive.header.archiveFlags archive.header.version) (rest : Bytes) :
    archive.skipNameBlob file (framed.blob ++ rest) = .ok (framed.blob.length, rest) := by
  unfold Archive.skipNameBlob
  by_cases blobs : archive.header.hasNameBlobs
  · obtain ⟨path, short, blobEq⟩ := fits.named blobs
    have length : LittleEndian.decode [UInt8.ofNat path.length] = path.length := by
      rw [LittleEndian.decode, LittleEndian.decode, UInt8.toNat_ofNat']
      omega
    have reading := readBlock_append archive.source.name (some file.path)
      [UInt8.ofNat path.length] (path ++ rest) rfl
    rw [List.length_singleton] at reading
    rw [if_pos blobs, blobEq, List.cons_append]
    change (readBlock _ _ 1 ([UInt8.ofNat path.length] ++ (path ++ rest)) >>= _) = _
    rw [reading]
    change Except.ok (LittleEndian.decode [UInt8.ofNat path.length] + 1,
      (path ++ rest).drop (LittleEndian.decode [UInt8.ofNat path.length])) = _
    rw [length, List.drop_left, List.length_cons]
  · have noBlob := fits.nameless (Bool.eq_false_iff.mpr blobs)
    rw [if_neg blobs, noBlob]
    rfl

/-- A reader of the data of a file finds the lengths of its payload and of its contents, and the
payload. -/
theorem dataStart_of_data {rest : Bytes}
    (fits : framed.Fits archive.header.archiveFlags archive.header.version)
    (compressedEq : framed.file.compressed =
      (framed.file.flipCompression != archive.header.archiveFlags.compressedByDefault))
    (plain : framed.file.compressed = false →
      framed.file.payload.length = framed.file.unpackedLength)
    (sizeField : file.sizeField = framed.sizeField)
    (holds : archive.source.bytes.drop file.offset.toNat = framed.data ++ rest) :
    archive.dataStart file =
      .ok ⟨framed.file.payload.length, framed.file.unpackedLength,
        framed.file.payload ++ rest⟩ := by
  have compressed := isCompressed_of_sizeField compressedEq fits.small sizeField
  have dataLength := dataLength_of_sizeField fits.small sizeField
  unfold Archive.dataStart
  simp only
  rw [compressed, dataLength, holds, FramedFile.data, List.append_assoc]
  have storedLength : framed.storedLength =
      framed.file.payload.length + framed.blob.length +
        (if framed.file.compressed then 4 else 0) := rfl
  cases packed : framed.file.compressed with
  | true =>
      rw [packed, if_pos rfl] at storedLength
      have sized : (UInt32.ofNat framed.file.unpackedLength).toNat = framed.file.unpackedLength :=
        UInt32.toNat_ofNat_of_lt' (fits.sized packed)
      have size := readBlock_append archive.source.name (some file.path)
        (Bytes.ofWord32 (UInt32.ofNat framed.file.unpackedLength))
        (framed.file.payload ++ rest) (Bytes.length_ofWord32 _)
      have enough : ¬ (true = true ∧ framed.storedLength < 4) := by omega
      have room : ¬ framed.storedLength - 4 < framed.blob.length := by omega
      have onDisk : framed.storedLength - 4 - framed.blob.length =
          framed.file.payload.length := by
        omega
      rw [if_neg enough]
      simp only [if_true, List.append_assoc, skipNameBlob_append fits, Outcome.ok_bind, size,
        if_neg room, onDisk, Bytes.decode_ofWord32, sized]
      rfl
  | false =>
      rw [packed, if_neg Bool.false_ne_true] at storedLength
      have enough : ¬ (false = true ∧ framed.storedLength < 4) := by simp
      have nothing := readBlock_append archive.source.name (some file.path) []
        (framed.file.payload ++ rest) rfl
      have room : ¬ framed.storedLength < framed.blob.length := by omega
      have onDisk : framed.storedLength - framed.blob.length = framed.file.payload.length := by
        omega
      rw [if_neg enough]
      rw [List.length_nil, List.nil_append] at nothing
      simp only [Bool.false_eq_true, if_false, List.nil_append, skipNameBlob_append fits,
        Outcome.ok_bind, nothing, if_neg room, onDisk, plain packed]
      rfl

/-- A reader of the data of a file gets the size and the contents that it holds. -/
theorem contents_of_data [Codecs] {contents rest : Bytes}
    (inverts : archive.header.version.compression.Inverts)
    (fits : framed.Fits archive.header.archiveFlags archive.header.version)
    (held : framed.file.Holds archive.header.archiveFlags archive.header.version contents)
    (sizeField : file.sizeField = framed.sizeField)
    (holds : archive.source.bytes.drop file.offset.toNat = framed.data ++ rest) :
    archive.size file = .ok contents.length ∧ archive.contents file = .ok contents := by
  have plain : framed.file.compressed = false →
      framed.file.payload.length = framed.file.unpackedLength := by
    intro unpacked
    rw [held.payloadEq, unpacked, held.lengthEq]
    rfl
  have start := dataStart_of_data fits held.compressedEq plain sizeField holds
  have compressed : archive.isCompressed file = framed.file.compressed :=
    isCompressed_of_sizeField held.compressedEq fits.small sizeField
  constructor
  · rw [Archive.size, start, Outcome.ok_bind, held.lengthEq]
    rfl
  · unfold Archive.contents
    rw [start, Outcome.ok_bind]
    simp only
    rw [compressed, held.lengthEq, held.payloadEq]
    cases framed.file.compressed with
    | true =>
        obtain ⟨delivery, delivered, taken⟩ :=
          inverts.read contents rest archive.source.name (some file.path)
        simp only [if_true, delivered, taken]
    | false =>
        obtain ⟨delivery, delivered, taken⟩ :=
          Compression.stored_inverts.read contents rest archive.source.name (some file.path)
        rw [Compression.pack] at delivered
        simp only [Bool.false_eq_true, if_false, delivered, taken]

end Data

end Tes4
end GameArchive
