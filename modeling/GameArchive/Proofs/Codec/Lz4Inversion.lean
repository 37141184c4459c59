import GameArchive.Proofs.Codec.Lz4Format

/-!
# The LZ4 codecs invert

A packer reads its own output again and falls back to a form without copies, so all that is left
to show is that this form reads back: the literals of a lone last part, and the stored blocks of
a frame.
-/

namespace GameArchive
namespace Lz4

theorem readExtension?_extensionBytes (extra : Nat) (rest : Bytes) :
    readExtension? (extensionBytes extra ++ rest) = some (extra, rest) := by
  have last : UInt8.ofNat (extra % 255) ≠ 255 := by
    intro same
    have toNat := congrArg UInt8.toNat same
    rw [UInt8.toNat_ofNat_of_lt' (by simp only [UInt8.size]; omega)] at toNat
    change extra % 255 = 255 at toNat
    omega
  refine readExtension?_eq_some_iff.mpr ⟨extra / 255, UInt8.ofNat (extra % 255), last, ?_, ?_⟩
  · rw [extensionBytes, List.append_assoc, List.singleton_append]
  · rw [UInt8.toNat_ofNat_of_lt' (by simp only [UInt8.size]; omega), Nat.div_add_mod]

theorem readLength?_writeLength (length : Nat) (rest : Bytes) :
    readLength? (writeLength length).1 ((writeLength length).2 ++ rest) = some (length, rest) := by
  unfold writeLength
  by_cases short : length < 15
  · rw [if_pos short]
    exact if_neg (by simp only; omega)
  · rw [if_neg short]
    simp only
    rw [readLength?, if_pos rfl, readExtension?_extensionBytes, Option.map_some]
    simp only [Option.some.injEq, Prod.mk.injEq, and_true]
    omega

theorem writeLength_fst_lt (length : Nat) : (writeLength length).1 < 16 := by
  unfold writeLength
  split
  · simp only
    omega
  · simp only
    omega

theorem writeTail_ne_nil (literals : Bytes) : writeTail literals ≠ [] := by
  intro empty
  cases empty

theorem readPart?_writeTail (literals : Bytes) :
    readPart? (writeTail literals) = some (.tail literals) := by
  have small := writeLength_fst_lt literals.length
  have token : (UInt8.ofNat (16 * (writeLength literals.length).1)).toNat / 16 =
      (writeLength literals.length).1 := by
    rw [UInt8.toNat_ofNat_of_lt' (by simp only [UInt8.size]; omega)]
    omega
  have cut : literals.split? literals.length = some (literals, []) := by
    have whole := Bytes.split?_append literals []
    rwa [List.append_nil] at whole
  rw [writeTail]
  simp only
  rw [readPart?, token, readLiterals?, readLength?_writeLength]
  simp [cut]

/-- A block without copies decodes to its literals. -/
theorem decodeBlock?_writeTail (literals : Bytes) :
    decodeBlock? literals.length (writeTail literals) = some literals := by
  have read : Block.read? (writeTail literals) = some ⟨[], literals⟩ := by
    rw [Block.read?, readParts?, readPart?_writeTail]
  rw [decodeBlock?, read]
  simp [Block.expand?, Block.expandInto?]

theorem decodeBlock?_packBlock (contents : Bytes) :
    decodeBlock? contents.length (packBlock contents) = some contents := by
  rw [packBlock]
  split
  · assumption
  · exact decodeBlock?_writeTail contents

theorem packBlock_ne_nil (contents : Bytes) : packBlock contents ≠ [] := by
  have written : ∀ block : Block, block.write ≠ [] := fun block empty =>
    writeTail_ne_nil block.tail (List.append_eq_nil_iff.mp empty).2
  rw [packBlock]
  split
  · exact written _
  · exact written _

def storedHeader : FrameHeader where
  independent := true
  blockChecksums := false
  contentChecksum := false
  contentSize := none
  blockLimit := 64 * 1024

theorem readDescriptor?_written (rest : Bytes) :
    readDescriptor? ([0x60, 0x40, descriptorCheck [0x60, 0x40]] ++ rest) =
      some (storedHeader, rest) := by
  have descriptor : Bytes.split? 2 (0x60 :: 0x40 :: descriptorCheck [0x60, 0x40] :: rest) =
      some ([0x60, 0x40], descriptorCheck [0x60, 0x40] :: rest) :=
    Bytes.split?_append [0x60, 0x40] _
  have check : Bytes.split? 1 (descriptorCheck [0x60, 0x40] :: rest) =
      some ([descriptorCheck [0x60, 0x40]], rest) :=
    Bytes.split?_append [descriptorCheck [0x60, 0x40]] _
  have noSize : hasFlag 0x60 0x08 = false := rfl
  have limit : blockLimit? 0x40 = some (64 * 1024) := rfl
  have flags : (0x60 : UInt8) >>> 6 = 1 ∧ (0x60 : UInt8) &&& 0x03 = 0 ∧
      (0x40 : UInt8) &&& 0x8F = 0 := by decide
  simp only [List.cons_append, List.nil_append, readDescriptor?, noSize, Bool.false_eq_true,
    if_false, descriptor, Option.bind_eq_bind, Option.bind_some, check, flags, limit, and_self,
    if_true]
  rfl

theorem readFrameStart_written (rest : Bytes) :
    readFrameStart (writtenHeader ++ rest) = .frame storedHeader rest := by
  have fits : frameMagic < LittleEndian.bound 4 := by decide
  have notEmpty : (writtenHeader ++ rest).isEmpty = false := rfl
  rw [readFrameStart, notEmpty, writtenHeader, List.append_assoc,
    LittleEndian.read?_encode_append fits]
  simp only [readDescriptor?_written, Bool.false_eq_true, if_false]
  rfl

/-- A stored block adds its contents to the output. -/
theorem readBlocks_storedFrameBlock (fuel : Nat) (buffer : LinkedBuffer) {contents : Bytes}
    (rest : Bytes) (output : Array UInt8) (notEmpty : contents ≠ [])
    (small : contents.length ≤ frameBlockSize) :
    ∃ advanced,
      readBlocks storedHeader (fuel + 1) buffer (storedFrameBlock contents ++ rest) output =
        readBlocks storedHeader fuel advanced rest (output ++ contents.toArray) := by
  have fits : 0x80000000 + contents.length < LittleEndian.bound 4 := by
    have bound : LittleEndian.bound 4 = 0x100000000 := rfl
    rw [frameBlockSize] at small
    omega
  have positive : 0 < contents.length := List.length_pos_iff.mpr notEmpty
  have block : ∀ room, readBlock? storedHeader room (0x80000000 + contents.length)
      (contents ++ rest) output = some (output ++ contents.toArray, rest) := by
    intro room
    have plain : 0x80000000 ≤ 0x80000000 + contents.length := Nat.le_add_right _ _
    have allowed : ¬ storedHeader.blockLimit < contents.length := Nat.not_lt.mpr small
    have body : readBlockBody? storedHeader contents.length (contents ++ rest) =
        some (contents, rest) := by
      rw [readBlockBody?, Bytes.split?_append]
      rfl
    simp only [readBlock?, plain, if_true, Nat.add_sub_cancel_left, allowed, if_false, body,
      Option.bind_eq_bind, Option.bind_some]
    rfl
  have grown : (output ++ contents.toArray).size ≠ output.size := by
    simp only [Array.size_append, List.size_toArray]
    omega
  obtain ⟨before, word⟩ : ∃ before, 0x80000000 + contents.length = before + 1 :=
    ⟨0x7FFFFFFF + contents.length, by omega⟩
  rw [storedFrameBlock, List.append_assoc, readBlocks, LittleEndian.read?_encode_append fits]
  rw [word] at block ⊢
  simp only [block, grown, if_false]
  exact ⟨_, rfl⟩

/-- The stored blocks of a frame put its contents together. -/
theorem readBlocks_frameBlocks {fuel count : Nat} (buffer : LinkedBuffer) {contents : Bytes}
    (output : Array UInt8) (all : contents.length ≤ count * frameBlockSize)
    (noneEmpty : count * frameBlockSize < contents.length + frameBlockSize)
    (enough : count < fuel) :
    readBlocks storedHeader fuel buffer
        ((frameBlocks count contents).flatMap storedFrameBlock ++ LittleEndian.encode 4 0) output =
      (output ++ contents.toArray, .finished) := by
  induction count generalizing fuel buffer contents output with
  | zero =>
      obtain ⟨fuel, rfl⟩ : ∃ less, fuel = less + 1 := ⟨fuel - 1, by omega⟩
      have empty : contents = [] := List.length_eq_zero_iff.mp (by omega)
      have mark : LittleEndian.read? 4 (LittleEndian.encode 4 0) = some (0, []) := rfl
      rw [frameBlocks, List.flatMap_nil, List.nil_append, readBlocks, mark, empty,
        Array.append_empty]
      rfl
  | succ count ih =>
      obtain ⟨fuel, rfl⟩ : ∃ less, fuel = less + 1 := ⟨fuel - 1, by omega⟩
      rw [Nat.succ_mul] at all noneEmpty
      have positive : 0 < contents.length := by omega
      have notEmpty : contents.take frameBlockSize ≠ [] := by
        apply List.ne_nil_of_length_pos
        rw [List.length_take, frameBlockSize]
        omega
      obtain ⟨advanced, step⟩ := readBlocks_storedFrameBlock fuel buffer
        ((frameBlocks count (contents.drop frameBlockSize)).flatMap storedFrameBlock ++
          LittleEndian.encode 4 0) output notEmpty (List.length_take_le _ _)
      have joined : output ++ (contents.take frameBlockSize).toArray ++
          (contents.drop frameBlockSize).toArray = output ++ contents.toArray := by
        rw [Array.append_assoc, List.append_toArray (contents.take _), List.take_append_drop]
      have dropped : (contents.drop frameBlockSize).length = contents.length - frameBlockSize :=
        List.length_drop
      have noneEmptyLeft : count * frameBlockSize <
          (contents.drop frameBlockSize).length + frameBlockSize := by
        rw [dropped]
        omega
      have allLeft : (contents.drop frameBlockSize).length ≤ count * frameBlockSize := by
        omega
      have enoughLeft : count < fuel := Nat.lt_of_succ_lt_succ enough
      rw [frameBlocks, List.flatMap_cons, List.append_assoc, step,
        @ih fuel advanced (contents.drop frameBlockSize) _ allLeft noneEmptyLeft enoughLeft, joined]

theorem le_length_flatMap_storedFrameBlock (blocks : List Bytes) :
    blocks.length ≤ (blocks.flatMap storedFrameBlock).length := by
  induction blocks with
  | nil => exact Nat.le_refl 0
  | cons block blocks ih =>
      rw [List.flatMap_cons, List.length_append, storedFrameBlock, List.length_append,
        LittleEndian.length_encode, List.length_cons]
      omega

theorem length_frameBlocks (count : Nat) (contents : Bytes) :
    (frameBlocks count contents).length = count := by
  induction count generalizing contents with
  | zero => rfl
  | succ count ih => rw [frameBlocks, List.length_cons, ih]

/-- A frame that begins well delivers what its blocks give. -/
theorem decodeFrame_of_start {bytes rest : Bytes} {header : FrameHeader} {output : Array UInt8}
    {ending : Ending} (start : readFrameStart bytes = .frame header rest)
    (blocks : readBlocks header (rest.length + 1) .start rest #[] = (output, ending)) :
    decodeFrame bytes = ⟨output.toList, [], ending⟩ := by
  rw [decodeFrame, start]
  simp only [blocks]

/-- A frame has just enough blocks for its contents. -/
theorem frameBlockCount (length : Nat) :
    length ≤ (length + frameBlockSize - 1) / frameBlockSize * frameBlockSize ∧
      (length + frameBlockSize - 1) / frameBlockSize * frameBlockSize <
        length + frameBlockSize := by
  have size : frameBlockSize = 65536 := rfl
  rw [size]
  constructor <;> omega

theorem decodeFrame_stored (contents : Bytes) :
    (decodeFrame (writeFrame storedFrameBlock contents)).all? = some contents := by
  obtain ⟨all, noneEmpty⟩ := frameBlockCount contents.length
  unfold writeFrame
  simp only
  generalize (contents.length + frameBlockSize - 1) / frameBlockSize = count at all noneEmpty ⊢
  have enough := le_length_flatMap_storedFrameBlock (frameBlocks count contents)
  rw [length_frameBlocks] at enough
  have blocks := readBlocks_frameBlocks .start #[] all noneEmpty
    (Nat.lt_succ_of_le (Nat.le_trans enough (Nat.le_add_right _ (LittleEndian.encode 4 0).length)))
  rw [← List.length_append] at blocks
  rw [List.append_assoc, decodeFrame_of_start (readFrameStart_written _) blocks]
  simp [Delivery.all?]

theorem decodeFrame_packFrame (contents : Bytes) :
    (decodeFrame (packFrame contents)).all? = some contents := by
  rw [packFrame]
  split
  · assumption
  · exact decodeFrame_stored contents

end Lz4

/-- The codec of raw blocks gives back what it packed, and the limit on declared sizes is not in
the way. -/
theorem Compression.lz4Block_inverts : Compression.lz4Block.Inverts := by
  intro contents
  have decoded := Lz4.decodeBlock?_packBlock contents
  have trusted := Compression.length_le_blockLimit (Lz4.decodeBlock?_eq_some_iff.mp decoded).1
  rw [Compression.pack]
  exact ⟨.ready contents, Compression.deliver_lz4Block trusted decoded, rfl⟩

theorem Compression.lz4Frame_inverts : Compression.lz4Frame.Inverts := by
  intro contents
  refine ⟨Lz4.decodeFrame (Lz4.packFrame contents), ?_, Lz4.decodeFrame_packFrame contents⟩
  rw [Compression.deliver, List.take_length, Compression.pack]
  rfl

end GameArchive
