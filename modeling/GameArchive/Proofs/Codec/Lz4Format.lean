import GameArchive.Proofs.Codec.Inversion
import GameArchive.Proofs.Codec.Lz4Expansion
import GameArchive.Proofs.Reading

/-!
# The format of LZ4 blocks

`Decodes` says what a block means, without saying how it is read: a length is a half byte with the
bytes that extend it, a copy agrees with the output `offset` bytes back, and a block is a row of
sequences that literals end.  The decoder of this library accepts exactly the blocks of the format
and gives what they mean, as far as it is allowed to.

A block of the format is never longer than the limit that a declared size is held against, so an
entry that declares its true size is always decoded.
-/

namespace GameArchive
namespace Lz4

/-- The length that a half byte tells together with the bytes behind it.  Fifteen is extended by
bytes that are added to it, up to the first one below 255. -/
inductive TellsLength : (nibble : Nat) → (field : Bytes) → (length : Nat) → Prop
  | short {nibble : Nat} (whole : nibble ≠ 15) : TellsLength nibble [] nibble
  | extended (count : Nat) {last : UInt8} (below : last ≠ 255) :
      TellsLength 15 (List.replicate count 255 ++ [last]) (15 + (255 * count + last.toNat))

/-- Each byte of a copy is the one `offset` bytes before it, which may belong to the copy. -/
def Repeats (output : Bytes) (offset : Nat) (copy : Bytes) : Prop :=
  ∀ index < copy.length, copy[index]? = (output ++ copy)[output.length + index - offset]?

/-- A block that stands behind an output makes `contents` of it. -/
inductive Decodes : (output block contents : Bytes) → Prop
  /-- Literals reach the end of the block. -/
  | tail {token : UInt8} {output field literals : Bytes}
      (run : TellsLength (token.toNat / 16) field literals.length) :
      Decodes output (token :: (field ++ literals)) (output ++ literals)
  /-- Literals, the offset of a copy, and what extends the length of the copy. -/
  | sequence {token : UInt8} {output field literals further copy block contents : Bytes}
      {offset extra : Nat} (run : TellsLength (token.toNat / 16) field literals.length)
      (word : offset < LittleEndian.bound 2) (back : 1 ≤ offset)
      (inside : offset ≤ (output ++ literals).length)
      (repeats : Repeats (output ++ literals) offset copy)
      (most : TellsLength (token.toNat % 16) further extra)
      (copied : copy.length = minimumMatch + extra)
      (rest : Decodes (output ++ literals ++ copy) block contents) :
      Decodes output
        (token :: (field ++ (literals ++ (LittleEndian.encode 2 offset ++ (further ++ block)))))
        contents

/-! ## Lengths -/

theorem readExtension?_eq_some_iff {bytes rest : Bytes} {more : Nat} :
    readExtension? bytes = some (more, rest) ↔
      ∃ (count : Nat) (last : UInt8), last ≠ 255 ∧
        bytes = List.replicate count 255 ++ last :: rest ∧ more = 255 * count + last.toNat := by
  constructor
  · intro found
    induction bytes generalizing more with
    | nil => cases found
    | cons byte bytes ih =>
        unfold readExtension? at found
        split at found
        · next greatest =>
            obtain ⟨⟨inner, remaining⟩, step, same⟩ := Option.map_eq_some_iff.mp found
            cases same
            obtain ⟨count, last, below, row, rfl⟩ := ih step
            refine ⟨count + 1, last, below, ?_, by omega⟩
            rw [greatest, row, List.replicate_succ, List.cons_append]
        · next below =>
            cases found
            exact ⟨0, byte, below, rfl, by omega⟩
  · rintro ⟨count, last, below, rfl, rfl⟩
    induction count with
    | zero =>
        rw [List.replicate_zero, List.nil_append, readExtension?, if_neg below, Nat.mul_zero,
          Nat.zero_add]
    | succ count ih =>
        rw [List.replicate_succ, List.cons_append, readExtension?, if_pos rfl, ih]
        simp only [Option.map_some, Option.some.injEq, Prod.mk.injEq, and_true]
        omega

theorem readLength?_eq_some_iff {nibble length : Nat} {bytes rest : Bytes} :
    readLength? nibble bytes = some (length, rest) ↔
      ∃ field, TellsLength nibble field length ∧ bytes = field ++ rest := by
  unfold readLength?
  split
  · next more =>
      subst more
      rw [Option.map_eq_some_iff]
      constructor
      · rintro ⟨⟨extra, remaining⟩, read, same⟩
        cases same
        obtain ⟨count, last, below, row, rfl⟩ := readExtension?_eq_some_iff.mp read
        exact ⟨_, .extended count below, by simpa using row⟩
      · rintro ⟨field, told, rfl⟩
        cases told with
        | short whole => exact absurd rfl whole
        | extended count below =>
            exact ⟨_, readExtension?_eq_some_iff.mpr ⟨count, _, below, by simp, rfl⟩, rfl⟩
  · next whole =>
      constructor
      · intro same
        cases same
        exact ⟨[], .short whole, rfl⟩
      · rintro ⟨field, told, rfl⟩
        cases told with
        | short => rfl
        | extended => exact absurd rfl whole

theorem readLiterals?_eq_some_iff {nibble : Nat} {bytes literals rest : Bytes} :
    readLiterals? nibble bytes = some (literals, rest) ↔
      ∃ field, TellsLength nibble field literals.length ∧ bytes = field ++ (literals ++ rest) := by
  constructor
  · intro found
    obtain ⟨⟨length, remaining⟩, read, cut⟩ := Option.bind_eq_some_iff.mp found
    obtain ⟨field, told, row⟩ := readLength?_eq_some_iff.mp read
    obtain ⟨parts, rfl⟩ := Bytes.split?_eq_some.mp cut
    rw [parts] at row
    exact ⟨field, told, row⟩
  · rintro ⟨field, told, row⟩
    exact Option.bind_eq_some_iff.mpr
      ⟨_, readLength?_eq_some_iff.mpr ⟨field, told, row⟩, Bytes.split?_append literals rest⟩

/-! ## Copies -/

theorem repeats_nil (output : Bytes) (offset : Nat) : Repeats output offset [] :=
  fun _ beyond => absurd beyond (Nat.not_lt_zero _)

/-- A copy begins with a byte of the output before it, and goes on as a copy behind that byte. -/
theorem repeats_cons_iff {output copy : Bytes} {offset : Nat} {byte : UInt8} (back : 1 ≤ offset)
    (inside : offset ≤ output.length) :
    Repeats output offset (byte :: copy) ↔
      output[output.length - offset]? = some byte ∧ Repeats (output ++ [byte]) offset copy := by
  have row : output ++ [byte] ++ copy = output ++ byte :: copy := by simp
  have first : (output ++ byte :: copy)[output.length + 0 - offset]? =
      output[output.length - offset]? :=
    List.getElem?_append_left (by omega)
  have shifted (index : Nat) : (output ++ [byte]).length + index - offset =
      output.length + (index + 1) - offset := by
    rw [List.length_append, List.length_singleton, Nat.add_assoc, Nat.add_comm 1]
  constructor
  · intro repeats
    refine ⟨?_, fun index within => ?_⟩
    · rw [← first, ← repeats 0 (Nat.succ_pos _), List.getElem?_cons_zero]
    · rw [row, shifted, ← repeats (index + 1) (Nat.succ_lt_succ within), List.getElem?_cons_succ]
  · rintro ⟨begun, further⟩ index within
    cases index with
    | zero => rw [first, begun, List.getElem?_cons_zero]
    | succ index =>
        have next := further index (Nat.lt_of_succ_lt_succ within)
        rwa [row, shifted] at next

theorem copyBack_of_repeats {output copy : Bytes} {offset : Nat} (back : 1 ≤ offset)
    (inside : offset ≤ output.length) (repeats : Repeats output offset copy) :
    copyBack offset copy.length output.toArray = (output ++ copy).toArray := by
  induction copy generalizing output with
  | nil => rw [List.append_nil, List.length_nil, copyBack]
  | cons byte copy ih =>
      obtain ⟨first, further⟩ := (repeats_cons_iff back inside).mp repeats
      have taken : output.toArray.getD (output.toArray.size - offset) 0 = byte := by
        rw [Array.getD_eq_getD_getElem?, List.getElem?_toArray, List.size_toArray, first,
          Option.getD_some]
      have within : offset ≤ (output ++ [byte]).length := by
        rw [List.length_append]
        omega
      rw [List.length_cons, copyBack, taken, List.push_toArray, ih within further]
      simp

theorem exists_repeats {offset : Nat} (back : 1 ≤ offset) (length : Nat) {output : Bytes}
    (inside : offset ≤ output.length) :
    ∃ copy, copy.length = length ∧ Repeats output offset copy := by
  induction length generalizing output with
  | zero => exact ⟨[], rfl, repeats_nil output offset⟩
  | succ length ih =>
      have there : output.length - offset < output.length := by omega
      have within : offset ≤ (output ++ [output[output.length - offset]]).length := by
        rw [List.length_append]
        omega
      obtain ⟨copy, rfl, further⟩ := ih within
      exact ⟨_ :: copy, rfl,
        (repeats_cons_iff back inside).mpr ⟨List.getElem?_eq_getElem there, further⟩⟩

/-! ## Blocks -/

theorem Decodes.length_le {output block contents : Bytes}
    (decodes : Decodes output block contents) : output.length ≤ contents.length := by
  induction decodes with
  | tail => simp
  | sequence _ _ _ _ _ _ _ _ ih =>
      simp only [List.length_append] at ih
      omega

theorem Block.expandInto?_cons {limit : Nat} {sequence : Sequence} {block : Block}
    {output : Array UInt8} :
    ({ block with sequences := sequence :: block.sequences } : Block).expandInto? limit output =
      (expandSequence? limit output sequence).bind (block.expandInto? limit) := by
  unfold Block.expandInto?
  rw [List.foldlM_cons]
  exact Option.bind_assoc ..

theorem readPart?_eq_tail_iff {token : UInt8} {bytes literals : Bytes} :
    readPart? (token :: bytes) = some (.tail literals) ↔
      ∃ field, TellsLength (token.toNat / 16) field literals.length ∧
        bytes = field ++ literals := by
  constructor
  · intro read
    obtain ⟨⟨found, rest⟩, run, further⟩ := Option.bind_eq_some_iff.mp read
    simp only at further
    split at further
    · next ended =>
        cases further
        obtain ⟨field, told, row⟩ := readLiterals?_eq_some_iff.mp run
        rw [List.isEmpty_iff.mp ended, List.append_nil] at row
        exact ⟨field, told, row⟩
    · obtain ⟨⟨offset, afterOffset⟩, -, further⟩ := Option.bind_eq_some_iff.mp further
      obtain ⟨⟨length, afterLength⟩, -, made⟩ := Option.bind_eq_some_iff.mp further
      cases made
  · rintro ⟨field, told, rfl⟩
    have run : readLiterals? (token.toNat / 16) (field ++ literals) = some (literals, []) :=
      readLiterals?_eq_some_iff.mpr ⟨field, told, by rw [List.append_nil]⟩
    exact Option.bind_eq_some_iff.mpr ⟨_, run, rfl⟩

theorem readPart?_eq_sequence_iff {token : UInt8} {bytes rest literals : Bytes}
    {offset length : Nat} :
    readPart? (token :: bytes) = some (.sequence ⟨literals, offset, length⟩ rest) ↔
      ∃ field further extra, TellsLength (token.toNat / 16) field literals.length ∧
        offset < LittleEndian.bound 2 ∧ TellsLength (token.toNat % 16) further extra ∧
        length = minimumMatch + extra ∧
        bytes = field ++ (literals ++ (LittleEndian.encode 2 offset ++ (further ++ rest))) := by
  constructor
  · intro read
    obtain ⟨⟨found, afterRun⟩, run, further⟩ := Option.bind_eq_some_iff.mp read
    simp only at further
    split at further
    · cases further
    · obtain ⟨⟨word, afterWord⟩, wordRead, further⟩ := Option.bind_eq_some_iff.mp further
      obtain ⟨⟨extra, afterLength⟩, lengthRead, made⟩ := Option.bind_eq_some_iff.mp further
      cases made
      obtain ⟨field, told, row⟩ := readLiterals?_eq_some_iff.mp run
      obtain ⟨fits, rfl⟩ := LittleEndian.read?_eq_some_iff.mp wordRead
      obtain ⟨more, toldMore, rfl⟩ := readLength?_eq_some_iff.mp lengthRead
      exact ⟨field, more, extra, told, fits, toldMore, rfl, row⟩
  · rintro ⟨field, further, extra, told, fits, toldMore, rfl, rfl⟩
    have run : readLiterals? (token.toNat / 16)
        (field ++ (literals ++ (LittleEndian.encode 2 offset ++ (further ++ rest)))) =
          some (literals, LittleEndian.encode 2 offset ++ (further ++ rest)) :=
      readLiterals?_eq_some_iff.mpr ⟨field, told, rfl⟩
    have word := LittleEndian.read?_encode_append fits (further ++ rest)
    have more : readLength? (token.toNat % 16) (further ++ rest) = some (extra, rest) :=
      readLength?_eq_some_iff.mpr ⟨further, toldMore, rfl⟩
    have notEmpty : (LittleEndian.encode 2 offset ++ (further ++ rest)).isEmpty = false := rfl
    simp only [readPart?, run, notEmpty, word, more, Option.bind_eq_bind, Option.bind_some,
      Bool.false_eq_true, if_false]
    rfl

theorem expandSequence?_eq_some_iff {limit offset length : Nat} {output literals : Bytes}
    {expanded : Array UInt8} :
    expandSequence? limit output.toArray ⟨literals, offset, length⟩ = some expanded ↔
      (1 ≤ offset ∧ offset ≤ (output ++ literals).length ∧
        (output ++ literals).length + length ≤ limit) ∧
      ∃ copy, copy.length = length ∧ Repeats (output ++ literals) offset copy ∧
        expanded = (output ++ literals ++ copy).toArray := by
  unfold expandSequence?
  simp only [List.append_toArray, List.size_toArray]
  split
  · next holds =>
      rw [and_iff_right holds, Option.some.injEq]
      obtain ⟨back, inside, -⟩ := holds
      constructor
      · rintro rfl
        obtain ⟨copy, rfl, repeats⟩ := exists_repeats back length inside
        exact ⟨copy, rfl, repeats, copyBack_of_repeats back inside repeats⟩
      · rintro ⟨copy, rfl, repeats, rfl⟩
        exact copyBack_of_repeats back inside repeats
  · next fails => exact ⟨nofun, fun holds => absurd holds.1 fails⟩

theorem Block.expandInto?_tail {limit : Nat} {output literals : Bytes} {expanded : Array UInt8} :
    (⟨[], literals⟩ : Block).expandInto? limit output.toArray = some expanded ↔
      (output ++ literals).length ≤ limit ∧ expanded = (output ++ literals).toArray := by
  unfold Block.expandInto?
  simp [eq_comm]

/-- What is read and expanded is what the format says. -/
theorem decodes_of_readParts? {fuel limit : Nat} {output block contents : Bytes} {parts : Block}
    (read : readParts? fuel block = some parts)
    (expand : parts.expandInto? limit output.toArray = some contents.toArray) :
    Decodes output block contents ∧ contents.length ≤ limit := by
  induction fuel generalizing block parts output with
  | zero => cases read
  | succ fuel ih =>
      cases block with
      | nil => cases read
      | cons token bytes =>
          unfold readParts? at read
          split at read
          · cases read
          · next literals part =>
              cases read
              obtain ⟨field, told, rfl⟩ := readPart?_eq_tail_iff.mp part
              obtain ⟨fits, same⟩ := Block.expandInto?_tail.mp expand
              obtain rfl : contents = output ++ literals := congrArg Array.toList same
              exact ⟨.tail told, fits⟩
          · next sequence rest part =>
              obtain ⟨inner, step, rfl⟩ := Option.map_eq_some_iff.mp read
              rw [Block.expandInto?_cons] at expand
              obtain ⟨between, once, expand⟩ := Option.bind_eq_some_iff.mp expand
              obtain ⟨field, further, extra, told, word, toldMore, lengthEq, rfl⟩ :=
                readPart?_eq_sequence_iff.mp part
              obtain ⟨⟨back, inside, -⟩, copy, copied, repeats, rfl⟩ :=
                expandSequence?_eq_some_iff.mp once
              obtain ⟨decodes, fits⟩ := ih step expand
              exact ⟨.sequence told word back inside repeats toldMore (copied.trans lengthEq)
                decodes, fits⟩

/-- What the format says is read and expanded. -/
theorem Decodes.readParts? {fuel limit : Nat} {output block contents : Bytes}
    (decodes : Decodes output block contents) (enough : block.length < fuel)
    (fits : contents.length ≤ limit) :
    ∃ parts, readParts? fuel block = some parts ∧
      parts.expandInto? limit output.toArray = some contents.toArray := by
  induction decodes generalizing fuel with
  | tail run =>
      obtain ⟨fuel, rfl⟩ : ∃ less, fuel = less + 1 := ⟨fuel - 1, by omega⟩
      have part := readPart?_eq_tail_iff.mpr ⟨_, run, rfl⟩
      exact ⟨_, by rw [Lz4.readParts?, part], Block.expandInto?_tail.mpr ⟨fits, rfl⟩⟩
  | @sequence token output field literals further copy block contents offset extra run word back
      inside repeats most copied rest ih =>
      obtain ⟨fuel, rfl⟩ : ∃ less, fuel = less + 1 := ⟨fuel - 1, by omega⟩
      simp only [List.length_cons, List.length_append, LittleEndian.length_encode] at enough
      have shorter : block.length < fuel := by omega
      obtain ⟨parts, read, expand⟩ := ih shorter fits
      have part : readPart? (token :: (field ++ (literals ++ (LittleEndian.encode 2 offset ++
          (further ++ block))))) = some (.sequence ⟨literals, offset, copy.length⟩ block) :=
        readPart?_eq_sequence_iff.mpr ⟨field, further, extra, run, word, most, copied, rfl⟩
      have grown := rest.length_le
      rw [List.length_append] at grown
      have once := expandSequence?_eq_some_iff.mpr
        ⟨⟨back, inside, Nat.le_trans grown fits⟩, copy, rfl, repeats, rfl⟩
      refine ⟨{ parts with sequences := ⟨literals, offset, copy.length⟩ :: parts.sequences },
        ?_, ?_⟩
      · rw [Lz4.readParts?, part]
        simp only [read, Option.map_some]
      · rw [Block.expandInto?_cons, once, Option.bind_some, expand]

/-- The decoder gives what the format says, as far as the limit lets it. -/
theorem decodeBlock?_eq_some_iff {limit : Nat} {block contents : Bytes} :
    decodeBlock? limit block = some contents ↔
      Decodes [] block contents ∧ contents.length ≤ limit := by
  constructor
  · intro decoded
    obtain ⟨parts, read, expanded⟩ := Option.bind_eq_some_iff.mp decoded
    obtain ⟨output, expand, rfl⟩ := Option.map_eq_some_iff.mp expanded
    change parts.expandInto? limit ([] : Bytes).toArray = some output at expand
    exact decodes_of_readParts? read expand
  · rintro ⟨decodes, fits⟩
    obtain ⟨parts, read, expand⟩ := decodes.readParts? (Nat.lt_succ_self _) fits
    exact Option.bind_eq_some_iff.mpr
      ⟨parts, read, Option.map_eq_some_iff.mpr ⟨_, expand, List.toList_toArray⟩⟩

end Lz4

/-- The decoder of a codec of blocks accepts the blocks of the LZ4 format and gives what they
mean, unless that is longer than the limit. -/
def BlockCodec.FollowsLz4 (codec : BlockCodec) : Prop :=
  ∀ limit packed contents, codec.decode? limit packed = some contents ↔
    Lz4.Decodes [] packed contents ∧ contents.length ≤ limit

namespace Compression

theorem standard_followsLz4 : Codecs.standard.lz4Block.FollowsLz4 :=
  fun _ _ _ => Lz4.decodeBlock?_eq_some_iff

theorem length_le_blockLimit {packed contents : Bytes}
    (decodes : Lz4.Decodes [] packed contents) :
    contents.length ≤ blockLimit packed.length := by
  have bound := Lz4.length_decodeBlock?_le
    (Lz4.decodeBlock?_eq_some_iff.mpr ⟨decodes, Nat.le_refl _⟩)
  rw [blockLimit, blockRatio]
  omega

/-- Whatever decodes is within the limit on declared sizes, so that an entry that declares its true
size is read in full. -/
theorem deliver_lz4Block_of_decoded [Codecs] (follows : Codecs.lz4Block.FollowsLz4) {limit : Nat}
    {packed contents : Bytes} (decoded : Codecs.lz4Block.decode? limit packed = some contents)
    (rest : Bytes) :
    contents.length ≤ 255 * packed.length + 16 ∧
      ∃ delivery,
        lz4Block.deliver (packed ++ rest) packed.length contents.length = .ok delivery ∧
          delivery.all? = some contents := by
  have decodes := ((follows limit packed contents).mp decoded).1
  have trusted := length_le_blockLimit decodes
  have again := (follows contents.length packed contents).mpr ⟨decodes, Nat.le_refl _⟩
  refine ⟨?_, .ready contents, ?_, rfl⟩
  · rwa [blockLimit, blockRatio, Nat.mul_comm] at trusted
  · have alone : lz4Block.deliver (packed ++ rest) packed.length contents.length =
        lz4Block.deliver packed packed.length contents.length := by
      simp [deliver]
    rw [alone, deliver_lz4Block trusted again]

/-- A byte, a copy that reaches 23 bytes into itself, and literals, before the bytes of another
entry. -/
theorem deliver_lz4Block_of_decoded_overlapping :
    let packed : Bytes := [0x1F, 0x61, 0x01, 0x00, 0x05, 0x50, 0x62, 0x63, 0x64, 0x65, 0x66]
    let contents : Bytes := List.replicate 25 0x61 ++ [0x62, 0x63, 0x64, 0x65, 0x66]
    Codecs.standard.lz4Block.FollowsLz4 ∧
      Codecs.standard.lz4Block.decode? 1000 packed = some contents ∧
      30 ≤ 255 * 11 + 16 ∧
      ∃ delivery, lz4Block.deliver (packed ++ [0x10, 0x67]) 11 30 = .ok delivery ∧
        delivery.all? = some contents := by
  intro packed contents
  have decoded : Codecs.standard.lz4Block.decode? 1000 packed = some contents := by
    decide +kernel
  exact ⟨standard_followsLz4, decoded,
    deliver_lz4Block_of_decoded standard_followsLz4 decoded [0x10, 0x67]⟩

end Compression
end GameArchive
