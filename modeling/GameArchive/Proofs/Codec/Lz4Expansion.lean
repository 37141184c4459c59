import GameArchive.Codec.Compression

/-!
# How far an LZ4 block expands

No byte of a block stands for more than 255 bytes of output: a byte that extends a length adds at
most that many, a literal byte stands for itself, and the shortest sequence has a token and an
offset, which make up for the least copy and for what the token says of the lengths.  The limit
that a declared size is held against is therefore never in the way of a block that decodes.
-/

namespace GameArchive
namespace Lz4

theorem readExtension?_bound {bytes rest : Bytes} {more : Nat}
    (found : readExtension? bytes = some (more, rest)) :
    more + 255 * rest.length ≤ 255 * bytes.length := by
  induction bytes generalizing more rest with
  | nil => cases found
  | cons byte bytes ih =>
      have small := byte.toNat_lt
      unfold readExtension? at found
      split at found
      · obtain ⟨⟨inner, remaining⟩, step, same⟩ := Option.map_eq_some_iff.mp found
        have bound := ih step
        cases same
        rw [List.length_cons]
        omega
      · next notMore =>
          cases found
          have notGreatest : byte.toNat ≠ 255 := fun greatest =>
            notMore (UInt8.toNat_inj.mp greatest)
          rw [List.length_cons]
          omega

theorem readLength?_bound {nibble length : Nat} {bytes rest : Bytes}
    (found : readLength? nibble bytes = some (length, rest)) :
    length + 255 * rest.length ≤ nibble + 255 * bytes.length := by
  unfold readLength? at found
  split at found
  · next more =>
      obtain ⟨⟨extra, remaining⟩, step, same⟩ := Option.map_eq_some_iff.mp found
      have bound := readExtension?_bound step
      cases same
      omega
  · cases found
    exact Nat.le_refl _

theorem readLiterals?_bound {nibble : Nat} {bytes literals rest : Bytes} (small : nibble ≤ 15)
    (found : readLiterals? nibble bytes = some (literals, rest)) :
    literals.length + 255 * rest.length ≤ 15 + 255 * bytes.length := by
  unfold readLiterals? at found
  obtain ⟨⟨length, remaining⟩, step, cut⟩ := Option.bind_eq_some_iff.mp found
  have bound := readLength?_bound step
  obtain ⟨rfl, lengthEq⟩ := Bytes.split?_eq_some.mp cut
  rw [List.length_append] at bound
  omega

def Sequence.size (sequence : Sequence) : Nat :=
  sequence.literals.length + sequence.length

def sequencesSize : List Sequence → Nat
  | [] => 0
  | sequence :: sequences => sequence.size + sequencesSize sequences

def Block.size (block : Block) : Nat :=
  sequencesSize block.sequences + block.tail.length

/-- The number of bytes that a part stands for, with those that its rest may stand for. -/
def Part.reach : Part → Nat
  | .sequence value rest => value.size + 255 * rest.length
  | .tail literals => literals.length

theorem readPart?_bound {bytes : Bytes} {part : Part} (found : readPart? bytes = some part) :
    part.reach ≤ 255 * bytes.length := by
  cases bytes with
  | nil => cases found
  | cons token bytes =>
      have small := token.toNat_lt
      unfold readPart? at found
      obtain ⟨⟨literals, rest⟩, literalsRead, found⟩ := Option.bind_eq_some_iff.mp found
      have literalsBound := readLiterals?_bound (by omega) literalsRead
      simp only at found
      rw [List.length_cons]
      split at found
      · cases found
        rw [Part.reach]
        omega
      · obtain ⟨⟨offset, afterOffset⟩, offsetRead, found⟩ := Option.bind_eq_some_iff.mp found
        obtain ⟨⟨length, afterLength⟩, lengthRead, made⟩ := Option.bind_eq_some_iff.mp found
        cases made
        have lengthBound := readLength?_bound lengthRead
        obtain ⟨⟨field, remaining⟩, cut, same⟩ := Option.map_eq_some_iff.mp offsetRead
        obtain ⟨rfl, fieldLength⟩ := Bytes.split?_eq_some.mp cut
        cases same
        rw [Part.reach, Sequence.size, minimumMatch]
        rw [List.length_append, fieldLength] at literalsBound
        simp only at lengthBound ⊢
        omega

theorem readParts?_bound {fuel : Nat} {bytes : Bytes} {block : Block}
    (found : readParts? fuel bytes = some block) : block.size ≤ 255 * bytes.length := by
  induction fuel generalizing bytes block with
  | zero => cases found
  | succ fuel ih =>
      unfold readParts? at found
      split at found
      · cases found
      · next literals part =>
          cases found
          have bound := readPart?_bound part
          rw [Part.reach] at bound
          simpa [Block.size, sequencesSize] using bound
      · next sequence rest part =>
          obtain ⟨inner, step, rfl⟩ := Option.map_eq_some_iff.mp found
          have partBound := readPart?_bound part
          have innerBound := ih step
          rw [Part.reach] at partBound
          rw [Block.size] at innerBound ⊢
          simp only [sequencesSize]
          omega

@[simp] theorem size_copyBack (offset length : Nat) (output : Array UInt8) :
    (copyBack offset length output).size = output.size + length := by
  induction length generalizing output with
  | zero => rfl
  | succ length ih =>
      rw [copyBack, ih, Array.size_push]
      omega

theorem size_expandSequence? {limit : Nat} {output expanded : Array UInt8} {sequence : Sequence}
    (step : expandSequence? limit output sequence = some expanded) :
    expanded.size = output.size + sequence.size := by
  unfold expandSequence? at step
  simp only at step
  split at step
  · cases step
    simp only [size_copyBack, Array.size_append, List.size_toArray, Sequence.size, Nat.add_assoc]
  · cases step

theorem size_foldlM_expandSequence? {limit : Nat} {sequences : List Sequence}
    {output expanded : Array UInt8}
    (run : sequences.foldlM (expandSequence? limit) output = some expanded) :
    expanded.size = output.size + sequencesSize sequences := by
  induction sequences generalizing output with
  | nil =>
      cases run
      rfl
  | cons sequence sequences ih =>
      rw [List.foldlM_cons] at run
      obtain ⟨between, step, rest⟩ := Option.bind_eq_some_iff.mp run
      have sizes := ih rest
      rw [size_expandSequence? step] at sizes
      rw [sizes, sequencesSize, Nat.add_assoc]

theorem Block.length_expand? {limit : Nat} {block : Block} {contents : Bytes}
    (expanded : block.expand? limit = some contents) : contents.length = block.size := by
  obtain ⟨output, into, rfl⟩ := Option.map_eq_some_iff.mp expanded
  unfold Block.expandInto? at into
  obtain ⟨between, run, finish⟩ := Option.bind_eq_some_iff.mp into
  have sizes := size_foldlM_expandSequence? run
  split at finish
  · cases finish
    simp [sizes, Block.size]
  · cases finish

/-- What a block decodes to is at most 255 times as long as the block. -/
theorem length_decodeBlock?_le {limit : Nat} {bytes contents : Bytes}
    (decoded : decodeBlock? limit bytes = some contents) :
    contents.length ≤ 255 * bytes.length := by
  obtain ⟨block, read, expanded⟩ := Option.bind_eq_some_iff.mp decoded
  rw [Block.length_expand? expanded]
  exact readParts?_bound read

end Lz4
end GameArchive
