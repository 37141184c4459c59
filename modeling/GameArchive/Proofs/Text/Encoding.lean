import GameArchive.Text.Encoding

/-!
# Encoded names

A directory finds the end of a name at a zero byte.  The encodings write one only for the zero
character, and write every character by one byte at least.
-/

namespace GameArchive

theorem ofNat_ne_zero {number : Nat} (positive : 0 < number) (small : number < 256) :
    UInt8.ofNat number ≠ 0 := by
  intro zero
  have same := congrArg UInt8.toNat zero
  rw [UInt8.toNat_ofNat_of_lt' small] at same
  change number = 0 at same
  omega

theorem toNat_pos_of_ne_zero {character : Char} (notZero : character ≠ '\x00') :
    0 < character.val.toNat := by
  rcases Nat.eq_zero_or_pos character.val.toNat with zero | positive
  · exact absurd (Char.ext (UInt32.toNat_inj.mp zero)) notZero
  · exact positive

/-- UTF-8 has a zero byte for the zero character only. -/
theorem utf8EncodeChar_nonzero {character : Char} (notZero : character ≠ '\x00') :
    ∀ byte ∈ String.utf8EncodeChar character, byte ≠ 0 := by
  have positive := toNat_pos_of_ne_zero notZero
  intro byte member
  unfold String.utf8EncodeChar at member
  simp only at member
  split at member
  · rw [List.mem_singleton.mp member]
    exact ofNat_ne_zero positive (by omega)
  · split at member
    · simp only [List.mem_cons, List.not_mem_nil, or_false] at member
      rcases member with rfl | rfl
      · exact ofNat_ne_zero (by omega) (by omega)
      · exact ofNat_ne_zero (by omega) (by omega)
    · split at member
      · simp only [List.mem_cons, List.not_mem_nil, or_false] at member
        rcases member with rfl | rfl | rfl
        · exact ofNat_ne_zero (by omega) (by omega)
        · exact ofNat_ne_zero (by omega) (by omega)
        · exact ofNat_ne_zero (by omega) (by omega)
      · simp only [List.mem_cons, List.not_mem_nil, or_false] at member
        rcases member with rfl | rfl | rfl | rfl
        · exact ofNat_ne_zero (by omega) (by omega)
        · exact ofNat_ne_zero (by omega) (by omega)
        · exact ofNat_ne_zero (by omega) (by omega)
        · exact ofNat_ne_zero (by omega) (by omega)

namespace Windows1252

theorem byteOf?_nonzero {character : Char} {byte : UInt8} (notZero : character ≠ '\x00')
    (found : byteOf? character = some byte) : byte ≠ 0 := by
  have positive := toNat_pos_of_ne_zero notZero
  unfold byteOf? at found
  simp only at found
  split at found
  · next direct =>
      rw [← Option.some.inj found]
      exact ofNat_ne_zero positive (by omega)
  · obtain ⟨index, position, rfl⟩ := Option.map_eq_some_iff.mp found
    have bound : index < upperControls.length :=
      (List.findIdx?_eq_some_iff_findIdx_eq.mp position).1
    have length : upperControls.length = 32 := rfl
    exact ofNat_ne_zero (by omega) (by omega)

theorem reference_nonzero (character : Char) : ∀ byte ∈ reference character, byte ≠ 0 := by
  intro byte member
  obtain ⟨written, among, encoded⟩ := List.mem_flatMap.mp member
  refine utf8EncodeChar_nonzero ?_ byte encoded
  rintro rfl
  rcases List.mem_append.mp among with front | semicolon
  · rcases List.mem_append.mp front with opening | digits
    · exact absurd opening (by decide)
    · rw [Nat.toList_repr] at digits
      have digit := Nat.isDigit_of_mem_toDigits (by decide) (by decide) digits
      exact absurd digit (by decide)
  · exact absurd semicolon (by decide)

theorem encodeCharacter_nonzero {character : Char} (notZero : character ≠ '\x00') :
    ∀ byte ∈ encodeCharacter character, byte ≠ 0 := by
  unfold encodeCharacter
  cases found : byteOf? character with
  | none => exact reference_nonzero character
  | some byte =>
      intro other member
      rw [List.mem_singleton.mp member]
      exact byteOf?_nonzero notZero found

theorem encodeCharacter_ne_nil (character : Char) : encodeCharacter character ≠ [] := by
  unfold encodeCharacter reference
  cases byteOf? character with
  | none => simp
  | some byte => simp

end Windows1252

namespace Encoding

/-- A name without the zero character is encoded without a zero byte. -/
theorem encode_nonzero (encoding : Encoding) {text : String}
    (noZero : '\x00' ∉ text.toList) : ∀ byte ∈ encoding.encode text, byte ≠ 0 := by
  intro byte member
  cases encoding with
  | utf8 =>
      obtain ⟨character, among, written⟩ := List.mem_flatMap.mp member
      refine utf8EncodeChar_nonzero ?_ byte written
      rintro rfl
      exact noZero among
  | windows1252 =>
      obtain ⟨character, among, written⟩ := List.mem_flatMap.mp member
      refine Windows1252.encodeCharacter_nonzero ?_ byte written
      rintro rfl
      exact noZero among

theorem encode_ne_nil (encoding : Encoding) {text : String} (notEmpty : text ≠ "") :
    encoding.encode text ≠ [] := by
  cases characters : text.toList with
  | nil => exact absurd (String.toList_eq_nil_iff.mp characters) notEmpty
  | cons character rest =>
      cases encoding with
      | utf8 =>
          rw [encode, Utf8.encode, characters, List.flatMap_cons]
          simp [String.utf8EncodeChar_ne_nil]
      | windows1252 =>
          rw [encode, Windows1252.encode, characters, List.flatMap_cons]
          simp [Windows1252.encodeCharacter_ne_nil]

end Encoding
end GameArchive
