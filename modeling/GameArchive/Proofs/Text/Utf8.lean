import GameArchive.Text.Utf8

/-!
# Reading UTF-8 back

Every text is read back from its UTF-8 form.  A lead byte tells the number of tail bytes and
bounds the first of them, and the bounds hold for the form of every character: it is the shortest
one, no surrogate, and not beyond the last character.
-/

namespace GameArchive
namespace Utf8

/-- A tail byte within the bounds adds its six bits. -/
theorem readTails_cons {count value width bits : Nat} {low high : UInt8} (rest : Bytes)
    (above : low.toNat ≤ bits + 0x80) (below : bits + 0x80 ≤ high.toNat) (small : bits < 64) :
    readTails (count + 1) low high value width (UInt8.ofNat (bits + 0x80) :: rest) =
      readTails count 0x80 0xBF (value * 64 + bits) (width + 1) rest := by
  have number : (UInt8.ofNat (bits + 0x80)).toNat = bits + 0x80 :=
    UInt8.toNat_ofNat_of_lt' (by simp only [UInt8.size]; omega)
  have tail : tailBits (UInt8.ofNat (bits + 0x80)) = bits := by
    rw [tailBits, number]
    omega
  rw [readTails, if_pos, tail]
  rw [UInt8.le_iff_toNat_le, UInt8.le_iff_toNat_le, number]
  exact ⟨above, below⟩

theorem leadClass_ofNat {number : Nat} (small : number < 256) :
    leadClass (UInt8.ofNat number) =
      if 0xC2 ≤ number ∧ number ≤ 0xDF then some (1, 0x80, 0xBF)
      else if number = 0xE0 then some (2, 0xA0, 0xBF)
      else if number = 0xED then some (2, 0x80, 0x9F)
      else if 0xE1 ≤ number ∧ number ≤ 0xEF then some (2, 0x80, 0xBF)
      else if number = 0xF0 then some (3, 0x90, 0xBF)
      else if 0xF1 ≤ number ∧ number ≤ 0xF3 then some (3, 0x80, 0xBF)
      else if number = 0xF4 then some (3, 0x80, 0x8F)
      else none := by
  unfold leadClass
  simp only [UInt8.le_iff_toNat_le, ← UInt8.toNat_inj, UInt8.toNat_ofNat_of_lt' small]
  rfl

/-- A lead byte of three bytes leaves room for the first tail byte. -/
theorem leadClass_three (high middle : Nat) (small : high < 16) (middleSmall : middle < 64)
    (shortest : high = 0 → 32 ≤ middle) (noSurrogate : high = 13 → middle < 32) :
    ∃ first last : UInt8, leadClass (UInt8.ofNat (high + 0xE0)) = some (2, first, last) ∧
      first.toNat ≤ middle + 0x80 ∧ middle + 0x80 ≤ last.toNat := by
  rw [leadClass_ofNat (by omega), if_neg (by omega)]
  by_cases least : high = 0
  · rw [if_pos (by omega)]
    have := shortest least
    refine ⟨_, _, rfl, ?_, ?_⟩
    · change 0xA0 ≤ middle + 0x80
      omega
    · change middle + 0x80 ≤ 0xBF
      omega
  · rw [if_neg (by omega)]
    by_cases surrogate : high = 13
    · rw [if_pos (by omega)]
      have := noSurrogate surrogate
      refine ⟨_, _, rfl, ?_, ?_⟩
      · change 0x80 ≤ middle + 0x80
        omega
      · change middle + 0x80 ≤ 0x9F
        omega
    · rw [if_neg (by omega), if_pos (by omega)]
      refine ⟨_, _, rfl, ?_, ?_⟩
      · change 0x80 ≤ middle + 0x80
        omega
      · change middle + 0x80 ≤ 0xBF
        omega

theorem leadClass_four (high middle : Nat) (small : high < 5) (middleSmall : middle < 64)
    (shortest : high = 0 → 16 ≤ middle) (last : high = 4 → middle < 16) :
    ∃ first last : UInt8, leadClass (UInt8.ofNat (high + 0xF0)) = some (3, first, last) ∧
      first.toNat ≤ middle + 0x80 ∧ middle + 0x80 ≤ last.toNat := by
  rw [leadClass_ofNat (by omega), if_neg (by omega), if_neg (by omega), if_neg (by omega),
    if_neg (by omega)]
  by_cases least : high = 0
  · rw [if_pos (by omega)]
    have := shortest least
    refine ⟨_, _, rfl, ?_, ?_⟩
    · change 0x90 ≤ middle + 0x80
      omega
    · change middle + 0x80 ≤ 0xBF
      omega
  · rw [if_neg (by omega)]
    by_cases greatest : high = 4
    · rw [if_neg (by omega), if_pos (by omega)]
      have := last greatest
      refine ⟨_, _, rfl, ?_, ?_⟩
      · change 0x80 ≤ middle + 0x80
        omega
      · change middle + 0x80 ≤ 0x8F
        omega
    · rw [if_pos (by omega)]
      refine ⟨_, _, rfl, ?_, ?_⟩
      · change 0x80 ≤ middle + 0x80
        omega
      · change middle + 0x80 ≤ 0xBF
        omega

/-- A lead byte beyond ASCII hands on its bits to the tail bytes. -/
theorem nextCharacter_of_leadClass (bits : Nat) {number count : Nat} {low high : UInt8}
    {tails : Bytes} (beyond : 0x80 ≤ number) (small : number < 256)
    (classOf : leadClass (UInt8.ofNat number) = some (count, low, high))
    (payload : number % (1 <<< (6 - count)) = bits) :
    nextCharacter (UInt8.ofNat number) tails = readTails count low high bits 1 tails := by
  have toNat : (UInt8.ofNat number).toNat = number := UInt8.toNat_ofNat_of_lt' small
  have notAscii : ¬ UInt8.ofNat number < 0x80 := by
    rw [UInt8.lt_iff_toNat_lt, toNat]
    exact Nat.not_lt.mpr beyond
  rw [nextCharacter, if_neg notAscii, classOf]
  simp only
  rw [leadBits, toNat, payload]

theorem decodeCharacters_skip (tails rest : Bytes) :
    decodeCharacters tails.length (tails ++ rest) = decodeCharacters 0 rest := by
  induction tails with
  | nil => rfl
  | cons tail tails ih => exact ih

/-- The next character at the bytes of a character is that one, and takes all of them. -/
theorem nextCharacter_utf8EncodeChar (character : Char) :
    ∃ lead tails, String.utf8EncodeChar character = lead :: tails ∧ ∀ rest,
      nextCharacter lead (tails ++ rest) = .character character (tails.length + 1) := by
  have same : Char.ofNat character.val.toNat = character := Char.ofNat_toNat character
  have valid : character.val.toNat < 0xD800 ∨
      0xDFFF < character.val.toNat ∧ character.val.toNat < 0x110000 := character.valid
  unfold String.utf8EncodeChar
  simp only
  generalize character.val.toNat = number at same valid
  by_cases oneByte : number ≤ 0x7F
  · rw [if_pos oneByte]
    have toNat : (UInt8.ofNat number).toNat = number :=
      UInt8.toNat_ofNat_of_lt' (by simp only [UInt8.size]; omega)
    have ascii : UInt8.ofNat number < 0x80 := by
      rw [UInt8.lt_iff_toNat_lt, toNat]
      exact Nat.lt_succ_of_le oneByte
    refine ⟨_, _, rfl, fun rest => ?_⟩
    rw [nextCharacter, if_pos ascii, toNat, same]
    rfl
  rw [if_neg oneByte]
  by_cases twoBytes : number ≤ 0x7FF
  · rw [if_pos twoBytes]
    refine ⟨_, _, rfl, fun rest => ?_⟩
    have classOf : leadClass (UInt8.ofNat (number / 64 % 0x20 + 0xC0)) = some (1, 0x80, 0xBF) := by
      rw [leadClass_ofNat (by omega), if_pos (by omega)]
    have value : number / 64 * 64 + number % 0x40 = number := by omega
    rw [nextCharacter_of_leadClass (number / 64) (by omega) (by omega) classOf
        (by change _ % 32 = _; omega),
      List.singleton_append, readTails_cons rest (by change 0x80 ≤ _; omega)
        (by change _ ≤ 0xBF; omega) (by omega), readTails, value, same]
    rfl
  rw [if_neg twoBytes]
  by_cases threeBytes : number ≤ 0xFFFF
  · rw [if_pos threeBytes]
    refine ⟨_, _, rfl, fun rest => ?_⟩
    obtain ⟨low, high, classOf, above, below⟩ :=
      leadClass_three (number / 4096 % 0x10) (number / 64 % 0x40) (by omega) (by omega)
        (by omega) (by omega)
    have value : (number / 4096 * 64 + number / 64 % 0x40) * 64 + number % 0x40 = number := by
      omega
    rw [nextCharacter_of_leadClass (number / 4096) (by omega) (by omega) classOf
        (by change _ % 16 = _; omega),
      List.cons_append, readTails_cons _ above below (by omega),
      List.singleton_append, readTails_cons rest (by change 0x80 ≤ _; omega)
        (by change _ ≤ 0xBF; omega) (by omega), readTails, value, same]
    rfl
  · rw [if_neg threeBytes]
    refine ⟨_, _, rfl, fun rest => ?_⟩
    obtain ⟨low, high, classOf, above, below⟩ :=
      leadClass_four (number / 262144 % 0x08) (number / 4096 % 0x40) (by omega) (by omega)
        (by omega) (by omega)
    have value : ((number / 262144 * 64 + number / 4096 % 0x40) * 64 + number / 64 % 0x40) * 64 +
        number % 0x40 = number := by
      omega
    rw [nextCharacter_of_leadClass (number / 262144) (by omega) (by omega) classOf
        (by change _ % 8 = _; omega),
      List.cons_append, readTails_cons _ above below (by omega),
      List.cons_append, readTails_cons _ (by change 0x80 ≤ _; omega) (by change _ ≤ 0xBF; omega)
        (by omega),
      List.singleton_append, readTails_cons rest (by change 0x80 ≤ _; omega)
        (by change _ ≤ 0xBF; omega) (by omega), readTails, value, same]
    rfl

theorem decodeCharacters_utf8EncodeChar (character : Char) (rest : Bytes) :
    decodeCharacters 0 (String.utf8EncodeChar character ++ rest) =
      character :: decodeCharacters 0 rest := by
  obtain ⟨lead, tails, encoded, next⟩ := nextCharacter_utf8EncodeChar character
  rw [encoded, List.cons_append, decodeCharacters, next]
  exact congrArg (character :: ·) (decodeCharacters_skip tails rest)

theorem decodeCharacters_encode (text : String) (rest : Bytes) :
    decodeCharacters 0 (encode text ++ rest) = text.toList ++ decodeCharacters 0 rest := by
  unfold encode
  induction text.toList with
  | nil => rfl
  | cons character characters ih =>
      rw [List.flatMap_cons, List.append_assoc, decodeCharacters_utf8EncodeChar, ih,
        List.cons_append]

/-- A text is read back from its UTF-8 form. -/
theorem decodeReplacing_encode (text : String) : decodeReplacing (encode text) = text := by
  have characters := decodeCharacters_encode text []
  rw [List.append_nil, decodeCharacters, List.append_nil] at characters
  rw [decodeReplacing, characters, String.ofList_toList]

theorem decodeCharacters_zeros (count : Nat) :
    decodeCharacters 0 (Bytes.zeros count) = List.replicate count '\x00' := by
  induction count with
  | zero => rfl
  | succ count ih =>
      rw [Bytes.zeros, List.replicate_succ, List.replicate_succ, ← ih]
      rfl

end Utf8
end GameArchive
