import GameArchive.Proofs.Outcome
import GameArchive.Proofs.Text.Utf8

/-!
# Only the form of a text is UTF-8

The bytes that decode to a text are the ones it is written with, and no others: the bounds on the
first tail byte leave one form for every character.  So a reader that refuses malformed bytes
accepts exactly the forms of texts, each for one text.
-/

namespace GameArchive
namespace Utf8

/-- A number that is no surrogate and not beyond the last character is the number of one. -/
theorem toNat_ofNat {number : Nat}
    (valid : number < 0xD800 ∨ 0xDFFF < number ∧ number < 0x110000) :
    (Char.ofNat number).val.toNat = number := by
  rw [Char.ofNat, dif_pos valid]
  rfl

theorem utf8EncodeChar_one {number : Nat} (small : number < 0x80) :
    String.utf8EncodeChar (Char.ofNat number) = [UInt8.ofNat number] := by
  unfold String.utf8EncodeChar
  simp only
  rw [toNat_ofNat (by omega), if_pos (by omega)]

theorem utf8EncodeChar_two {high low : Nat} (lowSmall : low < 64) (highSmall : high < 32)
    (shortest : 2 ≤ high) :
    String.utf8EncodeChar (Char.ofNat (high * 64 + low)) =
      [UInt8.ofNat (high + 0xC0), UInt8.ofNat (low + 0x80)] := by
  unfold String.utf8EncodeChar
  simp only
  rw [toNat_ofNat (by omega), if_neg (by omega), if_pos (by omega)]
  have lead : (high * 64 + low) / 64 % 0x20 = high := by omega
  have tail : (high * 64 + low) % 0x40 = low := by omega
  rw [lead, tail]

theorem utf8EncodeChar_three {high middle low : Nat} (lowSmall : low < 64)
    (middleSmall : middle < 64) (highSmall : high < 16) (shortest : high = 0 → 32 ≤ middle)
    (noSurrogate : high = 13 → middle < 32) :
    String.utf8EncodeChar (Char.ofNat ((high * 64 + middle) * 64 + low)) =
      [UInt8.ofNat (high + 0xE0), UInt8.ofNat (middle + 0x80), UInt8.ofNat (low + 0x80)] := by
  unfold String.utf8EncodeChar
  simp only
  rw [toNat_ofNat (by omega), if_neg (by omega), if_neg (by omega), if_pos (by omega)]
  have lead : ((high * 64 + middle) * 64 + low) / 4096 % 0x10 = high := by omega
  have first : ((high * 64 + middle) * 64 + low) / 64 % 0x40 = middle := by omega
  have second : ((high * 64 + middle) * 64 + low) % 0x40 = low := by omega
  rw [lead, first, second]

theorem utf8EncodeChar_four {high upper lower low : Nat} (lowSmall : low < 64)
    (lowerSmall : lower < 64) (upperSmall : upper < 64) (highSmall : high < 5)
    (shortest : high = 0 → 16 ≤ upper) (last : high = 4 → upper < 16) :
    String.utf8EncodeChar (Char.ofNat (((high * 64 + upper) * 64 + lower) * 64 + low)) =
      [UInt8.ofNat (high + 0xF0), UInt8.ofNat (upper + 0x80), UInt8.ofNat (lower + 0x80),
        UInt8.ofNat (low + 0x80)] := by
  unfold String.utf8EncodeChar
  simp only
  rw [toNat_ofNat (by omega), if_neg (by omega), if_neg (by omega), if_neg (by omega)]
  have lead : (((high * 64 + upper) * 64 + lower) * 64 + low) / 262144 % 0x08 = high := by omega
  have first : (((high * 64 + upper) * 64 + lower) * 64 + low) / 4096 % 0x40 = upper := by omega
  have second : (((high * 64 + upper) * 64 + lower) * 64 + low) / 64 % 0x40 = lower := by omega
  have third : (((high * 64 + upper) * 64 + lower) * 64 + low) % 0x40 = low := by omega
  rw [lead, first, second, third]

/-- A tail byte that was read stands within its bounds and gives its six bits. -/
theorem readTails_eq_character {count value width total : Nat} {low high : UInt8}
    {bytes : Bytes} {character : Char} (tailLow : 0x80 ≤ low.toNat) (tailHigh : high.toNat ≤ 0xBF)
    (read : readTails (count + 1) low high value width bytes = .character character total) :
    ∃ bits rest, bytes = UInt8.ofNat (bits + 0x80) :: rest ∧ bits < 64 ∧
      low.toNat ≤ bits + 0x80 ∧ bits + 0x80 ≤ high.toNat ∧
      readTails count 0x80 0xBF (value * 64 + bits) (width + 1) rest =
        .character character total := by
  cases bytes with
  | nil => cases read
  | cons tail rest =>
      rw [readTails] at read
      split at read
      case isTrue within =>
        rw [UInt8.le_iff_toNat_le, UInt8.le_iff_toNat_le] at within
        have number : tail.toNat - 0x80 + 0x80 = tail.toNat := by omega
        have bits : tailBits tail = tail.toNat - 0x80 := by
          rw [tailBits]
          omega
        refine ⟨tail.toNat - 0x80, rest, ?_, by omega, by omega, by omega, ?_⟩
        · rw [number, UInt8.ofNat_toNat]
        · rw [← bits]
          exact read
      case isFalse => cases read

/-- What a lead byte says: the width, the bits that it carries, and the bounds on the first tail
byte, which exclude longer forms, surrogates and what lies beyond the last character. -/
inductive LeadByte : UInt8 → Nat → UInt8 → UInt8 → Prop where
  | two {bits : Nat} (shortest : 2 ≤ bits) (small : bits < 32) :
      LeadByte (UInt8.ofNat (bits + 0xC0)) 1 0x80 0xBF
  | three {bits : Nat} {low high : UInt8} (small : bits < 16) (tailLow : 0x80 ≤ low.toNat)
      (tailHigh : high.toNat ≤ 0xBF) (shortest : bits = 0 → 0xA0 ≤ low.toNat)
      (noSurrogate : bits = 13 → high.toNat ≤ 0x9F) :
      LeadByte (UInt8.ofNat (bits + 0xE0)) 2 low high
  | four {bits : Nat} {low high : UInt8} (small : bits < 5) (tailLow : 0x80 ≤ low.toNat)
      (tailHigh : high.toNat ≤ 0xBF) (shortest : bits = 0 → 0x90 ≤ low.toNat)
      (last : bits = 4 → high.toNat ≤ 0x8F) :
      LeadByte (UInt8.ofNat (bits + 0xF0)) 3 low high

theorem leadByte_of_leadClass {lead : UInt8} {count : Nat} {low high : UInt8}
    (classOf : leadClass lead = some (count, low, high)) : LeadByte lead count low high := by
  obtain ⟨number, small, rfl⟩ : ∃ number, number < 256 ∧ lead = UInt8.ofNat number :=
    ⟨lead.toNat, lead.toNat_lt, UInt8.ofNat_toNat.symm⟩
  rw [leadClass_ofNat small] at classOf
  split at classOf
  case isTrue range =>
    cases classOf
    obtain ⟨bits, rfl⟩ := Nat.exists_eq_add_of_le' range.1
    exact .two (by omega) (by omega)
  split at classOf
  case isTrue range =>
    cases classOf
    obtain ⟨bits, rfl⟩ := Nat.exists_eq_add_of_le' (Nat.le_of_eq range.symm)
    exact .three (by omega) (by decide) (by decide) (fun _ => by decide) (by omega)
  split at classOf
  case isTrue range =>
    cases classOf
    obtain ⟨bits, rfl⟩ := Nat.exists_eq_add_of_le' (show 0xE0 ≤ number by omega)
    exact .three (by omega) (by decide) (by decide) (by omega) (fun _ => by decide)
  split at classOf
  case isTrue range =>
    cases classOf
    obtain ⟨bits, rfl⟩ := Nat.exists_eq_add_of_le' (show 0xE0 ≤ number by omega)
    exact .three (by omega) (by decide) (by decide) (by omega) (by omega)
  split at classOf
  case isTrue range =>
    cases classOf
    obtain ⟨bits, rfl⟩ := Nat.exists_eq_add_of_le' (Nat.le_of_eq range.symm)
    exact .four (by omega) (by decide) (by decide) (fun _ => by decide) (by omega)
  split at classOf
  case isTrue range =>
    cases classOf
    obtain ⟨bits, rfl⟩ := Nat.exists_eq_add_of_le' (show 0xF0 ≤ number by omega)
    exact .four (by omega) (by decide) (by decide) (by omega) (by omega)
  split at classOf
  case isTrue range =>
    cases classOf
    obtain ⟨bits, rfl⟩ := Nat.exists_eq_add_of_le' (show 0xF0 ≤ number by omega)
    exact .four (by omega) (by decide) (by decide) (by omega) (fun _ => by decide)
  case isFalse => cases classOf

theorem leadBits_ofNat {bits base count : Nat} (small : bits + base < 256)
    (payload : (bits + base) % (1 <<< (6 - count)) = bits) :
    leadBits (UInt8.ofNat (bits + base)) count = bits := by
  rw [leadBits, UInt8.toNat_ofNat_of_lt' small, payload]

/-- A character that was read is the one whose bytes stand there. -/
theorem nextCharacter_eq_character {lead : UInt8} {bytes : Bytes} {character : Char}
    {width : Nat} (next : nextCharacter lead bytes = .character character width) :
    ∃ tails rest, bytes = tails ++ rest ∧ String.utf8EncodeChar character = lead :: tails ∧
      width = tails.length + 1 := by
  rw [nextCharacter] at next
  split at next
  case isTrue ascii =>
    cases next
    refine ⟨[], bytes, rfl, ?_, rfl⟩
    rw [utf8EncodeChar_one (UInt8.lt_iff_toNat_lt.mp ascii), UInt8.ofNat_toNat]
  case isFalse =>
    split at next
    case h_1 => cases next
    case h_2 count low high classOf =>
      cases leadByte_of_leadClass classOf with
      | two shortest small =>
          obtain ⟨low, rest, rfl, lowSmall, -, -, read⟩ :=
            readTails_eq_character (by decide) (by decide) next
          rw [leadBits_ofNat (by omega) (by change _ % 32 = _; omega)] at read
          cases read
          exact ⟨[_], rest, rfl, utf8EncodeChar_two lowSmall small shortest, rfl⟩
      | three small tailLow tailHigh shortest noSurrogate =>
          obtain ⟨middle, _, rfl, middleSmall, above, below, next⟩ :=
            readTails_eq_character tailLow tailHigh next
          obtain ⟨low, rest, rfl, lowSmall, -, -, read⟩ :=
            readTails_eq_character (by decide) (by decide) next
          rw [leadBits_ofNat (by omega) (by change _ % 16 = _; omega)] at read
          cases read
          exact ⟨[_, _], rest, rfl,
            utf8EncodeChar_three lowSmall middleSmall small (by omega) (by omega), rfl⟩
      | four small tailLow tailHigh shortest last =>
          obtain ⟨upper, _, rfl, upperSmall, above, below, next⟩ :=
            readTails_eq_character tailLow tailHigh next
          obtain ⟨lower, _, rfl, lowerSmall, -, -, next⟩ :=
            readTails_eq_character (by decide) (by decide) next
          obtain ⟨low, rest, rfl, lowSmall, -, -, read⟩ :=
            readTails_eq_character (by decide) (by decide) next
          rw [leadBits_ofNat (by omega) (by change _ % 8 = _; omega)] at read
          cases read
          exact ⟨[_, _, _], rest, rfl,
            utf8EncodeChar_four lowSmall lowerSmall upperSmall small (by omega) (by omega), rfl⟩

theorem decodeChecked_skip (tails rest : Bytes) (position : Nat) :
    decodeChecked tails.length position (tails ++ rest) =
      decodeChecked 0 (position + tails.length) rest := by
  induction tails generalizing position with
  | nil => rfl
  | cons tail tails ih =>
      rw [List.length_cons, List.cons_append, decodeChecked, ih]
      congr 1
      omega

/-- One character of a text that was read without a fault. -/
theorem decodeChecked_cons_eq_ok {lead : UInt8} {bytes : Bytes} {position : Nat}
    {characters : List Char} (decoded : decodeChecked 0 position (lead :: bytes) = .ok characters) :
    ∃ character others rest, characters = character :: others ∧
      lead :: bytes = String.utf8EncodeChar character ++ rest ∧
      decodeChecked 0 (position + (String.utf8EncodeChar character).length) rest = .ok others := by
  rw [decodeChecked] at decoded
  split at decoded
  case h_1 character width next =>
    obtain ⟨tails, rest, rfl, encoded, rfl⟩ := nextCharacter_eq_character next
    obtain ⟨others, read, rfl⟩ := Outcome.map_eq_ok_iff.mp decoded
    refine ⟨character, others, rest, rfl, ?_, ?_⟩
    · rw [encoded, List.cons_append]
    · rw [Nat.add_sub_cancel, decodeChecked_skip] at read
      rw [encoded, List.length_cons, ← read]
      congr 1
      omega
  case h_2 => cases decoded
  case h_3 => cases decoded

theorem decodeChecked_utf8EncodeChar (character : Char) (rest : Bytes) (position : Nat) :
    decodeChecked 0 position (String.utf8EncodeChar character ++ rest) =
      (decodeChecked 0 (position + (String.utf8EncodeChar character).length) rest).map
        (character :: ·) := by
  obtain ⟨lead, tails, encoded, next⟩ := nextCharacter_utf8EncodeChar character
  rw [encoded, List.cons_append, decodeChecked, next]
  simp only [Nat.add_sub_cancel]
  rw [decodeChecked_skip, List.length_cons, Nat.add_assoc, Nat.add_comm 1]

theorem decodeChecked_eq_ok_iff {bytes : Bytes} {position : Nat} {characters : List Char} :
    decodeChecked 0 position bytes = .ok characters ↔
      bytes = characters.flatMap String.utf8EncodeChar := by
  induction characters generalizing bytes position with
  | nil =>
      constructor
      · intro decoded
        cases bytes with
        | nil => rfl
        | cons lead bytes =>
            obtain ⟨_, _, _, impossible, -⟩ := decodeChecked_cons_eq_ok decoded
            cases impossible
      · rintro rfl
        rfl
  | cons character characters ih =>
      constructor
      · intro decoded
        cases bytes with
        | nil => cases decoded
        | cons lead bytes =>
            obtain ⟨_, _, rest, equal, encoded, read⟩ := decodeChecked_cons_eq_ok decoded
            cases equal
            rw [encoded, ih.mp read, List.flatMap_cons]
      · rintro rfl
        rw [List.flatMap_cons, decodeChecked_utf8EncodeChar, ih.mpr rfl]
        rfl

/-- The bytes of a text are its own form, and no other bytes are. -/
theorem decode_eq_ok_iff {bytes : Bytes} {text : String} :
    decode bytes = .ok text ↔ bytes = encode text := by
  rw [decode, Outcome.map_eq_ok_iff, encode]
  constructor
  · rintro ⟨characters, decoded, rfl⟩
    rw [String.toList_ofList]
    exact decodeChecked_eq_ok_iff.mp decoded
  · intro encoded
    exact ⟨text.toList, decodeChecked_eq_ok_iff.mpr encoded, String.ofList_toList⟩

theorem decode_encode (text : String) : decode (encode text) = .ok text :=
  decode_eq_ok_iff.mpr rfl

theorem encode_injective {first second : String} (equal : encode first = encode second) :
    first = second := by
  have decoded := decode_encode first
  rw [equal, decode_encode] at decoded
  exact (Except.ok.inj decoded).symm

end Utf8
end GameArchive
