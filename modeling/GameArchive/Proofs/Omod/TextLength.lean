import GameArchive.Omod.Format
import GameArchive.Proofs.Outcome
import GameArchive.Proofs.Text.CanonicalUtf8
import Mathlib.Tactic.IntervalCases
import Mathlib.Tactic.Ring

/-!
# Lengths of texts

The length of a text takes seven bits to a byte, and all its bytes but the last have the eighth bit
set.  A reader takes five bytes at most and keeps 32 bits of what they say.  Four bytes hold 28
bits, so that there is room for four of the seven bits of a fifth byte, and the reader drops the
other three without a word: a length of five bytes is taken modulo the size of a word, while one of
six bytes is refused, however small it is.
-/

namespace GameArchive
namespace Omod

/-- The number that is written seven bits to a byte, lowest first. -/
def sevenBitValue : Bytes → Nat
  | [] => 0
  | byte :: rest => byte.toNat % 0x80 + 0x80 * sevenBitValue rest

theorem sevenBitValue_lt (bytes : Bytes) : sevenBitValue bytes < 1 <<< (7 * bytes.length) := by
  induction bytes with
  | nil => decide
  | cons byte rest ih =>
      rw [sevenBitValue, List.length_cons, Nat.mul_succ, Nat.shiftLeft_add]
      simp only [Nat.shiftLeft_eq] at ih ⊢
      omega

theorem sevenBitValue_append (front rest : Bytes) :
    sevenBitValue (front ++ rest) =
      sevenBitValue front + sevenBitValue rest <<< (7 * front.length) := by
  induction front with
  | nil => simp [sevenBitValue]
  | cons byte front ih =>
      rw [List.cons_append, sevenBitValue, sevenBitValue, ih, List.length_cons, Nat.mul_succ,
        Nat.shiftLeft_add]
      simp only [Nat.shiftLeft_eq]
      omega

/-- A length as it is written: of its bytes only the last has the highest bit clear. -/
structure WrittenLength where
  front : Bytes
  last : UInt8
  continued : ∀ byte ∈ front, 0x80 ≤ byte.toNat
  ended : last.toNat < 0x80

namespace WrittenLength

def bytes (written : WrittenLength) : Bytes :=
  written.front ++ [written.last]

def value (written : WrittenLength) : Nat :=
  sevenBitValue written.bytes

@[simp] theorem length_bytes (written : WrittenLength) :
    written.bytes.length = written.front.length + 1 := by
  simp [bytes]

/-- Of five bytes at most, only a fifth byte can say more than a word holds. -/
theorem size_le_value_iff {written : WrittenLength} (short : written.bytes.length ≤ 5) :
    UInt32.size ≤ written.value ↔ written.bytes.length = 5 ∧ 0x10 ≤ written.last.toNat := by
  have low := sevenBitValue_lt written.front
  have ended := written.ended
  rw [length_bytes] at short ⊢
  have valueEq : written.value =
      sevenBitValue written.front + written.last.toNat <<< (7 * written.front.length) := by
    rw [value, bytes, sevenBitValue_append]
    simp [sevenBitValue, Nat.mod_eq_of_lt ended]
  rw [valueEq]
  generalize sevenBitValue written.front = front at low
  generalize written.front.length = count at short low
  have few : count ≤ 4 := Nat.le_of_succ_le_succ short
  change 4294967296 ≤ _ ↔ _
  interval_cases count <;>
    simp only [Nat.shiftLeft_eq, Nat.reduceMul, Nat.reducePow, true_and] at low ⊢ <;> omega

end WrittenLength

/-- Bytes begin with a length, unless the highest bit is set in all of them. -/
theorem exists_writtenLength (bytes : Bytes) :
    (∀ byte ∈ bytes, 0x80 ≤ byte.toNat) ∨
      ∃ (written : WrittenLength) (behind : Bytes), bytes = written.bytes ++ behind := by
  induction bytes with
  | nil => exact .inl nofun
  | cons byte rest ih =>
      by_cases ended : byte.toNat < 0x80
      · exact .inr ⟨⟨[], byte, nofun, ended⟩, rest, rfl⟩
      · have high : 0x80 ≤ byte.toNat := Nat.le_of_not_lt ended
        rcases ih with continued | ⟨written, behind, rfl⟩
        · exact .inl (List.forall_mem_cons.mpr ⟨high, continued⟩)
        · exact .inr ⟨⟨byte :: written.front, written.last,
            List.forall_mem_cons.mpr ⟨high, written.continued⟩, written.ended⟩, behind, rfl⟩

section Reading

variable {shift : Nat} {length : UInt32}

theorem highBit_eq_zero_iff (byte : UInt8) : byte &&& 0x80 = 0 ↔ byte.toNat < 0x80 :=
  Bytes.forall_byte (by decide +kernel) byte

theorem highBit_ne_zero {byte : UInt8} (high : 0x80 ≤ byte.toNat) : ¬ byte &&& 0x80 = 0 :=
  mt (highBit_eq_zero_iff byte).mp (Nat.not_lt_of_le high)

theorem toNat_or_shiftLeft (byte : UInt8) (room : shift ≤ maximumShift)
    (small : length.toNat < 1 <<< shift) :
    (length ||| ((byte &&& 0x7F).toUInt32 <<< UInt32.ofNat shift)).toNat =
      (length.toNat + (byte.toNat % 0x80) <<< shift) % UInt32.size := by
  have payload : (byte &&& 0x7F).toNat = byte.toNat % 0x80 :=
    (UInt8.toNat_and ..).trans (Nat.and_two_pow_sub_one_eq_mod _ 7)
  have within : shift ≤ 28 := room
  -- What was read before stands below the shift, so the seven bits are added above it; those that
  -- do not fit into the word are lost.
  have shiftEq : (UInt32.ofNat shift).toNat = shift :=
    UInt32.toNat_ofNat_of_lt' (Nat.lt_of_le_of_lt within (by decide))
  have size : 2 ^ shift * 2 ^ (32 - shift) = UInt32.size := by
    rw [← Nat.pow_add, Nat.add_sub_cancel' (by omega)]
  rw [Nat.shiftLeft_eq, Nat.one_mul] at small
  rw [UInt32.toNat_or, UInt32.toNat_shiftLeft, UInt8.toNat_toUInt32, payload, shiftEq,
    Nat.mod_eq_of_lt (by omega : shift < 32), Nat.shiftLeft_eq]
  generalize byte.toNat % 0x80 = added
  calc
    length.toNat ||| added * 2 ^ shift % UInt32.size
    _ = length.toNat ||| 2 ^ shift * (added % 2 ^ (32 - shift)) := by
      rw [Nat.mul_comm added, ← size, Nat.mul_mod_mul_left]
    _ = length.toNat + 2 ^ shift * (added % 2 ^ (32 - shift)) := by
      rw [Nat.or_comm, ← Nat.two_pow_add_eq_or_of_lt small, Nat.add_comm]
    _ = (length.toNat + added * 2 ^ shift) % UInt32.size := by
      rw [← size, Nat.mod_mul, Nat.add_mul_mod_self_right, Nat.mod_eq_of_lt small,
        Nat.add_mul_div_right _ _ (Nat.two_pow_pos shift), Nat.div_eq_of_lt small, Nat.zero_add]

theorem readLengthFrom_of_room {front : Bytes} {last : UInt8} (rest : Bytes)
    (continued : ∀ byte ∈ front, 0x80 ≤ byte.toNat) (ended : last.toNat < 0x80)
    (room : shift + 7 * front.length ≤ maximumShift) (small : length.toNat < 1 <<< shift) :
    readLengthFrom shift length (front ++ last :: rest) =
      .ok ((length.toNat + sevenBitValue (front ++ [last]) <<< shift) % UInt32.size, rest) := by
  induction front generalizing shift length with
  | nil =>
      have atEnd := (highBit_eq_zero_iff last).mpr ended
      have whole := toNat_or_shiftLeft last (Nat.le_of_add_right_le room) small
      rw [List.nil_append, readLengthFrom, if_pos atEnd, whole]
      simp [sevenBitValue]
  | cons byte front ih =>
      obtain ⟨high, others⟩ := List.forall_mem_cons.mp continued
      rw [List.length_cons] at room
      have grown := toNat_or_shiftLeft byte (by omega) small
      -- Before the last byte everything fits, so that nothing is lost there.
      have below : length.toNat + (byte.toNat % 0x80) <<< shift < 1 <<< (shift + 7) := by
        rw [Nat.shiftLeft_add]
        simp only [Nat.shiftLeft_eq] at small ⊢
        have := Nat.mul_le_mul_right (2 ^ shift) (show byte.toNat % 0x80 ≤ 127 by omega)
        omega
      have fits : 1 <<< (shift + 7) ≤ UInt32.size := by
        rw [Nat.shiftLeft_eq, Nat.one_mul]
        exact Nat.pow_le_pow_right (by decide) (show shift + 7 ≤ 32 by change _ ≤ 28 at room; omega)
      rw [Nat.mod_eq_of_lt (Nat.lt_of_lt_of_le below fits)] at grown
      rw [List.cons_append, readLengthFrom, if_neg (highBit_ne_zero high), if_neg (by omega),
        ih others (by omega) (by rw [grown]; exact below), grown, List.cons_append, sevenBitValue]
      congr 3
      simp only [Nat.shiftLeft_eq, Nat.pow_add]
      ring

theorem readLengthFrom_of_long {front : Bytes} (rest : Bytes)
    (continued : ∀ byte ∈ front, 0x80 ≤ byte.toNat) (room : shift ≤ maximumShift)
    (long : maximumShift < shift + 7 * front.length) :
    readLengthFrom shift length (front ++ rest) = .error .longStringLength := by
  induction front generalizing shift length with
  | nil => exact absurd long (Nat.not_lt_of_le room)
  | cons byte front ih =>
      obtain ⟨high, others⟩ := List.forall_mem_cons.mp continued
      rw [List.cons_append, readLengthFrom, if_neg (highBit_ne_zero high)]
      rw [List.length_cons] at long
      by_cases beyond : maximumShift < shift + 7
      · rw [if_pos beyond]
      · rw [if_neg beyond]
        exact ih others (by omega) (by omega)

theorem readLengthFrom_of_unfinished {front : Bytes}
    (continued : ∀ byte ∈ front, 0x80 ≤ byte.toNat)
    (room : shift + 7 * front.length ≤ maximumShift) :
    readLengthFrom shift length front = .error .shortRead := by
  induction front generalizing shift length with
  | nil => rfl
  | cons byte front ih =>
      obtain ⟨high, others⟩ := List.forall_mem_cons.mp continued
      rw [List.length_cons] at room
      rw [readLengthFrom, if_neg (highBit_ne_zero high), if_neg (by omega)]
      exact ih others (by omega)

end Reading

/-- A length of five bytes at most is taken modulo the size of a word, and a longer one is
refused. -/
theorem readLengthFrom_bytes (written : WrittenLength) (rest : Bytes) :
    readLengthFrom 0 0 (written.bytes ++ rest) =
      if written.bytes.length ≤ 5 then .ok (written.value % UInt32.size, rest)
      else .error .longStringLength := by
  rw [WrittenLength.bytes, List.append_assoc, List.singleton_append]
  split
  · next short =>
      rw [← WrittenLength.bytes, WrittenLength.length_bytes] at short
      rw [readLengthFrom_of_room rest written.continued written.ended
        (by change _ ≤ 28; omega) (by decide)]
      simp [WrittenLength.value, WrittenLength.bytes]
  · next long =>
      rw [← WrittenLength.bytes, WrittenLength.length_bytes] at long
      exact readLengthFrom_of_long _ written.continued (by decide) (by change 28 < _; omega)

theorem readText_eq_ok_iff {bytes rest : Bytes} {text : String} :
    readText bytes = .ok (text, rest) ↔
      readLengthFrom 0 0 bytes =
        .ok ((Utf8.encode text).length, Utf8.encode text ++ rest) := by
  rw [readText, Outcome.bind_eq_ok_iff]
  constructor
  · rintro ⟨⟨length, behind⟩, lengthOk, taken⟩
    simp only at taken
    split at taken
    case h_1 => cases taken
    case h_2 field others cut =>
      split at taken
      case h_2 => cases taken
      case h_1 decoded =>
        cases taken
        obtain ⟨rfl, lengthEq⟩ := Bytes.split?_eq_some.mp cut
        rw [← Utf8.decode_eq_ok_iff.mp decoded, lengthEq]
        exact lengthOk
  · intro lengthOk
    refine ⟨_, lengthOk, ?_⟩
    simp only [Bytes.split?_append, Utf8.decode_encode]

theorem readText_eq_longLength_iff {bytes : Bytes} :
    readText bytes = .error .longStringLength ↔
      readLengthFrom 0 0 bytes = .error .longStringLength := by
  rw [readText, Outcome.bind_eq_error_iff]
  constructor
  · rintro (failed | ⟨⟨length, behind⟩, -, taken⟩)
    · exact failed
    · simp only at taken
      split at taken
      · cases taken
      · split at taken <;> cases taken
  · exact .inl

theorem readText_bytes_eq_ok_iff (written : WrittenLength) (behind : Bytes) (text : String)
    (rest : Bytes) :
    readText (written.bytes ++ behind) = .ok (text, rest) ↔
      written.bytes.length ≤ 5 ∧ behind = Utf8.encode text ++ rest ∧
        (Utf8.encode text).length = written.value % UInt32.size := by
  rw [readText_eq_ok_iff, readLengthFrom_bytes]
  split
  · next short =>
      simp only [Except.ok.injEq, Prod.mk.injEq, short, true_and]
      constructor
      · rintro ⟨lengthEq, rfl⟩
        exact ⟨rfl, lengthEq.symm⟩
      · rintro ⟨rfl, lengthEq⟩
        exact ⟨lengthEq.symm, rfl⟩
  · next long => exact ⟨nofun, fun given => absurd given.1 long⟩

theorem readText_bytes_eq_longLength_iff (written : WrittenLength) (behind : Bytes) :
    readText (written.bytes ++ behind) = .error .longStringLength ↔
      5 < written.bytes.length := by
  rw [readText_eq_longLength_iff, readLengthFrom_bytes]
  split
  · next short => exact ⟨nofun, fun long => absurd short (Nat.not_le_of_lt long)⟩
  · next long => exact iff_of_true rfl (Nat.lt_of_not_le long)

/-- A text is read behind a length of five bytes at most, and takes as many bytes as that says
modulo the size of a word.  A length of more bytes is refused, whatever it says.  So the length is
followed to the letter, or refused because it does not fit into a word, exactly if there is no fifth
byte that ends it and sets one of the three bits for which there is no room. -/
theorem readText_exactly (bytes : Bytes) :
    (∀ (written : WrittenLength) (behind : Bytes), bytes = written.bytes ++ behind →
      (∀ text rest, readText bytes = .ok (text, rest) ↔
        written.bytes.length ≤ 5 ∧ behind = Utf8.encode text ++ rest ∧
          (Utf8.encode text).length = written.value % UInt32.size) ∧
      (readText bytes = .error .longStringLength ↔ 5 < written.bytes.length) ∧
      ((∀ text rest, readText bytes = .ok (text, rest) →
          (Utf8.encode text).length = written.value) ∧
        (UInt32.size ≤ written.value → readText bytes = .error .longStringLength) ↔
          ¬ (written.bytes.length = 5 ∧ 0x10 ≤ written.last.toNat))) ∧
    ((¬ ∃ (written : WrittenLength) (behind : Bytes), bytes = written.bytes ++ behind) →
      readText bytes = .error (if bytes.length < 5 then .shortRead else .longStringLength)) := by
  refine ⟨?_, fun incomplete => ?_⟩
  · rintro written behind rfl
    have taken := readText_bytes_eq_ok_iff written behind
    have refused := readText_bytes_eq_longLength_iff written behind
    refine ⟨taken, refused, ?_⟩
    rw [refused]
    constructor
    · rintro ⟨-, fits⟩ ⟨five, high⟩
      have long := fits ((WrittenLength.size_le_value_iff (Nat.le_of_eq five)).mpr ⟨five, high⟩)
      omega
    · intro room
      refine ⟨fun text rest read => ?_, fun large => ?_⟩
      · obtain ⟨short, -, lengthEq⟩ := (taken text rest).mp read
        have small := mt (WrittenLength.size_le_value_iff short).mp room
        rw [lengthEq, Nat.mod_eq_of_lt (Nat.lt_of_not_le small)]
      · by_contra short
        exact room ((WrittenLength.size_le_value_iff (Nat.le_of_not_lt short)).mp large)
  · have continued := (exists_writtenLength bytes).resolve_right incomplete
    by_cases short : bytes.length < 5
    · rw [if_pos short, readText,
        readLengthFrom_of_unfinished continued (by change _ ≤ 28; omega)]
      rfl
    · have long : readLengthFrom 0 0 (bytes ++ []) = .error .longStringLength :=
        readLengthFrom_of_long [] continued (by decide) (by change 28 < _; omega)
      rw [List.append_nil] at long
      rw [if_neg short]
      exact readText_eq_longLength_iff.mpr long

/-- A length that is padded with a byte that adds nothing. -/
def paddedLength : WrittenLength where
  front := [0x82]
  last := 0
  continued := by simp
  ended := by decide

theorem readText_exactly_padded :
    readText [0x82, 0x00, 0x61, 0x62, 0x63] = .ok ("ab", [0x63]) ∧
      (Utf8.encode "ab").length = paddedLength.value := by
  obtain ⟨whole, -⟩ := readText_exactly [0x82, 0x00, 0x61, 0x62, 0x63]
  obtain ⟨taken, -, followed⟩ := whole paddedLength [0x61, 0x62, 0x63] rfl
  have read := (taken "ab" [0x63]).mpr ⟨by decide, by decide, by decide⟩
  exact ⟨read, (followed.mpr (by decide)).1 "ab" [0x63] read⟩

/-- A length whose fifth byte says more than a word holds. -/
def largeLength : WrittenLength where
  front := [0x81, 0x80, 0x80, 0x80]
  last := 0x10
  continued := by simp
  ended := by decide

/-- One byte is taken where more than four gibibytes are announced. -/
theorem readText_of_largeLength :
    largeLength.value = UInt32.size + 1 ∧
      readText (largeLength.bytes ++ [0x61, 0x62]) = .ok ("a", [0x62]) := by
  decide

end Omod
end GameArchive
