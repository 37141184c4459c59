import GameArchive.Reading
import GameArchive.Proofs.Outcome

/-!
# Reading back what was written

A record is a row of fields, and a reader looks at a field through a window.  The lemmas of this
module find a field of known length in a row, whatever stands behind it.
-/

namespace GameArchive

namespace LittleEndian

theorem decode_encode_of_lt {width value : Nat} (fits : value < bound width) :
    decode (encode width value) = value := by
  rw [decode_encode, Nat.mod_eq_of_lt fits]

theorem encode_inj {width first second : Nat} (firstFits : first < bound width)
    (secondFits : second < bound width) (equal : encode width first = encode width second) :
    first = second := by
  rw [← decode_encode_of_lt firstFits, equal, decode_encode_of_lt secondFits]

theorem encode_decode_of_length {field : Bytes} {width : Nat} (lengthEq : field.length = width) :
    encode width (decode field) = field := by
  rw [← lengthEq, encode_decode]

/-- A number is read where its bytes stand in front. -/
theorem read?_eq_some_iff {width value : Nat} {bytes rest : Bytes} :
    read? width bytes = some (value, rest) ↔
      value < bound width ∧ bytes = encode width value ++ rest := by
  constructor
  · intro read
    obtain ⟨⟨field, remaining⟩, cut, same⟩ := Option.map_eq_some_iff.mp read
    cases same
    obtain ⟨rfl, rfl⟩ := Bytes.split?_eq_some.mp cut
    exact ⟨decode_lt field, by rw [encode_decode]⟩
  · rintro ⟨fits, rfl⟩
    exact read?_encode_append fits rest

end LittleEndian

namespace Bytes

@[simp] theorem length_zeros (count : Nat) : (zeros count).length = count :=
  List.length_replicate

theorem window_append (first rest : Bytes) {length : Nat} (lengthEq : first.length = length) :
    (first ++ rest).window 0 length = first := by
  rw [window, List.drop_zero, ← lengthEq, List.take_left]

theorem window_append_drop (bytes : Bytes) (offset length : Nat) :
    bytes.window offset length ++ bytes.drop (offset + length) = bytes.drop offset := by
  rw [window, ← List.drop_drop, List.take_append_drop]

theorem window_whole (bytes : Bytes) {length : Nat} (lengthEq : bytes.length = length) :
    bytes.window 0 length = bytes := by
  rw [window, List.drop_zero, ← lengthEq, List.take_length]

theorem window_append_right (first rest : Bytes) {start : Nat} (offset length : Nat)
    (startEq : start = first.length + offset) :
    (first ++ rest).window start length = rest.window offset length := by
  rw [window, window, startEq, ← List.drop_drop, List.drop_left]

/-- A window inside the first part shows nothing of the rest. -/
theorem window_append_left (first rest : Bytes) {offset length : Nat}
    (within : offset + length ≤ first.length) :
    (first ++ rest).window offset length = first.window offset length := by
  rw [window, window, List.drop_append_of_le_length (by omega),
    List.take_append_of_le_length (by rw [List.length_drop]; omega)]

/-- A window that reaches beyond the end shows all that is added, when it has room for it. -/
theorem window_append_beyond (first rest : Bytes) {offset length : Nat}
    (start : offset ≤ first.length) (room : first.length + rest.length ≤ offset + length) :
    (first ++ rest).window offset length = first.window offset length ++ rest := by
  rw [window, window, List.drop_append_of_le_length start, List.take_of_length_le,
    List.take_of_length_le]
  · rw [List.length_drop]
    omega
  · rw [List.length_append, List.length_drop]
    omega

theorem window_end (bytes : Bytes) {offset : Nat} (length : Nat)
    (beyond : bytes.length ≤ offset) : bytes.window offset length = [] := by
  rw [window, List.drop_of_length_le beyond, List.take_nil]

/-- A field of a row is what a window of its length shows at its place. -/
theorem window_field {bytes : Bytes} (front field : Bytes) {rest : Bytes} {start length : Nat}
    (row : bytes = front ++ (field ++ rest)) (startEq : front.length = start)
    (lengthEq : field.length = length) : bytes.window start length = field := by
  rw [row, window_append_right front _ 0 length (by omega), window_append field rest lengthEq]

theorem take_append (first rest : Bytes) {length : Nat} (lengthEq : first.length = length) :
    (first ++ rest).take length = first := by
  rw [← lengthEq, List.take_left]

theorem drop_append (first rest : Bytes) {length : Nat} (lengthEq : first.length = length) :
    (first ++ rest).drop length = rest := by
  rw [← lengthEq, List.drop_left]

/-- Parts of one length add up to a multiple of it. -/
theorem length_flatMap_of_forall {α : Type} {part : α → Bytes} {length : Nat} {values : List α}
    (lengthEq : ∀ value ∈ values, (part value).length = length) :
    (values.flatMap part).length = length * values.length := by
  induction values with
  | nil => rfl
  | cons value values ih =>
      rw [List.flatMap_cons, List.length_append, lengthEq value (List.mem_cons_self ..),
        ih fun other member => lengthEq other (List.mem_cons_of_mem _ member), List.length_cons,
        Nat.mul_add, Nat.mul_one, Nat.add_comm]

/-- Parts in a row, cut around the one at an index. -/
theorem flatMap_split {α : Type} (part : α → Bytes) {values : List α} {index : Nat} {value : α}
    (there : values[index]? = some value) :
    values.flatMap part = (values.take index).flatMap part ++
      (part value ++ (values.drop (index + 1)).flatMap part) := by
  obtain ⟨below, rfl⟩ := List.getElem?_eq_some_iff.mp there
  have parts : values = values.take index ++ values[index] :: values.drop (index + 1) := by
    rw [← List.drop_eq_getElem_cons below, List.take_append_drop]
  calc
    values.flatMap part =
        (values.take index ++ values[index] :: values.drop (index + 1)).flatMap part :=
      congrArg (List.flatMap part) parts
    _ = _ := by rw [List.flatMap_append, List.flatMap_cons]

/-- A window inside one of some parts of one length that stand in a row. -/
theorem window_flatMap {α : Type} {part : α → Bytes} {length : Nat} {values : List α}
    {index : Nat} {value : α} (lengthEq : ∀ value ∈ values, (part value).length = length)
    (there : values[index]? = some value) {start count : Nat} (inside : start + count ≤ length) :
    window (values.flatMap part) (length * index + start) count =
      (part value).window start count := by
  induction values generalizing index with
  | nil => simp at there
  | cons first values ih =>
      have firstLength := lengthEq first (List.mem_cons_self ..)
      rw [List.flatMap_cons]
      cases index with
      | zero =>
          have same : first = value := by simpa using there
          subst same
          rw [Nat.mul_zero, Nat.zero_add, window_append_left _ _ (by omega)]
      | succ index =>
          rw [List.getElem?_cons_succ] at there
          have further := ih (fun other member => lengthEq other (List.mem_cons_of_mem _ member))
            there
          rw [← further]
          apply window_append_right
          rw [firstLength, Nat.mul_succ]
          omega

theorem decode_ofWord32 (word : UInt32) : LittleEndian.decode (ofWord32 word) = word.toNat := by
  have fits : word.toNat < LittleEndian.bound 4 := word.toNat_lt
  rw [ofWord32, LittleEndian.decode_encode_of_lt fits]

theorem decode_ofWord64 (word : UInt64) : LittleEndian.decode (ofWord64 word) = word.toNat := by
  have fits : word.toNat < LittleEndian.bound 8 := word.toNat_lt
  rw [ofWord64, LittleEndian.decode_encode_of_lt fits]

end Bytes

theorem readBlock_append (archive : String) (entry : Option String) (first rest : Bytes)
    {count : Nat} (lengthEq : first.length = count) :
    readBlock archive entry count (first ++ rest) = .ok (first, rest) := by
  rw [readBlock, ← lengthEq, Bytes.split?_append]

/-- Who asks for an exact number of bytes gets that many. -/
theorem Delivery.length_of_takeExactly {delivery : Delivery} {archive : String}
    {entry : Option String} {count : Nat} {bytes : Bytes}
    (taken : delivery.takeExactly archive entry count = .ok bytes) : bytes.length = count := by
  unfold takeExactly at taken
  split at taken
  · cases taken
  · split at taken
    · next lengthEq =>
        cases taken
        exact lengthEq
    · cases taken

theorem readMagic_append (archive container : String) {expected : Bytes} (rest : Bytes)
    (lengthEq : expected.length = 4) :
    readMagic archive container expected (expected ++ rest) = .ok rest := by
  have cut := Bytes.split?_append expected rest
  rw [lengthEq] at cut
  rw [readMagic, cut]
  exact if_pos rfl

end GameArchive
