import GameArchive.Proofs.Text.CanonicalUtf8
import GameArchive.Text.Encoding

/-!
# Names that begin like a byte order mark

A decoder looks for a byte order mark before it asks for the encoding, and the encodings write none.
So a name is read as another one if its own bytes begin with a mark, and in that case only: what
follows the mark stands for fewer characters than the name has.
-/

namespace GameArchive

/-! ## Fewer characters than bytes -/

namespace Utf8

theorem length_decodeCharacters_le (skip : Nat) (bytes : Bytes) :
    (decodeCharacters skip bytes).length ≤ bytes.length := by
  induction bytes generalizing skip with
  | nil => cases skip <;> exact Nat.le_refl 0
  | cons lead rest ih =>
      cases skip with
      | succ skip => exact Nat.le_succ_of_le (ih skip)
      | zero =>
          rw [decodeCharacters]
          split
          · exact Nat.succ_le_succ (ih _)
          · exact Nat.succ_le_succ (ih _)
          · exact Nat.succ_le_succ (Nat.zero_le _)

theorem nextCharacter_of_encode {text : String} {lead : UInt8} {rest : Bytes}
    (written : encode text = lead :: rest) :
    ∃ character width, nextCharacter lead rest = .character character width := by
  unfold encode at written
  cases characters : text.toList with
  | nil =>
      rw [characters] at written
      cases written
  | cons character others =>
      obtain ⟨first, tails, encoded, next⟩ := nextCharacter_utf8EncodeChar character
      rw [characters, List.flatMap_cons, encoded] at written
      obtain ⟨rfl, rfl⟩ := List.cons.inj written
      exact ⟨character, _, next _⟩

end Utf8

namespace Utf16

theorem length_decodeCharacters_le (order : ByteOrder) (pending : Option Nat) (bytes : Bytes) :
    (decodeCharacters order pending bytes).length ≤ bytes.length + pending.toList.length := by
  -- A unit that waits for its partner may still come to stand for a character of its own.
  fun_induction decodeCharacters order pending bytes <;> simp_all <;> omega

end Utf16

/-! ## Windows-1252 -/

namespace Windows1252

theorem byteOf?_decodeByte (byte : UInt8) : byteOf? (decodeByte byte) = some byte :=
  Bytes.forall_byte (by decide +kernel) byte

theorem encode_decode (bytes : Bytes) : encode (decode bytes) = bytes := by
  unfold encode decode
  rw [String.toList_ofList]
  induction bytes with
  | nil => rfl
  | cons byte bytes ih =>
      rw [List.map_cons, List.flatMap_cons, ih, encodeCharacter, byteOf?_decodeByte]
      rfl

/-- A text of characters of the code page is the text of some bytes. -/
theorem exists_decode_eq {text : String}
    (covered : ∀ character ∈ text.toList, ∃ byte, decodeByte byte = character) :
    ∃ bytes, decode bytes = text := by
  have written : ∀ characters : List Char,
      (∀ character ∈ characters, ∃ byte, decodeByte byte = character) →
        ∃ bytes : Bytes, bytes.map decodeByte = characters := by
    intro characters
    induction characters with
    | nil => exact fun _ => ⟨[], rfl⟩
    | cons character characters ih =>
        intro covered
        obtain ⟨⟨byte, first⟩, others⟩ := List.forall_mem_cons.mp covered
        obtain ⟨bytes, rest⟩ := ih others
        exact ⟨byte :: bytes, by rw [List.map_cons, first, rest]⟩
  obtain ⟨bytes, equal⟩ := written text.toList covered
  exact ⟨bytes, by rw [decode, equal, String.ofList_toList]⟩

end Windows1252

/-! ## Texts that are read as they were written -/

namespace Encoding

/-- Whether every character of a text exists in an encoding. -/
def Covers (encoding : Encoding) (text : String) : Prop :=
  match encoding with
  | .utf8 => True
  | .windows1252 => ∀ character ∈ text.toList, ∃ byte, Windows1252.decodeByte byte = character

theorem covers_windows1252_iff (text : String) :
    windows1252.Covers text ↔ text.toList.all fun character =>
      (Windows1252.byteOf? character).map Windows1252.decodeByte == some character := by
  simp only [List.all_eq_true, beq_iff_eq]
  refine forall₂_congr fun character _ => ⟨?_, fun found => ?_⟩
  · rintro ⟨byte, rfl⟩
    rw [Windows1252.byteOf?_decodeByte, Option.map_some]
  · obtain ⟨byte, -, decoded⟩ := Option.map_eq_some_iff.mp found
    exact ⟨byte, decoded⟩

instance (encoding : Encoding) (text : String) : Decidable (encoding.Covers text) :=
  match encoding with
  | .utf8 => inferInstanceAs (Decidable True)
  | .windows1252 => decidable_of_iff _ (covers_windows1252_iff text).symm

/-- The texts that are written as a byte order mark. -/
def marks : Encoding → List String
  | .utf8 => ["\uFEFF"]
  | .windows1252 => ["ï»¿", "ÿþ", "þÿ"]

/-- A text that begins like a byte order mark. -/
def Marked (encoding : Encoding) (text : String) : Prop :=
  ∃ mark ∈ encoding.marks, mark.toList <+: text.toList

instance (encoding : Encoding) (text : String) : Decidable (encoding.Marked text) :=
  inferInstanceAs (Decidable (∃ mark ∈ encoding.marks, mark.toList <+: text.toList))

/-- The text as which a name is read that was written for another. -/
def reread (encoding : Encoding) (text : String) : String :=
  encoding.decode (encoding.encode text)

theorem encode_of_marked {encoding : Encoding} {text : String} (marked : encoding.Marked text) :
    ∃ rest, encoding.encode text = 0xEF :: 0xBB :: 0xBF :: rest ∨
      encoding.encode text = 0xFF :: 0xFE :: rest ∨
      encoding.encode text = 0xFE :: 0xFF :: rest := by
  obtain ⟨mark, among, rest, begins⟩ := marked
  cases encoding with
  | utf8 =>
      rw [marks, List.mem_singleton] at among
      subst among
      refine ⟨rest.flatMap String.utf8EncodeChar, .inl ?_⟩
      rw [encode, Utf8.encode, ← begins]
      rfl
  | windows1252 =>
      simp only [marks, List.mem_cons, List.not_mem_nil, or_false] at among
      refine ⟨rest.flatMap Windows1252.encodeCharacter, ?_⟩
      rw [encode, Windows1252.encode, ← begins]
      rcases among with rfl | rfl | rfl
      · exact .inl rfl
      · exact .inr (.inl rfl)
      · exact .inr (.inr rfl)

theorem not_marked_of_written {encoding : Encoding} {text : String} {bytes : Bytes}
    (written : encoding.encode text = bytes)
    (notUtf8 : ∀ rest, bytes ≠ 0xEF :: 0xBB :: 0xBF :: rest)
    (notLittle : ∀ rest, bytes ≠ 0xFF :: 0xFE :: rest)
    (notBig : ∀ rest, bytes ≠ 0xFE :: 0xFF :: rest) : ¬ encoding.Marked text := by
  intro marked
  obtain ⟨rest, begins⟩ := encode_of_marked marked
  rw [written] at begins
  rcases begins with begins | begins | begins
  · exact notUtf8 rest begins
  · exact notLittle rest begins
  · exact notBig rest begins

/-- Bytes after a mark stand for fewer characters than they do with it, each for one. -/
theorem reread_windows1252 (bytes : Bytes) :
    let text := Windows1252.decode bytes
    windows1252.Marked text ∧ (windows1252.decode bytes).length < text.length ∨
      ¬ windows1252.Marked text ∧ windows1252.decode bytes = text := by
  intro text
  have characters : text.toList = bytes.map Windows1252.decodeByte := String.toList_ofList
  have lengthEq : text.length = bytes.length := by
    rw [← String.length_toList, characters, List.length_map]
  have units : ∀ order (rest : Bytes),
      (Utf16.decodeReplacing order rest).length ≤ rest.length := by
    intro order rest
    rw [Utf16.decodeReplacing, String.length_ofList]
    exact Utf16.length_decodeCharacters_le order none rest
  unfold decode
  split
  · next rest =>
      refine .inl ⟨⟨"ï»¿", by decide, rest.map Windows1252.decodeByte, characters.symm⟩, ?_⟩
      have fewer := Utf8.length_decodeCharacters_le 0 rest
      rw [lengthEq, Utf8.decodeReplacing, String.length_ofList]
      simp only [List.length_cons]
      omega
  · next rest =>
      refine .inl ⟨⟨"ÿþ", by decide, rest.map Windows1252.decodeByte, characters.symm⟩, ?_⟩
      have fewer := units .littleEndian rest
      rw [lengthEq, List.length_cons, List.length_cons]
      omega
  · next rest =>
      refine .inl ⟨⟨"þÿ", by decide, rest.map Windows1252.decodeByte, characters.symm⟩, ?_⟩
      have fewer := units .bigEndian rest
      rw [lengthEq, List.length_cons, List.length_cons]
      omega
  · next notUtf8 notLittle notBig =>
      have written : windows1252.encode text = bytes := Windows1252.encode_decode bytes
      exact .inr ⟨not_marked_of_written written notUtf8 notLittle notBig, rfl⟩

theorem reread_utf8 (text : String) :
    utf8.Marked text ∧ (utf8.reread text).length < text.length ∨
      ¬ utf8.Marked text ∧ utf8.reread text = text := by
  have read := Utf8.decodeCharacters_encode text []
  rw [List.append_nil, Utf8.decodeCharacters, List.append_nil] at read
  change Utf8.decodeCharacters 0 (utf8.encode text) = text.toList at read
  unfold reread
  generalize written : utf8.encode text = bytes at read
  unfold decode
  split
  · next rest =>
      have first := Utf8.decodeCharacters_utf8EncodeChar '\uFEFF' rest
      have characters : text.toList = '\uFEFF' :: Utf8.decodeCharacters 0 rest :=
        read.symm.trans first
      refine .inl ⟨⟨"\uFEFF", by decide, _, characters.symm⟩, ?_⟩
      rw [← String.length_toList (s := text), characters, Utf8.decodeReplacing,
        String.length_ofList]
      exact Nat.lt_succ_self _
  -- No character begins with the first byte of a mark of UTF-16.
  · next rest =>
      obtain ⟨_, _, next⟩ := Utf8.nextCharacter_of_encode written
      cases next
  · next rest =>
      obtain ⟨_, _, next⟩ := Utf8.nextCharacter_of_encode written
      cases next
  · next notUtf8 notLittle notBig =>
      refine .inr ⟨not_marked_of_written written notUtf8 notLittle notBig, ?_⟩
      rw [Utf8.decodeReplacing, read, String.ofList_toList]

variable {encoding : Encoding} {text : String}

/-- A text of the characters of an encoding is read as a shorter one if it begins like a mark, and
as itself if it does not. -/
theorem reread_spec (covered : encoding.Covers text) :
    encoding.Marked text ∧ (encoding.reread text).length < text.length ∨
      ¬ encoding.Marked text ∧ encoding.reread text = text := by
  cases encoding with
  | utf8 => exact reread_utf8 text
  | windows1252 =>
      obtain ⟨bytes, rfl⟩ := Windows1252.exists_decode_eq covered
      have same : windows1252.reread (Windows1252.decode bytes) = windows1252.decode bytes :=
        congrArg windows1252.decode (Windows1252.encode_decode bytes)
      rw [same]
      exact reread_windows1252 bytes

theorem reread_eq_iff (covered : encoding.Covers text) :
    encoding.reread text = text ↔ ¬ encoding.Marked text := by
  rcases reread_spec covered with ⟨marked, shorter⟩ | ⟨unmarked, equal⟩
  · exact iff_of_false (fun equal => by rw [equal] at shorter; omega) (not_not_intro marked)
  · exact iff_of_true equal unmarked

end Encoding
end GameArchive
