import GameArchive.Proofs.Reading

/-!
# Reading the beginning of an archive

A reader looks at no bytes behind those that it takes.  When it succeeds on the beginning of an
archive, it gives the same on the whole archive, and leaves there what it left of the beginning,
with the bytes after the beginning behind that.
-/

namespace GameArchive

section Numbers

variable {bytes rest : Bytes} (tail : Bytes)

theorem Bytes.split?_extend {count : Nat} {first : Bytes}
    (cut : split? count bytes = some (first, rest)) :
    split? count (bytes ++ tail) = some (first, rest ++ tail) := by
  rw [split?_eq_some] at cut ⊢
  obtain ⟨rfl, lengthEq⟩ := cut
  exact ⟨List.append_assoc .., lengthEq⟩

/-- A number that is read in any width and kept as any kind of word. -/
theorem LittleEndian.map_read?_extend {α : Type} {width : Nat} {ofNat : Nat → α} {word : α}
    (found : (read? width bytes).map (fun (value, rest) => (ofNat value, rest)) =
      some (word, rest)) :
    (read? width (bytes ++ tail)).map (fun (value, rest) => (ofNat value, rest)) =
      some (word, rest ++ tail) := by
  obtain ⟨⟨value, others⟩, read, equal⟩ := Option.map_eq_some_iff.mp found
  obtain ⟨⟨field, behind⟩, cut, same⟩ := Option.map_eq_some_iff.mp read
  cases same
  cases equal
  rw [read?, Bytes.split?_extend tail cut, Option.map_some, Option.map_some]

theorem Bytes.word16?_extend {word : UInt16} (found : word16? bytes = some (word, rest)) :
    word16? (bytes ++ tail) = some (word, rest ++ tail) :=
  LittleEndian.map_read?_extend tail found

theorem Bytes.word32?_extend {word : UInt32} (found : word32? bytes = some (word, rest)) :
    word32? (bytes ++ tail) = some (word, rest ++ tail) :=
  LittleEndian.map_read?_extend tail found

theorem Bytes.word64?_extend {word : UInt64} (found : word64? bytes = some (word, rest)) :
    word64? (bytes ++ tail) = some (word, rest ++ tail) :=
  LittleEndian.map_read?_extend tail found

theorem Bytes.eq_of_word32? {word : UInt32} (found : word32? bytes = some (word, rest)) :
    bytes = ofWord32 word ++ rest := by
  obtain ⟨⟨value, others⟩, read, equal⟩ := Option.map_eq_some_iff.mp found
  obtain ⟨fits, row⟩ := LittleEndian.read?_eq_some_iff.mp read
  cases equal
  rw [ofWord32, UInt32.toNat_ofNat_of_lt' fits, ← row]

theorem Bytes.length_of_word32? {word : UInt32} (found : word32? bytes = some (word, rest)) :
    bytes.length = 4 + rest.length := by
  rw [eq_of_word32? found, List.length_append, length_ofWord32]

end Numbers

theorem readBlock_eq_ok {archive : String} {entry : Option String} {count : Nat}
    {bytes block rest : Bytes} :
    readBlock archive entry count bytes = .ok (block, rest) ↔
      bytes = block ++ rest ∧ block.length = count := by
  rw [← Bytes.split?_eq_some, readBlock]
  cases bytes.split? count with
  | none => simp
  | some cut => simp

theorem readBlock_extend {archive : String} {entry : Option String} {count : Nat}
    {bytes block rest : Bytes} (tail : Bytes)
    (taken : readBlock archive entry count bytes = .ok (block, rest)) :
    readBlock archive entry count (bytes ++ tail) = .ok (block, rest ++ tail) := by
  rw [readBlock_eq_ok] at taken ⊢
  obtain ⟨rfl, lengthEq⟩ := taken
  exact ⟨List.append_assoc .., lengthEq⟩

/-- The block that is taken from the beginning of a row is the part of its length there. -/
theorem readBlock_of_row {archive : String} {entry : Option String} {count : Nat}
    {bytes block rest part others : Bytes} {tail : Bytes}
    (taken : readBlock archive entry count bytes = .ok (block, rest))
    (row : bytes ++ tail = part ++ others) (lengthEq : part.length = count) :
    block = part ∧ rest ++ tail = others := by
  obtain ⟨rfl, blockLength⟩ := readBlock_eq_ok.mp taken
  rw [List.append_assoc] at row
  exact List.append_inj row (blockLength.trans lengthEq.symm)

theorem readMagic_eq_ok {archive container : String} {expected bytes rest : Bytes}
    (taken : readMagic archive container expected bytes = .ok rest) :
    bytes = expected ++ rest := by
  unfold readMagic at taken
  split at taken
  · cases taken
  · next found others cut =>
      split at taken
      · next same =>
          cases taken
          rw [← same]
          exact (Bytes.split?_eq_some.mp cut).1
      · cases taken

end GameArchive
