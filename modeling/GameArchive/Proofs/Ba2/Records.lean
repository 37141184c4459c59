import GameArchive.Ba2.Archive
import GameArchive.Ba2.Builder
import GameArchive.Proofs.Reading
import GameArchive.Proofs.Text.Utf8

/-!
# The directory of a BA2 archive

A record is a row of fields of fixed length, and the table of names is a row of names with their
lengths.  Both are read back, whatever the fields and the names hold.
-/

namespace GameArchive
namespace Ba2

namespace Record

@[simp] theorem length_write {record : Record} (four : record.extension.length = 4) :
    record.write.length = recordLength := by
  simp [write, four, recordLength]

/-- A record is read back from its bytes. -/
theorem ofBytes_write {record : Record} (four : record.extension.length = 4) :
    ofBytes record.write = record := by
  have nameHash : record.write.window 0 4 = Bytes.ofWord32 record.nameHash := by
    simp only [write, List.append_assoc]
    exact Bytes.window_append _ _ (by simp)
  have extension : record.write.window 4 4 = record.extension :=
    Bytes.window_field (Bytes.ofWord32 record.nameHash) _
      (by simp only [write, List.append_assoc]; rfl) (by simp) four
  have dirHash : record.write.window 8 4 = Bytes.ofWord32 record.dirHash :=
    Bytes.window_field (Bytes.ofWord32 record.nameHash ++ record.extension) _
      (by simp only [write, List.append_assoc]; rfl) (by simp [four]) (by simp)
  have flags : record.write.window 12 4 = Bytes.ofWord32 record.flags :=
    Bytes.window_field (Bytes.ofWord32 record.nameHash ++ record.extension ++
        Bytes.ofWord32 record.dirHash) _
      (by simp only [write, List.append_assoc]; rfl) (by simp [four]) (by simp)
  have offset : record.write.window 16 8 = Bytes.ofWord64 record.offset :=
    Bytes.window_field (Bytes.ofWord32 record.nameHash ++ record.extension ++
        Bytes.ofWord32 record.dirHash ++ Bytes.ofWord32 record.flags) _
      (by simp only [write, List.append_assoc]; rfl) (by simp [four]) (by simp)
  have packedSize : record.write.window 24 4 = Bytes.ofWord32 record.packedSize :=
    Bytes.window_field (Bytes.ofWord32 record.nameHash ++ record.extension ++
        Bytes.ofWord32 record.dirHash ++ Bytes.ofWord32 record.flags ++
        Bytes.ofWord64 record.offset) _
      (by simp only [write, List.append_assoc]; rfl) (by simp [four]) (by simp)
  have unpackedSize : record.write.window 28 4 = Bytes.ofWord32 record.unpackedSize :=
    Bytes.window_field (Bytes.ofWord32 record.nameHash ++ record.extension ++
        Bytes.ofWord32 record.dirHash ++ Bytes.ofWord32 record.flags ++
        Bytes.ofWord64 record.offset ++ Bytes.ofWord32 record.packedSize) _
      (by simp only [write, List.append_assoc]; rfl) (by simp [four]) (by simp)
  have align : record.write.window 32 4 = Bytes.ofWord32 record.align :=
    Bytes.window_field (Bytes.ofWord32 record.nameHash ++ record.extension ++
        Bytes.ofWord32 record.dirHash ++ Bytes.ofWord32 record.flags ++
        Bytes.ofWord64 record.offset ++ Bytes.ofWord32 record.packedSize ++
        Bytes.ofWord32 record.unpackedSize) _
      (by rw [List.append_nil]; rfl) (by simp [four]) (by simp)
  simp only [ofBytes, nameHash, extension, dirHash, flags, offset, packedSize, unpackedSize,
    align, Bytes.decode_ofWord32, Bytes.decode_ofWord64, UInt32.ofNat_toNat, UInt64.ofNat_toNat]

theorem readRecords_flatMap_write {records : List Record}
    (four : ∀ record ∈ records, record.extension.length = 4) :
    readRecords records.length (records.flatMap write) = records := by
  induction records with
  | nil => rfl
  | cons record records ih =>
      have length := length_write (four record (List.mem_cons_self ..))
      rw [List.length_cons, readRecords, List.flatMap_cons, Bytes.take_append _ _ length,
        Bytes.drop_append _ _ length, ofBytes_write (four record (List.mem_cons_self ..)),
        ih fun other member => four other (List.mem_cons_of_mem _ member)]

end Record

theorem length_extensionBytes (extension : String) : (extensionBytes extension).length = 4 := by
  unfold extensionBytes
  simp only [List.length_append, List.length_take, Bytes.length_zeros]
  omega

/-- An extension of at most four bytes is read back, unless a zero character ends it. -/
theorem extensionText_extensionBytes {extension : String}
    (short : (Utf8.encode extension).length ≤ 4)
    (noZero : extension.toList.getLast? ≠ some '\x00') :
    extensionText (extensionBytes extension) = extension := by
  have decoded : (Utf8.decodeReplacing (extensionBytes extension)).toList = extension.toList ++
      List.replicate (4 - (Utf8.encode extension).length) '\x00' := by
    unfold extensionBytes
    simp only [List.take_of_length_le short]
    rw [Utf8.decodeReplacing, Utf8.decodeCharacters_encode, Utf8.decodeCharacters_zeros,
      String.toList_ofList]
  have reversed : extension.toList.reverse.dropWhile (· == '\x00') = extension.toList.reverse := by
    cases ending : extension.toList.reverse with
    | nil => rfl
    | cons last front =>
        have ends : extension.toList.getLast? = some last := by
          rw [← List.head?_reverse, ending]
          rfl
        have notZero : last ≠ '\x00' := by
          rintro rfl
          exact noZero ends
        exact List.dropWhile_cons_of_neg (by simpa using notZero)
  unfold extensionText
  rw [decoded, List.reverse_append, List.reverse_replicate, List.dropWhile_append_of_pos,
    reversed, List.reverse_reverse, String.ofList_toList]
  intro character member
  rw [List.eq_of_mem_replicate member]
  rfl

def nameEntry (name : Bytes) : Bytes :=
  LittleEndian.encode 2 name.length ++ name

theorem readNames_append (archive : String) {names : List Bytes}
    (short : ∀ name ∈ names, name.length < UInt16.size) (rest : Bytes) :
    readNames archive names.length (names.flatMap nameEntry ++ rest) =
      .ok (names.map encoding.decode) := by
  induction names with
  | nil => rfl
  | cons name names ih =>
      have fits : name.length < LittleEndian.bound 2 := short name (List.mem_cons_self ..)
      have word : Bytes.word16? (LittleEndian.encode 2 name.length ++
          (name ++ (names.flatMap nameEntry ++ rest))) =
          some (UInt16.ofNat name.length, name ++ (names.flatMap nameEntry ++ rest)) := by
        rw [Bytes.word16?, LittleEndian.read?_encode_append fits, Option.map_some]
      have toNat : (UInt16.ofNat name.length).toNat = name.length :=
        UInt16.toNat_ofNat_of_lt' (short name (List.mem_cons_self ..))
      rw [List.length_cons, readNames, List.flatMap_cons, List.append_assoc, nameEntry,
        List.append_assoc, word]
      simp only
      rw [readBlock_append _ _ _ _ toNat.symm, Outcome.ok_bind,
        ih fun other member => short other (List.mem_cons_of_mem _ member)]
      rfl

end Ba2
end GameArchive
