import GameArchive.Btar.Writer
import GameArchive.Proofs.Extension
import GameArchive.Proofs.Text.CanonicalUtf8
import Mathlib.Data.List.Forall2

/-!
# The grammar of BTAR streams

A stream is a header and a sequence of records that ends where the stream ends.  The lengths in a
record leave one way to cut a stream into records, and the reader finds it: it reads a stream to
the end exactly when the stream is written in this way, and it shows every record where its data
stand.  Every other stream is refused, at the header or after finitely many records.
-/

namespace GameArchive
namespace Btar

/-- A record as it stands in a stream. -/
structure StoredRecord where
  name : String
  data : Bytes
  deriving Repr, DecidableEq

namespace StoredRecord

/-- The lengths of a record fit their fields. -/
structure Storable (stored : StoredRecord) : Prop where
  shortName : (Utf8.encode stored.name).length < UInt16.size
  shortData : stored.data.length < UInt64.size

/-- The length of the name, the name, the length of the data, and the data. -/
def write (stored : StoredRecord) : Bytes :=
  LittleEndian.encode 2 (Utf8.encode stored.name).length ++ (Utf8.encode stored.name ++
    (LittleEndian.encode 8 stored.data.length ++ stored.data))

/-- What the reader shows of a record that begins at a position. -/
def shownAt (stored : StoredRecord) (position : Nat) : Record where
  name := Path.toArchive stored.name
  offset := position + 2 + (Utf8.encode stored.name).length + 8
  length := stored.data.length

theorem length_write (stored : StoredRecord) :
    stored.write.length = 10 + (Utf8.encode stored.name).length + stored.data.length := by
  simp only [write, List.length_append, LittleEndian.length_encode]
  omega

theorem write_append_inj {first second : StoredRecord} {rest others : Bytes}
    (firstFits : first.Storable) (secondFits : second.Storable)
    (row : first.write ++ rest = second.write ++ others) : first = second ∧ rest = others := by
  simp only [write, List.append_assoc] at row
  obtain ⟨nameLength, afterLength⟩ := List.append_inj row (by simp)
  have nameWidth := LittleEndian.encode_inj firstFits.shortName secondFits.shortName nameLength
  obtain ⟨nameBytes, afterName⟩ := List.append_inj afterLength nameWidth
  obtain ⟨dataLength, afterSize⟩ := List.append_inj afterName (by simp)
  have dataWidth := LittleEndian.encode_inj firstFits.shortData secondFits.shortData dataLength
  obtain ⟨dataEq, restEq⟩ := List.append_inj afterSize dataWidth
  have nameEq := Utf8.encode_injective nameBytes
  cases first
  cases second
  cases nameEq
  cases dataEq
  exact ⟨rfl, restEq⟩

theorem shownAt_end (stored : StoredRecord) (position : Nat) :
    (stored.shownAt position).offset + (stored.shownAt position).length =
      position + stored.write.length := by
  simp only [length_write, shownAt]
  omega

end StoredRecord

/-- Behind the start of a record as many bytes are taken for its data as it announces. -/
theorem readRecord_recordHead (archive : String) (position : Nat) {name : String} {length : Nat}
    (shortName : (Utf8.encode name).length < UInt16.size) (shortData : length < UInt64.size)
    (rest : Bytes) :
    readRecord archive position (Writer.recordHead (Utf8.encode name) length ++ rest) =
      if rest.length < length then .error (.truncated archive (some name) length rest.length)
      else .ok (⟨Path.toArchive name, position + 2 + (Utf8.encode name).length + 8, length⟩,
        rest.drop length) := by
  have nameLength : LittleEndian.decode (LittleEndian.encode 2 (Utf8.encode name).length) = _ :=
    LittleEndian.decode_encode_of_lt shortName
  have dataLength : LittleEndian.decode (LittleEndian.encode 8 length) = _ :=
    LittleEndian.decode_encode_of_lt shortData
  simp only [Writer.recordHead, List.append_assoc]
  rw [readRecord, readBlock_append _ _ _ _ (LittleEndian.length_encode 2 _), Outcome.ok_bind]
  simp only [nameLength]
  rw [readBlock_append _ _ _ _ rfl, Outcome.ok_bind]
  simp only [Utf8.decode_encode]
  rw [readBlock_append _ _ _ _ (LittleEndian.length_encode 8 _), Outcome.ok_bind]
  simp only [dataLength]
  rfl

/-- A record is read exactly where one is written. -/
theorem readRecord_eq_ok_iff {archive : String} {position : Nat} {bytes rest : Bytes}
    {record : Record} :
    readRecord archive position bytes = .ok (record, rest) ↔
      ∃ stored : StoredRecord, stored.Storable ∧ bytes = stored.write ++ rest ∧
        record = stored.shownAt position := by
  constructor
  · intro read
    rw [readRecord] at read
    obtain ⟨⟨nameLength, _⟩, first, named⟩ := Outcome.bind_eq_ok_iff.mp read
    obtain ⟨⟨nameBytes, _⟩, second, sized⟩ := Outcome.bind_eq_ok_iff.mp named
    obtain ⟨rfl, nameLengthWidth⟩ := readBlock_eq_ok.mp first
    obtain ⟨rfl, nameWidth⟩ := readBlock_eq_ok.mp second
    simp only at sized nameWidth
    split at sized
    case h_1 => cases sized
    case h_2 name decoded =>
      obtain ⟨⟨length, behind⟩, third, taken⟩ := Outcome.bind_eq_ok_iff.mp sized
      obtain ⟨rfl, lengthWidth⟩ := readBlock_eq_ok.mp third
      simp only at taken
      split at taken
      case isTrue => cases taken
      case isFalse enough =>
        cases taken
        have nameEq := Utf8.decode_eq_ok_iff.mp decoded
        have dataLength : (behind.take (LittleEndian.decode length)).length =
            LittleEndian.decode length := List.length_take_of_le (by omega)
        have nameBound := LittleEndian.decode_lt nameLength
        have dataBound := LittleEndian.decode_lt length
        rw [nameLengthWidth] at nameBound
        rw [lengthWidth] at dataBound
        refine ⟨⟨name, behind.take (LittleEndian.decode length)⟩, ⟨?_, ?_⟩, ?_, ?_⟩
        · rw [← nameEq, nameWidth]
          exact nameBound
        · rw [dataLength]
          exact dataBound
        · simp only [StoredRecord.write, dataLength, ← nameEq, nameWidth,
            LittleEndian.encode_decode_of_length nameLengthWidth,
            LittleEndian.encode_decode_of_length lengthWidth,
            List.append_assoc, List.take_append_drop]
        · simp only [StoredRecord.shownAt, dataLength, ← nameEq, nameWidth]
  · rintro ⟨stored, storable, rfl, rfl⟩
    have row : stored.write ++ rest = Writer.recordHead (Utf8.encode stored.name)
        stored.data.length ++ (stored.data ++ rest) := by
      simp only [StoredRecord.write, Writer.recordHead, List.append_assoc]
    rw [row, readRecord_recordHead _ _ storable.shortName storable.shortData,
      if_neg (by rw [List.length_append]; omega), List.drop_left]
    rfl

/-- What the reader shows of records that begin at a position, one behind the other. -/
def recordsFrom : (position : Nat) → List StoredRecord → List Record
  | _, [] => []
  | position, stored :: others =>
      stored.shownAt position :: recordsFrom (position + stored.write.length) others

/-- More steps than there are bytes read nothing more. -/
theorem readRecords_enough {archive : String} {fuel steps position : Nat} {bytes : Bytes}
    (enough : bytes.length ≤ fuel) (further : bytes.length ≤ steps) :
    readRecords archive steps position bytes = readRecords archive fuel position bytes := by
  induction fuel generalizing steps position bytes with
  | zero =>
      have empty : bytes = [] := List.eq_nil_of_length_eq_zero (by omega)
      subst empty
      cases steps <;> rfl
  | succ fuel ih =>
      cases steps with
      | zero =>
          have empty : bytes = [] := List.eq_nil_of_length_eq_zero (by omega)
          subst empty
          rfl
      | succ steps =>
          rw [readRecords, readRecords]
          split
          case isTrue => rfl
          case isFalse =>
            split
            case h_1 => rfl
            case h_2 record rest read =>
              obtain ⟨first, -, rfl, -⟩ := readRecord_eq_ok_iff.mp read
              have firstLength := first.length_write
              rw [List.length_append] at enough further
              rw [ih (by omega) (by omega)]

/-- A record that is read is listed before what its rest is read as. -/
theorem readRecords_of_readRecord {archive : String} {fuel position : Nat} {bytes rest : Bytes}
    {record : Record} (read : readRecord archive position bytes = .ok (record, rest))
    (enough : bytes.length ≤ fuel) :
    readRecords archive fuel position bytes =
      let others := readRecords archive rest.length (record.offset + record.length) rest
      { others with records := record :: others.records } := by
  obtain ⟨stored, -, row, -⟩ := readRecord_eq_ok_iff.mp read
  have firstLength := stored.length_write
  have lengthEq := congrArg List.length row
  rw [List.length_append] at lengthEq
  obtain ⟨steps, rfl⟩ := Nat.exists_eq_succ_of_ne_zero (show fuel ≠ 0 by omega)
  rw [readRecords, if_neg, read]
  · simp only
    rw [readRecords_enough (Nat.le_refl rest.length) (by omega)]
  · rw [List.isEmpty_iff_length_eq_zero]
    omega

theorem readRecords_write {archive : String} {stored : List StoredRecord}
    (storable : ∀ record ∈ stored, record.Storable) {fuel position : Nat}
    (enough : (stored.flatMap StoredRecord.write).length ≤ fuel) :
    readRecords archive fuel position (stored.flatMap StoredRecord.write) =
      ⟨recordsFrom position stored, none⟩ := by
  induction stored generalizing fuel position with
  | nil => cases fuel <;> rfl
  | cons first others ih =>
      have read : readRecord archive position (first.write ++ others.flatMap StoredRecord.write) =
          .ok (first.shownAt position, others.flatMap StoredRecord.write) :=
        readRecord_eq_ok_iff.mpr ⟨first, storable first (by simp), rfl, rfl⟩
      have remaining : readRecords archive _ (position + first.write.length) _ = _ :=
        ih (fun record member => storable record (by simp [member])) (Nat.le_refl _)
      rw [List.flatMap_cons] at enough ⊢
      rw [readRecords_of_readRecord read enough, StoredRecord.shownAt_end, remaining]
      rfl

/-- A reading that ends without a failure went through records that take all the bytes. -/
theorem exists_stored_of_readRecords {archive : String} {fuel position : Nat} {bytes : Bytes}
    (enough : bytes.length ≤ fuel)
    (ended : (readRecords archive fuel position bytes).failure = none) :
    ∃ stored : List StoredRecord, (∀ record ∈ stored, record.Storable) ∧
      bytes = stored.flatMap StoredRecord.write := by
  induction fuel generalizing position bytes with
  | zero =>
      have empty : bytes = [] := List.eq_nil_of_length_eq_zero (by omega)
      exact ⟨[], by simp, empty⟩
  | succ fuel ih =>
      rw [readRecords] at ended
      split at ended
      case isTrue empty => exact ⟨[], by simp, List.isEmpty_iff.mp empty⟩
      case isFalse =>
        split at ended
        case h_1 => cases ended
        case h_2 record rest read =>
          obtain ⟨first, storable, rfl, rfl⟩ := readRecord_eq_ok_iff.mp read
          have firstLength := first.length_write
          rw [List.length_append] at enough
          obtain ⟨others, storableOthers, rfl⟩ := ih (by omega) ended
          refine ⟨first :: others, ?_, List.flatMap_cons.symm⟩
          intro record member
          rcases List.mem_cons.mp member with rfl | later
          · exact storable
          · exact storableOthers record later

/-- Every record takes ten bytes at least. -/
theorem length_readRecords_le (archive : String) (fuel position : Nat) (bytes : Bytes) :
    10 * (readRecords archive fuel position bytes).records.length ≤ bytes.length := by
  induction fuel generalizing position bytes with
  | zero => exact Nat.zero_le _
  | succ fuel ih =>
      rw [readRecords]
      split
      case isTrue => exact Nat.zero_le _
      case isFalse =>
        split
        case h_1 => exact Nat.zero_le _
        case h_2 record rest read =>
          obtain ⟨first, -, rfl, -⟩ := readRecord_eq_ok_iff.mp read
          have firstLength := first.length_write
          have others := ih (record.offset + record.length) rest
          rw [List.length_append]
          simp only [List.length_cons]
          omega

/-- What a listed record tells of the stored one. -/
structure Shows (bytes : Bytes) (record : Record) (stored : StoredRecord) : Prop where
  name : record.name = Path.toArchive stored.name
  length : record.length = stored.data.length
  within : record.offset + record.length ≤ bytes.length
  data : bytes.window record.offset record.length = stored.data

theorem recordsFrom_shows (front : Bytes) (stored : List StoredRecord) :
    List.Forall₂ (Shows (front ++ stored.flatMap StoredRecord.write))
      (recordsFrom front.length stored) stored := by
  induction stored generalizing front with
  | nil => exact .nil
  | cons first others ih =>
      have row : front ++ (first :: others).flatMap StoredRecord.write =
          front ++ first.write ++ others.flatMap StoredRecord.write := by
        rw [List.flatMap_cons, List.append_assoc]
      have remaining := ih (front ++ first.write)
      rw [List.length_append] at remaining
      refine .cons ⟨rfl, rfl, ?_, ?_⟩ (row ▸ remaining)
      · rw [StoredRecord.shownAt_end, row, List.length_append, List.length_append]
        omega
      · apply Bytes.window_field
          (front ++ (LittleEndian.encode 2 (Utf8.encode first.name).length ++
            (Utf8.encode first.name ++ LittleEndian.encode 8 first.data.length)))
          first.data
        · simp only [row, StoredRecord.write, List.append_assoc]
          rfl
        · simp only [StoredRecord.shownAt, List.length_append, LittleEndian.length_encode]
          omega
        · rfl

theorem le_offset_of_mem_recordsFrom {stored : List StoredRecord} {position : Nat}
    {record : Record} (member : record ∈ recordsFrom position stored) :
    position ≤ record.offset := by
  induction stored generalizing position with
  | nil => cases member
  | cons first others ih =>
      rcases List.mem_cons.mp member with rfl | later
      · simp only [StoredRecord.shownAt]
        omega
      · have := ih later
        omega

theorem recordsFrom_increasing (position : Nat) (stored : List StoredRecord) :
    (recordsFrom position stored).Pairwise
      fun first second => first.offset + first.length ≤ second.offset := by
  induction stored generalizing position with
  | nil => exact .nil
  | cons first others ih =>
      refine .cons ?_ (ih _)
      intro record member
      rw [StoredRecord.shownAt_end]
      exact le_offset_of_mem_recordsFrom member

/-- The bytes are a header of version 1 and records, and nothing else. -/
structure Spells (bytes : Bytes) (minor : Nat) (stored : List StoredRecord) : Prop where
  supported : 2 ≤ minor ∧ minor ≤ 4
  storable : ∀ record ∈ stored, record.Storable
  row : bytes = [0x42, 0x54, 0x41, 0x52] ++ (LittleEndian.encode 2 1 ++
    (LittleEndian.encode 2 minor ++ stored.flatMap StoredRecord.write))

theorem openHeader_eq_ok_iff {source : Source} {minor : Nat} :
    openHeader source = .ok minor ↔ (2 ≤ minor ∧ minor ≤ 4) ∧
      ∃ rest, source.bytes = [0x42, 0x54, 0x41, 0x52] ++ (LittleEndian.encode 2 1 ++
        (LittleEndian.encode 2 minor ++ rest)) := by
  constructor
  · intro opened
    unfold openHeader at opened
    simp only at opened
    split at opened
    case isTrue => cases opened
    split at opened
    case isTrue => cases opened
    split at opened
    case isTrue => cases opened
    split at opened
    case isTrue => cases opened
    case isFalse long magicEq majorEq range =>
      cases opened
      have long : 8 ≤ source.bytes.length := Nat.le_of_not_lt long
      have field (offset : Nat) (within : offset + 2 ≤ 8) :
          (source.bytes.window offset 2).length = 2 := by
        rw [Bytes.window, List.length_take, List.length_drop]
        omega
      have major := LittleEndian.encode_decode_of_length (field 4 (by decide))
      have minor := LittleEndian.encode_decode_of_length (field 6 (by decide))
      rw [not_not.mp majorEq] at major
      rw [not_or, Nat.not_lt, Nat.not_lt] at range
      refine ⟨range,
        source.bytes.drop 8, ?_⟩
      have fourth := Bytes.window_append_drop source.bytes 4 2
      have sixth := Bytes.window_append_drop source.bytes 6 2
      calc
        source.bytes = source.bytes.take 4 ++ source.bytes.drop 4 :=
          (List.take_append_drop 4 _).symm
        _ = magic ++ (source.bytes.window 4 2 ++ (source.bytes.window 6 2 ++
            source.bytes.drop 8)) := by rw [sixth, fourth, not_not.mp magicEq]
        _ = _ := by
          rw [minor, ← major]
          rfl
  · rintro ⟨⟨least, greatest⟩, rest, row⟩
    have fits : minor < LittleEndian.bound 2 := by
      change minor < 65536
      omega
    have fourth : source.bytes.window 4 2 = LittleEndian.encode 2 1 :=
      Bytes.window_field _ _ row rfl rfl
    have sixth : source.bytes.window 6 2 = LittleEndian.encode 2 minor :=
      Bytes.window_field _ _ (row.trans (List.append_assoc ..).symm) rfl
        (LittleEndian.length_encode ..)
    have long : headerLength ≤ source.bytes.length := by
      rw [row]
      simp [headerLength]
      omega
    unfold openHeader
    simp only
    rw [if_neg (Nat.not_lt.mpr long), if_neg (by rw [row]; simp [magic]), fourth,
      if_neg (by decide), sixth, LittleEndian.decode_encode_of_lt fits, if_neg]
    exact not_or.mpr ⟨Nat.not_lt.mpr least, Nat.not_lt.mpr greatest⟩

theorem flatMap_write_inj {first second : List StoredRecord}
    (firstFits : ∀ record ∈ first, record.Storable)
    (secondFits : ∀ record ∈ second, record.Storable)
    (row : first.flatMap StoredRecord.write = second.flatMap StoredRecord.write) :
    first = second := by
  have nonempty (record : StoredRecord) (others : List StoredRecord) :
      (record :: others).flatMap StoredRecord.write ≠ [] := by
    intro empty
    have lengthEq := congrArg List.length empty
    have recordLength := record.length_write
    rw [List.flatMap_cons, List.length_append, List.length_nil] at lengthEq
    omega
  induction first generalizing second with
  | nil =>
      cases second with
      | nil => rfl
      | cons record others => exact absurd row.symm (nonempty record others)
  | cons record others ih =>
      cases second with
      | nil => exact absurd row (nonempty record others)
      | cons other rest =>
          rw [List.flatMap_cons, List.flatMap_cons] at row
          obtain ⟨rfl, behind⟩ := StoredRecord.write_append_inj (firstFits record (by simp))
            (secondFits other (by simp)) row
          rw [ih (fun value member => firstFits value (by simp [member]))
            (fun value member => secondFits value (by simp [member])) behind]

namespace Spells

variable {bytes : Bytes} {minor otherMinor : Nat} {stored others : List StoredRecord}

/-- A stream is written in one way only. -/
theorem unique (first : Spells bytes minor stored) (second : Spells bytes otherMinor others) :
    otherMinor = minor ∧ others = stored := by
  obtain ⟨least, greatest⟩ := first.supported
  obtain ⟨otherLeast, otherGreatest⟩ := second.supported
  have behindMajor := List.append_cancel_left
    (List.append_cancel_left (second.row.symm.trans first.row))
  obtain ⟨minorEq, row⟩ := List.append_inj behindMajor (by simp)
  refine ⟨LittleEndian.encode_inj ?_ ?_ minorEq,
    flatMap_write_inj second.storable first.storable row⟩
  · change otherMinor < 65536
    omega
  · change minor < 65536
    omega

variable {source : Source}

theorem openHeader_eq_ok (spelled : Spells source.bytes minor stored) :
    openHeader source = .ok minor :=
  openHeader_eq_ok_iff.mpr ⟨spelled.supported, _, spelled.row⟩

theorem drop_header (spelled : Spells source.bytes minor stored) :
    source.bytes.drop headerLength = stored.flatMap StoredRecord.write := by
  rw [spelled.row, ← List.append_assoc, ← List.append_assoc]
  exact Bytes.drop_append _ _ (by simp [headerLength])

theorem records_eq (spelled : Spells source.bytes minor stored) :
    records source = ⟨recordsFrom headerLength stored, none⟩ := by
  have enough : (stored.flatMap StoredRecord.write).length ≤ source.bytes.length := by
    rw [← spelled.drop_header, List.length_drop]
    omega
  rw [records, spelled.drop_header, readRecords_write spelled.storable enough]

theorem shows (spelled : Spells source.bytes minor stored) :
    List.Forall₂ (Shows source.bytes) (records source).records stored := by
  have shown := recordsFrom_shows (source.bytes.take headerLength) stored
  have long : headerLength ≤ source.bytes.length := by
    rw [spelled.row]
    simp [headerLength]
    omega
  rw [List.length_take_of_le long, ← spelled.drop_header, List.take_append_drop] at shown
  rw [spelled.records_eq]
  exact shown

end Spells

/-- The header is taken, and the records are read to the end of the stream. -/
structure Accepts (source : Source) : Prop where
  opened : ∃ minor, openHeader source = .ok minor
  ended : (records source).failure = none

theorem accepts_iff (source : Source) :
    Accepts source ↔ ∃ minor stored, Spells source.bytes minor stored := by
  constructor
  · rintro ⟨⟨minor, opened⟩, ended⟩
    obtain ⟨supported, rest, row⟩ := openHeader_eq_ok_iff.mp opened
    have enough : (source.bytes.drop headerLength).length ≤ source.bytes.length := by
      rw [List.length_drop]
      omega
    obtain ⟨stored, storable, written⟩ := exists_stored_of_readRecords enough ended
    have restEq : source.bytes.drop headerLength = rest := by
      rw [row, ← List.append_assoc, ← List.append_assoc]
      exact Bytes.drop_append _ _ (by simp [headerLength])
    exact ⟨minor, stored, supported, storable, by rw [row, ← restEq, written]⟩
  · rintro ⟨minor, stored, spelled⟩
    refine ⟨⟨minor, spelled.openHeader_eq_ok⟩, ?_⟩
    rw [spelled.records_eq]

/-- A stream is read to its end exactly when it is written as a header and records.  There is then
one way to write it so, and the records that are read show the stored ones in their order, in
windows one behind the other.  Any other stream is refused at the header or after as many records
as have room in it, and more steps would read no more. -/
theorem reads_exactly (source : Source) :
    (Accepts source ↔ ∃ minor stored, Spells source.bytes minor stored) ∧
    (∀ minor stored, Spells source.bytes minor stored →
      (∀ otherMinor others, Spells source.bytes otherMinor others →
        otherMinor = minor ∧ others = stored) ∧
      openHeader source = .ok minor ∧
      List.Forall₂ (Shows source.bytes) (records source).records stored ∧
      (records source).records.Pairwise fun first second =>
        first.offset + first.length ≤ second.offset) ∧
    ((¬ ∃ minor stored, Spells source.bytes minor stored) →
      (∃ failure, openHeader source = .error failure) ∨
        ∃ failure, (records source).failure = some failure) ∧
    10 * (records source).records.length ≤ source.bytes.length ∧
    ∀ steps, source.bytes.length ≤ steps →
      readRecords source.name steps headerLength (source.bytes.drop headerLength) =
        records source := by
  have shorter : (source.bytes.drop headerLength).length ≤ source.bytes.length := by
    rw [List.length_drop]
    omega
  refine ⟨accepts_iff source, fun minor stored spelled => ⟨fun _ _ => spelled.unique,
    spelled.openHeader_eq_ok, spelled.shows, ?_⟩, fun refused => ?_, ?_, fun steps enough => ?_⟩
  · rw [spelled.records_eq]
    exact recordsFrom_increasing headerLength stored
  · cases opened : openHeader source with
    | error failure => exact .inl ⟨failure, rfl⟩
    | ok minor =>
        refine .inr (Option.ne_none_iff_exists'.mp fun ended => refused ?_)
        exact (accepts_iff source).mp ⟨⟨minor, opened⟩, ended⟩
  · have room := length_readRecords_le source.name source.bytes.length headerLength
      (source.bytes.drop headerLength)
    exact Nat.le_trans room shorter
  · exact readRecords_enough shorter (Nat.le_trans shorter enough)

example :
    records ⟨"a.btar", [0x42, 0x54, 0x41, 0x52, 1, 0, 4, 0, 1, 0, 0x61, 2, 0, 0, 0, 0, 0, 0, 0, 7,
      8]⟩ = ⟨[⟨"a", 19, 2⟩], none⟩ := by
  decide

end Btar
end GameArchive
