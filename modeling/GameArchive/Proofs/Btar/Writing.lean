import GameArchive.Btar.Writer
import GameArchive.Proofs.Btar.Grammar
import GameArchive.Proofs.Path.Parts

/-!
# Streams read back after they are written

A writer puts records one behind the other, and a record whose name is too long for its length field
leaves the stream as it is.  So a stream to which records were added, in whatever number and with
whatever refusals in between, is spelled as a header and the records that were not refused, and it
is read as these.
-/

namespace GameArchive
namespace Btar

/-- A record that is to be written: a name, an announced length, and data that are long enough. -/
structure Addition where
  name : String
  length : UInt64
  data : Bytes
  enough : length.toNat ≤ data.length

namespace Addition

variable {addition : Addition}

/-- The length of the name in its archive form fits its field. -/
def Fits (addition : Addition) : Prop :=
  (Utf8.encode (Path.toArchive addition.name)).length ≤ 65535

instance : DecidablePred Fits := fun addition =>
  inferInstanceAs (Decidable ((Utf8.encode (Path.toArchive addition.name)).length ≤ 65535))

/-- The failure to add the record, if its name does not fit. -/
def refusal? (addition : Addition) : Option IoError :=
  if addition.Fits then none else some (.longRecordName (Path.toArchive addition.name))

theorem refusal?_isSome_iff : addition.refusal?.isSome ↔
    65535 < (Utf8.encode (Path.toArchive addition.name)).length := by
  by_cases fits : addition.Fits
  · rw [refusal?, if_pos fits]
    exact iff_of_false nofun (Nat.not_lt_of_le fits)
  · rw [refusal?, if_neg fits]
    exact iff_of_true rfl (Nat.lt_of_not_le fits)

/-- The record as it stands in the stream. -/
def stored (addition : Addition) : StoredRecord where
  name := Path.toArchive addition.name
  data := addition.data.take addition.length.toNat

theorem length_stored_data : addition.stored.data.length = addition.length.toNat :=
  List.length_take_of_le addition.enough

theorem Fits.storable (fits : addition.Fits) : addition.stored.Storable where
  shortName := Nat.lt_succ_of_le fits
  shortData := by
    rw [length_stored_data]
    exact addition.length.toNat_lt

/-- How a record of a stream shows what was added. -/
structure ShownBy (bytes : Bytes) (record : Record) (addition : Addition) : Prop where
  name : record.name = Path.toArchive addition.name
  length : record.length = addition.length.toNat
  within : record.offset + record.length ≤ bytes.length
  data : bytes.window record.offset record.length = addition.data.take addition.length.toNat

theorem shownBy_of_shows {bytes : Bytes} {record : Record}
    (shows : Shows bytes record addition.stored) : ShownBy bytes record addition where
  name := shows.name.trans (Path.toArchive_toArchive addition.name)
  length := shows.length.trans length_stored_data
  within := shows.within
  data := shows.data

end Addition

namespace Writer

variable (writer : Writer)

theorem add_of_fits {name : String} {length : Nat} {data : Bytes}
    (short : (Utf8.encode (Path.toArchive name)).length < UInt16.size)
    (enough : length ≤ data.length) :
    writer.add name length data =
      (⟨writer.bytes ++ (StoredRecord.mk (Path.toArchive name) (data.take length)).write,
        writer.count + 1⟩, none) := by
  have copied : (data.take length).length = length := List.length_take_of_le enough
  rw [add]
  simp only
  rw [if_neg (Nat.not_le_of_lt short), if_pos copied]
  simp only [recordHead, StoredRecord.write, copied, List.append_assoc]

/-- Adds records one after the other, and tells how each of the additions ended. -/
def addAll (writer : Writer) : List Addition → Writer × List (Option IoError)
  | [] => (writer, [])
  | addition :: others =>
      let (next, failure?) :=
        writer.add addition.name addition.length.toNat addition.data
      let (last, failures) := addAll next others
      (last, failure? :: failures)

theorem add_addition (addition : Addition) :
    writer.add addition.name addition.length.toNat addition.data =
      (if addition.Fits then ⟨writer.bytes ++ addition.stored.write, writer.count + 1⟩ else writer,
        addition.refusal?) := by
  by_cases fits : addition.Fits
  · rw [add_of_fits writer fits.storable.shortName addition.enough, if_pos fits,
      Addition.refusal?, if_pos fits]
    rfl
  · have long : UInt16.size ≤ (Utf8.encode (Path.toArchive addition.name)).length :=
      Nat.lt_of_not_le fits
    rw [add, if_neg fits, Addition.refusal?, if_neg fits]
    simp only
    rw [if_pos long]

/-- A run of additions appends the records that fit, and nothing else. -/
theorem addAll_eq (additions : List Addition) :
    writer.addAll additions =
      (⟨writer.bytes ++
          ((additions.filter (·.Fits)).map Addition.stored).flatMap StoredRecord.write,
        writer.count + (additions.filter (·.Fits)).length⟩, additions.map Addition.refusal?) := by
  induction additions generalizing writer with
  | nil => simp [addAll]
  | cons addition others ih =>
      rw [addAll, add_addition]
      simp only [ih, List.map_cons]
      by_cases fits : addition.Fits
      · rw [if_pos fits, List.filter_cons_of_pos (by simpa using fits)]
        simp only [List.map_cons, List.flatMap_cons, List.length_cons, List.append_assoc,
          Nat.add_assoc, Nat.add_comm 1]
      · rw [if_neg fits, List.filter_cons_of_neg (by simpa using fits)]

theorem spells_start {stored : List StoredRecord} (storable : ∀ record ∈ stored, record.Storable) :
    Spells (start.bytes ++ stored.flatMap StoredRecord.write) 4 stored where
  supported := by decide
  storable := storable
  row := rfl

/-- An addition fails exactly when the name in its archive form takes more than 65535 bytes, and the
stream is then what it would be without it.  The finished stream is opened with minor version 4, and
reading it to the end gives the other additions in their order, which are as many as the writer has
counted: each with its name in the archive form and a window that holds as much of its data as was
announced. -/
theorem addAll_reads_back (archive : String) (additions : List Addition) :
    let (writer, failures) := start.addAll additions
    let written := additions.filter (·.Fits)
    let source : Source := ⟨archive, writer.bytes⟩
    List.Forall₂ (fun failure? addition => failure?.isSome ↔
      65535 < (Utf8.encode (Path.toArchive addition.name)).length) failures additions ∧
    writer = (start.addAll written).1 ∧
    openHeader source = .ok 4 ∧
    List.Forall₂ (Addition.ShownBy source.bytes) (records source).records written ∧
    (records source).failure = none ∧
    (∀ steps, source.bytes.length ≤ steps →
      readRecords archive steps headerLength (source.bytes.drop headerLength) = records source) ∧
    writer.count = written.length := by
  rw [addAll_eq]
  simp only
  have storable : ∀ record ∈ (additions.filter (·.Fits)).map Addition.stored, record.Storable := by
    intro record member
    obtain ⟨addition, chosen, rfl⟩ := List.mem_map.mp member
    exact Addition.Fits.storable (of_decide_eq_true (List.mem_filter.mp chosen).2)
  let source : Source := ⟨archive, start.bytes ++
    ((additions.filter (·.Fits)).map Addition.stored).flatMap StoredRecord.write⟩
  have spelled : Spells source.bytes 4 _ := spells_start storable
  refine ⟨?_, ?_, ?_, ?_, ?_, ?_, ?_⟩
  · rw [List.forall₂_map_left_iff, List.forall₂_same]
    exact fun addition _ => Addition.refusal?_isSome_iff
  · rw [addAll_eq, List.filter_filter]
    simp only [Bool.and_self]
  · exact spelled.openHeader_eq_ok
  · have shown := spelled.shows
    rw [List.forall₂_map_right_iff] at shown
    exact shown.imp fun _ _ => Addition.shownBy_of_shows
  · exact congrArg Listing.failure spelled.records_eq
  · exact (reads_exactly source).2.2.2.2
  · exact Nat.zero_add _

example :
    let written := (start.addAll [⟨"/", 0, [], by decide⟩, ⟨"x/y", 1, [7, 8], by decide⟩]).1
    records ⟨"a.btar", written.bytes⟩ = ⟨[⟨"", 18, 0⟩, ⟨"x\\y", 31, 1⟩], none⟩ := by
  decide +kernel

end Writer
end Btar
end GameArchive
