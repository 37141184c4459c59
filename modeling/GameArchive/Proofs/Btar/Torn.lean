import GameArchive.Proofs.Btar.Writing

/-!
# Torn records

A writer announces the length of a record before it has seen its data.  Data that are shorter make
the call fail, but the announcement stays in the stream: the record is torn, and a reader makes it
whole with the bytes of the records behind it.  So a stream is read as the records of the calls that
succeeded exactly if none of them is torn, and up to the first torn record in any case.
-/

namespace GameArchive
namespace Btar

theorem Writer.length_recordHead (name : Bytes) (length : Nat) :
    (recordHead name length).length = 10 + name.length := by
  simp only [recordHead, List.length_append, LittleEndian.length_encode]
  omega

/-- A call of a writer: a name, an announced length, and the data of its source. -/
structure Call where
  name : String
  length : UInt64
  data : Bytes
  deriving Repr, DecidableEq

namespace Call

variable {call : Call}

def nameBytes (call : Call) : Bytes :=
  Utf8.encode (Path.toArchive call.name)

/-- The length of the name fits its field, but the source has less than was announced. -/
structure Torn (call : Call) : Prop where
  fits : call.nameBytes.length < UInt16.size
  short : call.data.length < call.length.toNat

instance : DecidablePred Torn := fun call =>
  decidable_of_iff
    (call.nameBytes.length < UInt16.size ∧ call.data.length < call.length.toNat)
    ⟨fun both => ⟨both.1, both.2⟩, fun torn => ⟨torn.fits, torn.short⟩⟩

/-- Why a call fails, if it does. -/
def failure? (call : Call) : Option IoError :=
  if UInt16.size ≤ call.nameBytes.length then some (.longRecordName (Path.toArchive call.name))
  else if call.data.length < call.length.toNat then
    some (.shortRecord (Path.toArchive call.name) call.length.toNat call.data.length)
  else none

def succeeds (call : Call) : Bool :=
  call.failure?.isNone

/-- What a call puts into the stream, whether it fails or not. -/
def written (call : Call) : Bytes :=
  if UInt16.size ≤ call.nameBytes.length then []
  else Writer.recordHead call.nameBytes call.length.toNat ++ call.data.take call.length.toNat

/-- The record that a call announces when it begins at a position. -/
def announcedAt (call : Call) (position : Nat) : Record where
  name := Path.toArchive call.name
  offset := position + 2 + call.nameBytes.length + 8
  length := call.length.toNat

/-- What a torn record, which begins at a position, is read as when some bytes stand behind it: it
takes as many of them as it lacks, and what is left is read on. -/
def readTorn (archive : String) (position : Nat) (call : Call) (behind : Bytes) : Listing :=
  let lacking := call.length.toNat - call.data.length
  if behind.length < lacking then
    ⟨[], some (.truncated archive (some (Path.toArchive call.name)) call.length.toNat
      (call.data.length + behind.length))⟩
  else
    let others := readRecords archive behind.length
      ((call.announcedAt position).offset + call.length.toNat) (behind.drop lacking)
    { others with records := call.announcedAt position :: others.records }

/-! ## Whole records -/

/-- A call that puts the record into the stream that it announces. -/
structure Whole (call : Call) : Prop where
  fits : call.nameBytes.length < UInt16.size
  enough : call.length.toNat ≤ call.data.length

theorem succeeds_iff : call.succeeds ↔ call.Whole := by
  unfold succeeds failure?
  by_cases long : UInt16.size ≤ call.nameBytes.length
  · rw [if_pos long]
    exact iff_of_false nofun fun whole => Nat.not_lt_of_le long whole.fits
  · rw [if_neg long]
    by_cases short : call.data.length < call.length.toNat
    · rw [if_pos short]
      exact iff_of_false nofun fun whole => Nat.not_lt_of_le whole.enough short
    · rw [if_neg short]
      exact iff_of_true rfl ⟨Nat.lt_of_not_le long, Nat.le_of_not_lt short⟩

def stored (call : Call) : StoredRecord where
  name := Path.toArchive call.name
  data := call.data.take call.length.toNat

theorem offset_announcedAt (position : Nat) :
    (call.announcedAt position).offset =
      position + (Writer.recordHead call.nameBytes call.length.toNat).length := by
  rw [Writer.length_recordHead]
  simp only [announcedAt]
  omega

/-- A call whose record is not torn is whole, or leaves the stream as it is. -/
theorem whole_or_refused (untorn : ¬ call.Torn) :
    call.Whole ∨ call.written = [] ∧ ¬ call.succeeds := by
  by_cases long : UInt16.size ≤ call.nameBytes.length
  · refine .inr ⟨if_pos long, fun none => ?_⟩
    exact Nat.not_lt_of_le long (succeeds_iff.mp none).fits
  · have fits := Nat.lt_of_not_le long
    exact .inl ⟨fits, Nat.le_of_not_lt fun short => untorn ⟨fits, short⟩⟩

namespace Whole

variable (whole : call.Whole)
include whole

theorem length_stored_data : call.stored.data.length = call.length.toNat :=
  List.length_take_of_le whole.enough

theorem storable : call.stored.Storable where
  shortName := whole.fits
  shortData := by
    rw [whole.length_stored_data]
    exact call.length.toNat_lt

theorem written_eq : call.written = call.stored.write := by
  have lengthEq : (call.data.take call.length.toNat).length = call.length.toNat :=
    whole.length_stored_data
  rw [written, if_neg (Nat.not_le_of_lt whole.fits)]
  simp only [Writer.recordHead, StoredRecord.write, stored, lengthEq, List.append_assoc]
  rfl

theorem shownAt_stored (position : Nat) :
    call.stored.shownAt position = call.announcedAt position := by
  simp only [StoredRecord.shownAt, announcedAt, whole.length_stored_data]
  exact congrArg (Record.mk · _ _) (Path.toArchive_toArchive call.name)

end Whole

/-- How a record of a stream shows the data of a call. -/
structure ShownBy (bytes : Bytes) (record : Record) (call : Call) : Prop where
  name : record.name = Path.toArchive call.name
  length : record.length = call.length.toNat
  within : record.offset + record.length ≤ bytes.length
  data : bytes.window record.offset record.length = call.data.take call.length.toNat

end Call

theorem exists_first_torn {calls : List Call} (some : ∃ call ∈ calls, call.Torn) :
    ∃ before torn behind, calls = before ++ torn :: behind ∧ (∀ call ∈ before, ¬ call.Torn) ∧
      torn.Torn := by
  induction calls with
  | nil => simp at some
  | cons call others ih =>
      by_cases here : call.Torn
      · exact ⟨[], call, others, rfl, nofun, here⟩
      · have later : ∃ call ∈ others, call.Torn := by simpa [here] using some
        obtain ⟨before, torn, behind, rfl, untorn, isTorn⟩ := ih later
        exact ⟨call :: before, torn, behind, rfl, List.forall_mem_cons.mpr ⟨here, untorn⟩, isTorn⟩

/-- The records of the calls that succeed among some calls, of which the first begins at a
position. -/
def placed : (position : Nat) → List Call → List Record
  | _, [] => []
  | position, call :: others =>
      let behind := placed (position + call.written.length) others
      if call.succeeds then call.announcedAt position :: behind else behind

theorem placed_append (position : Nat) (first second : List Call) :
    placed position (first ++ second) =
      placed position first ++ placed (position + (first.flatMap Call.written).length) second := by
  induction first generalizing position with
  | nil => rfl
  | cons call others ih =>
      rw [List.cons_append, placed, placed, ih, List.flatMap_cons, List.length_append,
        Nat.add_assoc]
      split <;> rfl

theorem le_offset_of_mem_placed {calls : List Call} {position : Nat} {record : Record}
    (member : record ∈ placed position calls) : position + 10 ≤ record.offset := by
  induction calls generalizing position with
  | nil => cases member
  | cons call others ih =>
      rw [placed] at member
      have later : record ∈ placed (position + call.written.length) others →
          position + 10 ≤ record.offset := fun among => by
        have := ih among
        omega
      split at member
      · rcases List.mem_cons.mp member with rfl | among
        · simp only [Call.announcedAt]
          omega
        · exact later among
      · exact later member

/-- Wherever torn records stand between them, the placed records show the data of their calls. -/
theorem placed_shows (front : Bytes) (calls : List Call) :
    List.Forall₂ (Call.ShownBy (front ++ calls.flatMap Call.written)) (placed front.length calls)
      (calls.filter Call.succeeds) := by
  induction calls generalizing front with
  | nil => exact .nil
  | cons call others ih =>
      have row : front ++ (call :: others).flatMap Call.written =
          front ++ call.written ++ others.flatMap Call.written := by
        rw [List.flatMap_cons, List.append_assoc]
      have remaining := ih (front ++ call.written)
      rw [List.length_append, ← row] at remaining
      rw [placed]
      by_cases succeeds : call.succeeds
      · have whole := Call.succeeds_iff.mp succeeds
        rw [if_pos succeeds, List.filter_cons_of_pos succeeds]
        have stop := StoredRecord.shownAt_end call.stored front.length
        rw [whole.shownAt_stored, ← whole.written_eq] at stop
        refine .cons ⟨rfl, rfl, ?_, ?_⟩ remaining
        · rw [stop, row, List.length_append, List.length_append]
          omega
        · apply Bytes.window_field
            (front ++ Writer.recordHead call.nameBytes call.length.toNat)
            (call.data.take call.length.toNat)
          · rw [row, Call.written, if_neg (Nat.not_le_of_lt whole.fits)]
            simp only [List.append_assoc]
            rfl
          · rw [call.offset_announcedAt, List.length_append]
          · exact whole.length_stored_data
      · rw [if_neg succeeds, List.filter_cons_of_neg succeeds]
        exact remaining

/-- Calls without a torn record among them are read as their records. -/
theorem readRecords_written (archive : String) {calls : List Call}
    (untorn : ∀ call ∈ calls, ¬ call.Torn) (rest : Bytes) {fuel position : Nat}
    (enough : (calls.flatMap Call.written ++ rest).length ≤ fuel) :
    readRecords archive fuel position (calls.flatMap Call.written ++ rest) =
      let others := readRecords archive rest.length
        (position + (calls.flatMap Call.written).length) rest
      { others with records := placed position calls ++ others.records } := by
  induction calls generalizing fuel position with
  | nil => exact readRecords_enough (Nat.le_refl _) enough
  | cons call others ih =>
      obtain ⟨here, behind⟩ := List.forall_mem_cons.mp untorn
      rw [List.flatMap_cons, List.append_assoc] at enough ⊢
      rcases call.whole_or_refused here with whole | ⟨nothing, refused⟩
      · have read : readRecord archive position
            (call.written ++ (others.flatMap Call.written ++ rest)) =
              .ok (call.announcedAt position, others.flatMap Call.written ++ rest) := by
          rw [whole.written_eq, ← whole.shownAt_stored]
          exact readRecord_eq_ok_iff.mpr ⟨call.stored, whole.storable, rfl, rfl⟩
        have stop : (call.announcedAt position).offset + (call.announcedAt position).length =
            position + call.written.length := by
          rw [← whole.shownAt_stored, StoredRecord.shownAt_end, whole.written_eq]
        rw [readRecords_of_readRecord read enough, stop, ih behind (Nat.le_refl _), placed,
          if_pos (Call.succeeds_iff.mpr whole), List.length_append, Nat.add_assoc]
        rfl
      -- A refused call leaves nothing behind, so that the next one begins where it did.
      · rw [nothing, List.nil_append] at enough ⊢
        rw [ih behind enough, placed, if_neg refused, nothing]
        rfl

namespace Call.Torn

variable {call : Call} (torn : call.Torn)
include torn

theorem written_eq :
    call.written = Writer.recordHead call.nameBytes call.length.toNat ++ call.data := by
  rw [written, if_neg (Nat.not_le_of_lt torn.fits),
    List.take_of_length_le (Nat.le_of_lt torn.short)]

theorem readRecords_written (archive : String) (behind : Bytes) {fuel position : Nat}
    (enough : (call.written ++ behind).length ≤ fuel) :
    readRecords archive fuel position (call.written ++ behind) =
      call.readTorn archive position behind := by
  have read := readRecord_recordHead archive position torn.fits call.length.toNat_lt
    (call.data ++ behind)
  rw [Path.toArchive_toArchive] at read
  change readRecord archive position
    (Writer.recordHead call.nameBytes call.length.toNat ++ (call.data ++ behind)) =
      if _ then _ else .ok (call.announcedAt position, _) at read
  have short := torn.short
  have headLength := Writer.length_recordHead call.nameBytes call.length.toNat
  rw [torn.written_eq, List.append_assoc] at enough ⊢
  unfold readTorn
  by_cases little : behind.length < call.length.toNat - call.data.length
  · rw [if_pos (by rw [List.length_append]; omega), List.length_append] at read
    rw [List.length_append] at enough
    obtain ⟨steps, rfl⟩ := Nat.exists_eq_succ_of_ne_zero (show fuel ≠ 0 by omega)
    rw [if_pos little, readRecords, if_neg, read]
    rw [List.isEmpty_iff_length_eq_zero, List.length_append]
    omega
  · rw [if_neg (by rw [List.length_append]; omega)] at read
    have rest : (call.data ++ behind).drop call.length.toNat =
        behind.drop (call.length.toNat - call.data.length) := by
      rw [List.drop_append, List.drop_of_length_le (Nat.le_of_lt short), List.nil_append]
    rw [rest] at read
    rw [if_neg little, readRecords_of_readRecord read enough]
    simp only
    rw [readRecords_enough (show _ ≤ behind.length by rw [List.length_drop]; omega)
      (Nat.le_refl _)]
    rfl

theorem window_announced (front behind : Bytes)
    (enough : call.length.toNat - call.data.length ≤ behind.length) :
    (front ++ (call.written ++ behind)).window (call.announcedAt front.length).offset
        call.length.toNat =
      call.data ++ behind.take (call.length.toNat - call.data.length) := by
  have short := torn.short
  have row : front ++ (call.written ++ behind) =
      front ++ Writer.recordHead call.nameBytes call.length.toNat ++
        (call.data ++ behind.take (call.length.toNat - call.data.length) ++
          behind.drop (call.length.toNat - call.data.length)) := by
    rw [torn.written_eq]
    simp only [List.append_assoc, List.take_append_drop]
  apply Bytes.window_field _ _ row
  · rw [call.offset_announcedAt, List.length_append]
  · rw [List.length_append, List.length_take]
    omega

theorem not_succeeds : ¬ call.succeeds := fun succeeds =>
  Nat.not_lt_of_le (succeeds_iff.mp succeeds).enough torn.short

theorem not_mem_placed (position : Nat) (behind : List Call) :
    call.announcedAt position ∉ placed (position + call.written.length) behind := by
  intro member
  have later := le_offset_of_mem_placed member
  rw [call.offset_announcedAt, torn.written_eq, List.length_append] at later
  omega

end Call.Torn

namespace Writer

theorem add_call (writer : Writer) (call : Call) :
    writer.add call.name call.length.toNat call.data =
      (⟨writer.bytes ++ call.written,
        writer.count + (if call.succeeds then 1 else 0)⟩, call.failure?) := by
  unfold add Call.succeeds Call.written Call.failure? Call.nameBytes
  simp only
  split
  · simp
  · by_cases short : call.data.length < call.length.toNat
    · have copied : (call.data.take call.length.toNat).length = call.data.length := by
        rw [List.length_take]
        omega
      rw [copied, if_neg (by omega), if_pos short]
      simp
    · have copied : (call.data.take call.length.toNat).length = call.length.toNat := by
        rw [List.length_take]
        omega
      rw [copied, if_pos rfl, if_neg short]
      simp

/-- Calls a writer once for each of some calls, and tells how each of them ended. -/
def callAll (writer : Writer) : List Call → Writer × List (Option IoError)
  | [] => (writer, [])
  | call :: others =>
      let (next, failure?) := writer.add call.name call.length.toNat call.data
      let (last, failures) := callAll next others
      (last, failure? :: failures)

theorem callAll_eq (writer : Writer) (calls : List Call) :
    writer.callAll calls =
      (⟨writer.bytes ++ calls.flatMap Call.written,
        writer.count + (calls.filter Call.succeeds).length⟩, calls.map Call.failure?) := by
  induction calls generalizing writer with
  | nil => simp [callAll]
  | cons call others ih =>
      rw [callAll, add_call]
      simp only [ih, List.map_cons, List.flatMap_cons, List.append_assoc]
      by_cases succeeds : call.succeeds
      · simp [succeeds, Nat.add_assoc, Nat.add_comm 1]
      · simp [succeeds]

/-- Where some calls come to a torn record for the first time, the stream is read as their records
and as what the torn record is read as. -/
theorem records_of_torn (archive : String) {before behind : List Call} {torn : Call}
    (untorn : ∀ call ∈ before, ¬ call.Torn) (isTorn : torn.Torn) :
    records ⟨archive, start.bytes ++ (before ++ torn :: behind).flatMap Call.written⟩ =
      let listing := torn.readTorn archive (headerLength + (before.flatMap Call.written).length)
        (behind.flatMap Call.written)
      { listing with records := placed headerLength before ++ listing.records } := by
  have dropped : (start.bytes ++ (before ++ torn :: behind).flatMap Call.written).drop
      headerLength = before.flatMap Call.written ++
        (torn.written ++ behind.flatMap Call.written) := by
    rw [List.flatMap_append, List.flatMap_cons]
    exact Bytes.drop_append _ _ rfl
  have room : (before.flatMap Call.written ++
      (torn.written ++ behind.flatMap Call.written)).length ≤
        (start.bytes ++ (before ++ torn :: behind).flatMap Call.written).length := by
    rw [← dropped, List.length_drop]
    omega
  rw [records, dropped, readRecords_written archive untorn _ room,
    isTorn.readRecords_written archive _ (Nat.le_refl _)]

theorem records_of_untorn (archive : String) {calls : List Call}
    (untorn : ∀ call ∈ calls, ¬ call.Torn) :
    records ⟨archive, start.bytes ++ calls.flatMap Call.written⟩ =
      ⟨placed headerLength calls, none⟩ := by
  have dropped : (start.bytes ++ calls.flatMap Call.written).drop headerLength =
      calls.flatMap Call.written ++ [] := by
    rw [List.append_nil]
    exact Bytes.drop_append _ _ rfl
  have room : (calls.flatMap Call.written ++ []).length ≤
      (start.bytes ++ calls.flatMap Call.written).length := by
    rw [← dropped, List.length_drop]
    omega
  rw [records, dropped, readRecords_written archive untorn [] room]
  exact congrArg (Listing.mk · none) (List.append_nil _)

/-- A torn record is never taken for the end of the stream, nor for what stands behind it. -/
theorem records_of_torn_ne (archive : String) {before behind : List Call} {torn : Call}
    (untorn : ∀ call ∈ before, ¬ call.Torn) (isTorn : torn.Torn) :
    records ⟨archive, start.bytes ++ (before ++ torn :: behind).flatMap Call.written⟩ ≠
      ⟨placed headerLength (before ++ torn :: behind), none⟩ := by
  rw [records_of_torn archive untorn isTorn]
  unfold Call.readTorn
  simp only
  split
  · intro readBack
    cases congrArg Listing.failure readBack
  · intro readBack
    have listed := congrArg Listing.records readBack
    simp only at listed
    -- The torn record is listed first, but the records behind it are placed farther back.
    rw [placed_append, placed, if_neg isTorn.not_succeeds] at listed
    apply isTorn.not_mem_placed (headerLength + (before.flatMap Call.written).length) behind
    rw [← List.append_cancel_left listed]
    exact List.mem_cons_self ..

/-- The writer counts the calls that succeed, and the records of these show their data.  They are
what the finished stream is read as exactly if no call has left a torn record.  If one has, the
stream is read as the records before the first torn one, which is then taken for a record with the
bytes behind it for the rest of its data. -/
theorem reads_back_iff_untorn (archive : String) (calls : List Call) :
    let (writer, failures) := start.callAll calls
    let source : Source := ⟨archive, writer.bytes⟩
    failures = calls.map Call.failure? ∧
    writer.count = (failures.filter Option.isNone).length ∧
    openHeader source = .ok 4 ∧
    List.Forall₂ (Call.ShownBy source.bytes) (placed headerLength calls)
      (calls.filter Call.succeeds) ∧
    (records source = ⟨placed headerLength calls, none⟩ ↔ ∀ call ∈ calls, ¬ call.Torn) ∧
    ∀ before torn behind, calls = before ++ torn :: behind → (∀ call ∈ before, ¬ call.Torn) →
      torn.Torn →
      let position := headerLength + (before.flatMap Call.written).length
      let rest := behind.flatMap Call.written
      let lacking := torn.length.toNat - torn.data.length
      records source =
        (let listing := torn.readTorn archive position rest
        { listing with records := placed headerLength before ++ listing.records }) ∧
      (lacking ≤ rest.length →
        source.bytes.window (torn.announcedAt position).offset torn.length.toNat =
          torn.data ++ rest.take lacking) := by
  rw [callAll_eq]
  simp only
  refine ⟨trivial, ?_, ?_, placed_shows start.bytes calls, ⟨?_, ?_⟩, ?_⟩
  · rw [List.filter_map, List.length_map]
    exact Nat.zero_add _
  · exact openHeader_eq_ok_iff.mpr ⟨by decide, _, rfl⟩
  · intro readBack call member isTorn
    obtain ⟨before, torn, behind, rfl, untorn, tears⟩ := exists_first_torn ⟨call, member, isTorn⟩
    exact records_of_torn_ne archive untorn tears readBack
  · exact records_of_untorn archive
  · rintro before torn behind rfl untorn isTorn
    refine ⟨records_of_torn archive untorn isTorn, fun enough => ?_⟩
    have shown := isTorn.window_announced (start.bytes ++ before.flatMap Call.written) _ enough
    rw [List.length_append, List.append_assoc, ← List.flatMap_cons, ← List.flatMap_append] at shown
    exact shown

theorem reads_back_iff_untorn_shortLast :
    let calls : List Call := [⟨"dir/x.txt", 3, [0x78, 0x79, 0x7A]⟩, ⟨"short.txt", 5, [0x61, 0x62]⟩]
    let written := (start.callAll calls).1
    written.count = 1 ∧
      records ⟨"a.btar", written.bytes⟩ =
        ⟨[⟨"dir\\x.txt", 27, 3⟩], some (.truncated "a.btar" (some "short.txt") 5 2)⟩ := by
  intro calls written
  obtain ⟨-, count, -, -, -, tears⟩ := reads_back_iff_untorn "a.btar" calls
  refine ⟨count.trans (by decide +kernel), ?_⟩
  obtain ⟨read, -⟩ := tears [⟨"dir/x.txt", 3, [0x78, 0x79, 0x7A]⟩] ⟨"short.txt", 5, [0x61, 0x62]⟩ []
    rfl (by decide +kernel) (by decide +kernel)
  exact read.trans (by decide +kernel)

/-- A torn record swallows the start of the one behind it, whose call succeeds. -/
theorem record_lost_behind_torn :
    let calls : List Call := [⟨"a.txt", 2, [0x78]⟩, ⟨"b.txt", 1, [0x79]⟩]
    let (written, failures) := start.callAll calls
    failures = [some (.shortRecord "a.txt" 2 1), none] ∧ written.count = 1 ∧
      records ⟨"a.btar", written.bytes⟩ =
        ⟨[⟨"a.txt", 23, 2⟩], some (.truncated "a.btar" none 25088 13)⟩ := by
  decide +kernel

end Writer
end Btar
end GameArchive
