import GameArchive.Proofs.Btar.Grammar
import GameArchive.Proofs.Extraction.Placement
import GameArchive.Proofs.Repetition
import GameArchive.Proofs.Window

/-!
# Viewing the records of a BTAR

A record is seen through a window into the stream, and it is moved by a copy of its own.  Both give
the same bytes, however many of them each read asks for.
-/

namespace GameArchive

open Handle (Reply)
open Window (Contained Over)

/-- What is asked of a window stays inside it, is refused before its start, and is otherwise
answered as by the bytes of the window on their own. -/
structure Window.Faithful (inner : Stream) (start length : UInt64) (calls : List Handle.Call) :
    Prop where
  confined : ∀ reply ∈ (Handle.part (ofStream inner start length)).replies calls,
    reply.Within (inner.bytes.window start.toNat length.toNat)
  refused : ∀ origin, let handle := (Handle.part (ofStream inner start length)).after calls
    handle.target origin < 0 → ∃ failure, failure.kind = .invalidInput ∧
      handle.answer (.seek origin) = (.error failure, handle)
  /-- The limit is `2 ^ 64 - 1` in memory.  In a file it is smaller, and seeks beyond it fail. -/
  alone : (Handle.part (ofStream inner start length)).StaysBelow start.toNat inner.limit.toNat
      calls →
    ∃ granted, List.Forall₂ Handle.Call.GrantedAs calls granted ∧
      (inner.grants = [] → granted = calls) ∧
      ((Handle.part (ofStream inner start length)).replies calls).map Reply.seen =
        ((Handle.whole (.ofBytes (inner.bytes.window start.toNat length.toNat))).replies
          granted).map Reply.seen

theorem Window.faithful {inner : Stream} {start length : UInt64}
    (contained : Contained inner start length) (calls : List Handle.Call) :
    Faithful inner start length calls := by
  have lies := over_ofStream inner start length
  refine ⟨Handle.replies_within lies contained calls, fun origin negative => ?_,
    Handle.replies_alone lies contained calls⟩
  obtain ⟨window, leads, -⟩ := Handle.exists_after lies contained calls
  rw [leads] at negative ⊢
  refine ⟨.seekBeforeWindow, rfl, ?_⟩
  simp [Handle.answer, Handle.seek, seek_of_negative negative, Except.map]

/-- What reads of a window give, if it shows `contents`. -/
structure Window.Reads (inner : Stream) (start length : UInt64) (contents : Bytes)
    (counts : List Nat) : Prop where
  first : ∃ count, (Handle.part (ofStream inner start length)).readEach counts =
    contents.take count
  prompt : inner.grants = [] →
    (Handle.part (ofStream inner start length)).readEach counts =
      contents.take (counts.foldr (· + ·) 0)
  /-- Every read that is not asked for nothing makes progress. -/
  enough : (∀ count ∈ counts, 0 < count) → contents.length ≤ counts.length →
    (Handle.part (ofStream inner start length)).readEach counts = contents
  /-- A read that gives nothing comes only after everything. -/
  ended : ∀ more, (((Handle.part (ofStream inner start length)).after
      (counts.map .read)).readOnce (more + 1)).1 = [] →
    (Handle.part (ofStream inner start length)).readEach counts = contents
  fully : ∀ count, ((Handle.part (ofStream inner start length)).read count).1 =
    contents.take count
  rest : (Handle.part (ofStream inner start length)).rest = contents

theorem Window.reads {inner : Stream} {start length : UInt64}
    (contained : Contained inner start length) (counts : List Nat) :
    Reads inner start length (inner.bytes.window start.toNat length.toNat) counts := by
  obtain ⟨last, leads, lies, ends, taken, prompt, progress⟩ :=
    Handle.readEach_part (over_ofStream inner start length) contained counts
  have fromStart : (ofStream inner start length).position.toNat = 0 := rfl
  rw [fromStart, List.drop_zero] at taken prompt progress
  rw [fromStart, Nat.zero_add] at ends
  have inside := contained.inside
  have shownLength := contained.length_window
  have fully (count : Nat) : ((Handle.part (ofStream inner start length)).read count).1 =
      (inner.bytes.window start.toNat length.toNat).take count := by
    have read := (over_ofStream inner start length).readFully contained
      (inner.bytes.length + 1) count
    rw [fromStart, List.drop_zero, shownLength] at read
    exact read (by omega)
  refine ⟨⟨_, taken⟩, prompt, fun positive enough => ?_, fun more nothing => ?_, fully, ?_⟩
  · have all := progress positive
    rw [taken, List.take_of_length_le (by omega)]
  · obtain ⟨-, -, granted, ⟨least, -⟩, -, read⟩ := lies.read contained (more + 1)
    have none : (last.read (more + 1)).1 = [] := by
      rw [leads] at nothing
      exact nothing
    rw [none] at read
    have exhausted : (inner.bytes.window start.toNat length.toNat).length ≤
        last.position.toNat := by
      have empty := congrArg List.length read
      rw [List.length_take, List.length_drop, List.length_nil] at empty
      omega
    rw [taken, List.take_of_length_le (by omega)]
  · rw [Handle.rest, fully]
    apply List.take_of_length_le
    change _ ≤ inner.bytes.length
    omega

namespace Btar

/-- Opening a record and moving it both give `contents`. -/
structure Record.Delivers (source : Source) (record : Record) (contents : Bytes) : Prop where
  length : contents.length = record.length
  opened : ∀ modified tree, (Entry.btar source record modified).handle tree =
    .ok (.part (.ofStream (.ofBytes source.bytes) (UInt64.ofNat record.offset)
      (UInt64.ofNat record.length)))
  read : ∀ inner : Stream, inner.bytes = source.bytes →
    source.bytes.length ≤ inner.limit.toNat → ∀ counts,
      Window.Reads inner (UInt64.ofNat record.offset) (UInt64.ofNat record.length) contents counts
  moved : ∀ modified base target, (Entry.btar source record modified).moveTo base target =
    ExtractError.onBehalfOf source.name
      (FileTree.prepareFile base target >>= fun location => FileTree.writeFile location contents)
  placed : ∀ modified base target tree next,
    (Entry.btar source record modified).moveTo base target tree = .ok () next →
      next.contents? (Location.resolve base target) = some contents

variable {source : Source} {record : Record}

theorem within_of_accepts (accepted : Accepts source) (member : record ∈ (records source).records) :
    record.offset + record.length ≤ source.bytes.length := by
  obtain ⟨minor, stored, spelled⟩ := (accepts_iff source).mp accepted
  obtain ⟨original, -, shown⟩ := exists_of_forall₂ spelled.shows.flip member
  exact shown.within

theorem moveTo_eq (within : record.offset + record.length ≤ source.bytes.length)
    (modified : Nat) (base : Location) (target : String) :
    (Entry.btar source record modified).moveTo base target =
      ExtractError.onBehalfOf source.name (FileTree.prepareFile base target >>= fun location =>
        FileTree.writeFile location (source.bytes.window record.offset record.length)) := by
  have enough : ¬ (source.bytes.window record.offset record.length).length < record.length := by
    rw [Bytes.window, List.length_take, List.length_drop]
    omega
  unfold Entry.moveTo
  simp only [if_neg enough, bind_pure_unit]

theorem delivers (accepted : Accepts source)
    (addressable : source.bytes.length ≤ Stream.memoryLimit.toNat)
    (member : record ∈ (records source).records) :
    record.Delivers source (source.bytes.window record.offset record.length) := by
  have within := within_of_accepts accepted member
  have whole : Stream.memoryLimit.toNat < 2 ^ 64 := Stream.memoryLimit.toNat_lt
  have offset : (UInt64.ofNat record.offset).toNat = record.offset :=
    UInt64.toNat_ofNat_of_lt' (by omega : record.offset < 2 ^ 64)
  have length : (UInt64.ofNat record.length).toNat = record.length :=
    UInt64.toNat_ofNat_of_lt' (by omega : record.length < 2 ^ 64)
  constructor
  case length =>
    rw [Bytes.window, List.length_take, List.length_drop]
    omega
  case opened => exact fun _ _ => rfl
  case read =>
    intro inner same reachable counts
    have contained : Contained inner (UInt64.ofNat record.offset) (UInt64.ofNat record.length) :=
      ⟨by rw [offset, length, same]; exact within, same ▸ reachable⟩
    have shown := Window.reads contained counts
    rw [offset, length, same] at shown
    exact shown
  case moved => exact moveTo_eq within
  case placed =>
    intro modified base target tree next moved
    rw [moveTo_eq within] at moved
    obtain ⟨place, directories, prepared, written⟩ :=
      Outcome.state_bind_eq_ok_iff.mp (ExtractError.onBehalfOf_ok moved)
    rw [← FileTree.prepareFile_location prepared]
    exact (FileTree.writeFile_ok written).1

/-- A window is confined and faithful, whatever is asked of it.  As records lie in windows, opening
a record and reading to its end gives what moving it writes. -/
theorem windows_faithful_and_records_delivered :
    (∀ inner start length calls, Contained inner start length →
      Window.Faithful inner start length calls) ∧
    ∀ source record, Accepts source → source.bytes.length ≤ Stream.memoryLimit.toNat →
      record ∈ (records source).records → ∃ contents, record.Delivers source contents := by
  constructor
  · intro inner start length calls contained
    exact Window.faithful contained calls
  · intro source record accepted addressable member
    exact ⟨_, delivers accepted addressable member⟩

theorem windows_faithful_and_records_delivered_digits :
    let digits : Stream := { Stream.ofBytes [48, 49, 50, 51, 52, 53, 54, 55, 56, 57] with
      grants := [1] }
    let calls : List Handle.Call := [.read 9, .seek (.fromEnd (-1)), .read 9,
      .seek (.current (-5)), .seek (.start 0xFFFFFFFFFFFFFFFF), .seek (.current 3), .read 2]
    let source : Source := ⟨"s", [0x42, 0x54, 0x41, 0x52, 1, 0, 4, 0,
      1, 0, 97, 2, 0, 0, 0, 0, 0, 0, 0, 7, 8, 1, 0, 98, 0, 0, 0, 0, 0, 0, 0, 0]⟩
    let record : Record := ⟨"a", 19, 2⟩
    (Contained digits 3 4 ∧ Window.Faithful digits 3 4 calls) ∧
    ((Handle.part (.ofStream digits 3 4)).replies calls).map Reply.seen =
      [(some [51], 1), (some [], 3), (some [54], 4), (none, 4), (some [], 0xFFFFFFFFFFFFFFFF),
        (some [], 2), (some [53, 54], 4)] ∧
    (Handle.part (.ofStream digits 3 4)).StaysBelow 3 digits.limit.toNat (calls.take 4) ∧
    Accepts source ∧ record ∈ (records source).records ∧
      ∃ contents, record.Delivers source contents := by
  intro digits calls source record
  have contained : Contained digits 3 4 := ⟨by decide, by decide⟩
  have accepted : Accepts source := ⟨⟨4, by decide +kernel⟩, by decide +kernel⟩
  have member : record ∈ (records source).records := by decide +kernel
  refine ⟨⟨contained, windows_faithful_and_records_delivered.1 digits 3 4 calls contained⟩,
    by decide +kernel, ?_, accepted, member,
    windows_faithful_and_records_delivered.2 source record accepted (by decide) member⟩
  refine ⟨nofun, ?_, nofun, ?_, trivial⟩
  all_goals
    rintro _ ⟨⟩
    decide +kernel

end Btar
end GameArchive
