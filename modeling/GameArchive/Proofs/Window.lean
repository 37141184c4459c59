import GameArchive.Entry
import GameArchive.Proofs.Reading
import GameArchive.Proofs.Stream
import Mathlib.Data.List.Forall2

/-!
# Reading through windows

A window keeps a position of its own beside that of the stream below it.  The two differ by the
start of the window modulo `2 ^ 64`, whatever is asked of it, and a read is let through only where
the position of the window lies before its end.  There nothing has wrapped around, so that no byte
from outside is read.  As long as no seek goes beyond the positions of the stream, the window
answers as its bytes would on their own.
-/

namespace GameArchive

namespace Handle

/-- One read of at most `count` bytes. -/
def readOnce (handle : Handle) (count : Nat) : Bytes × Handle :=
  match handle with
  | whole stream => (stream.read count).map id whole
  | part window => (window.read count).map id part

/-- The position that a seek asks for, counted without bounds. -/
def target : Handle → SeekOrigin → Int
  | whole stream => stream.target
  | part window => window.target

inductive Call where
  | read (count : Nat)
  | seek (origin : SeekOrigin)
  deriving Repr, DecidableEq

/-- What a call gives, and the handle after it.  A seek gives no bytes. -/
def answer (handle : Handle) : Call → Except IoError Bytes × Handle
  | .read count => (handle.readOnce count).map .ok id
  | .seek origin =>
      match handle.seek origin with
      | .ok next => (.ok [], next)
      | .error failure => (.error failure, handle)

/-- What a call gives, and the position after it. -/
structure Reply where
  outcome : Except IoError Bytes
  position : UInt64
  deriving DecidableEq

def replies : Handle → List Call → List Reply
  | _, [] => []
  | handle, call :: calls =>
      let answered := handle.answer call
      ⟨answered.1, answered.2.position⟩ :: replies answered.2 calls

def after (handle : Handle) (calls : List Call) : Handle :=
  calls.foldl (fun handle call => (handle.answer call).2) handle

/-- No seek asks for a position that is beyond `limit` once `start` is added to it. -/
def StaysBelow (start limit : Nat) : Handle → List Call → Prop
  | _, [] => True
  | handle, call :: calls =>
      (∀ origin, call = .seek origin → start + handle.target origin ≤ limit) ∧
        StaysBelow start limit (handle.answer call).2 calls

/-- The bytes and the position of a reply, or that there are no bytes because it is a refusal. -/
def Reply.seen (reply : Reply) : Option Bytes × UInt64 :=
  (reply.outcome.toOption, reply.position)

/-- The bytes of a reply are those that stand in front of its position. -/
def Reply.Within (shown : Bytes) (reply : Reply) : Prop :=
  ∀ bytes, reply.outcome = .ok bytes →
    bytes = shown.window (reply.position.toNat - bytes.length) bytes.length

/-- The read that a stream makes of a call: it may grant fewer bytes than it is asked for, but not
none unless it is asked for none. -/
inductive Call.GrantedAs : Call → Call → Prop
  | read {count granted : Nat} (some : min count 1 ≤ granted) (most : granted ≤ count) :
      GrantedAs (.read count) (.read granted)
  | seek (origin : SeekOrigin) : GrantedAs (.seek origin) (.seek origin)

end Handle

namespace Window

/-- The stream has the bytes of the window, and positions for all its bytes. -/
structure Contained (inner : Stream) (start length : UInt64) : Prop where
  inside : start.toNat + length.toNat ≤ inner.bytes.length
  reachable : inner.bytes.length ≤ inner.limit.toNat

theorem Contained.length_window {inner : Stream} {start length : UInt64}
    (contained : Contained inner start length) :
    (inner.bytes.window start.toNat length.toNat).length = length.toNat := by
  have inside := contained.inside
  rw [Bytes.window, List.length_take, List.length_drop]
  omega

/-- A window of a stream, wherever it stands. -/
structure Over (inner : Stream) (start length : UInt64) (window : Window) : Prop where
  bytes : window.inner.bytes = inner.bytes
  limit : window.inner.limit = inner.limit
  prompt : inner.grants = [] → window.inner.grants = []
  startEq : window.start = start
  lengthEq : window.length = length
  aligned : window.inner.position = start + window.position

theorem over_ofStream (inner : Stream) (start length : UInt64) :
    Over inner start length (ofStream inner start length) := by
  constructor <;> simp [ofStream]

variable {inner : Stream} {start length : UInt64} {window next : Window}

/-- Bytes that are read in front of the end do not wrap the position around. -/
theorem toNat_position_add (position : UInt64) (granted : Nat) {bytes : Bytes}
    (read : bytes =
      ((inner.bytes.window start.toNat length.toNat).drop position.toNat).take granted) :
    (position + UInt64.ofNat bytes.length).toNat = position.toNat + bytes.length := by
  have bound := position.toNat_lt
  have lengthBound := length.toNat_lt
  have few : bytes.length ≤ length.toNat - position.toNat := by
    rw [read, Bytes.window, List.length_take, List.length_drop, List.length_take]
    omega
  have small : position.toNat + bytes.length < 2 ^ 64 := by omega
  rw [UInt64.toNat_add, UInt64.toNat_ofNat_of_lt' (Nat.lt_of_le_of_lt (Nat.le_add_left ..) small),
    Nat.mod_eq_of_lt small]

namespace Over

/-- Before the end of the window the stream stands where the window says. -/
theorem rest_eq (lies : Over inner start length window) (contained : Contained inner start length)
    (before : window.position.toNat < length.toNat) :
    window.inner.rest = inner.bytes.drop (start.toNat + window.position.toNat) := by
  have bound := inner.limit.toNat_lt
  have inside := contained.inside
  have reachable := contained.reachable
  have position : (start + window.position).toNat = start.toNat + window.position.toNat := by
    rw [UInt64.toNat_add]
    apply Nat.mod_eq_of_lt
    omega
  rw [Stream.rest, lies.bytes, lies.aligned, position]

theorem drop_window (position : Nat) :
    (inner.bytes.window start.toNat length.toNat).drop position =
      (inner.bytes.drop (start.toNat + position)).take (length.toNat - position) := by
  rw [Bytes.window, List.drop_take, List.drop_drop]

/-- A read gives bytes of the window at its position, and moves behind them. -/
theorem read (lies : Over inner start length window) (contained : Contained inner start length)
    (count : Nat) :
    Over inner start length (window.read count).2 ∧
      (window.read count).2.position =
        window.position + UInt64.ofNat (window.read count).1.length ∧
      ∃ granted, (min count 1 ≤ granted ∧ granted ≤ count) ∧
        (inner.grants = [] → granted = count) ∧
        (window.read count).1 =
          ((inner.bytes.window start.toNat length.toNat).drop window.position.toNat).take
            granted := by
  unfold Window.read remaining Stream.read
  rw [lies.lengthEq]
  dsimp only
  split
  · next nothing =>
      refine ⟨lies, by simp, count, by omega, fun _ => rfl, ?_⟩
      rw [drop_window, List.take_take, nothing, List.take_zero]
  · next something =>
      have before : window.position.toNat < length.toNat := by omega
      have rest := lies.rest_eq contained before
      generalize wantedEq : min count (length.toNat - window.position.toNat) = wanted at *
      obtain ⟨some, most⟩ := window.inner.granted_le wanted
      refine ⟨?_, rfl, ?_⟩
      · exact {
          bytes := lies.bytes
          limit := lies.limit
          prompt := fun prompt => by simp [lies.prompt prompt]
          startEq := lies.startEq
          lengthEq := rfl
          aligned := by simp [lies.aligned, UInt64.add_assoc] }
      · by_cases prompt : inner.grants = []
        · have all : window.inner.granted wanted = wanted := by
            simp [Stream.granted, lies.prompt prompt]
          refine ⟨count, by omega, fun _ => rfl, ?_⟩
          rw [all, rest, drop_window, List.take_take, wantedEq]
        · refine ⟨window.inner.granted wanted, by omega, fun none => absurd none prompt, ?_⟩
          have enough : min (window.inner.granted wanted)
              (length.toNat - window.position.toNat) = window.inner.granted wanted := by omega
          rw [rest, drop_window, List.take_take, enough]

/-- Reading until enough bytes are there gives them all, however few each read is granted. -/
theorem readFully (lies : Over inner start length window) (contained : Contained inner start length)
    (fuel count : Nat)
    (enough : ((inner.bytes.window start.toNat length.toNat).drop window.position.toNat).length <
      fuel) :
    (window.readFully fuel count).1 =
      ((inner.bytes.window start.toNat length.toNat).drop window.position.toNat).take count := by
  induction fuel generalizing window count with
  | zero => cases enough
  | succ fuel ih =>
      obtain ⟨stays, moved, granted, ⟨least, most⟩, -, read⟩ := lies.read contained count
      have position := toNat_position_add window.position granted read
      rw [← moved] at position
      unfold Window.readFully
      dsimp only
      split
      · next nothing => rw [nothing, List.take_zero]
      · next something =>
          have further := ih stays (count - (window.read count).1.length)
          rw [position, ← List.drop_drop] at further
          generalize (inner.bytes.window start.toNat length.toNat).drop window.position.toNat = rest
            at read enough further ⊢
          generalize (window.read count).1 = first at *
          split
          · next ended =>
              have nothing := read.symm.trans (List.isEmpty_iff.mp ended)
              rw [Stream.eq_nil_of_read_nil (by omega) nothing, List.take_nil]
          · next progress =>
              have some : 0 < first.length :=
                List.length_pos_iff.mpr fun none => progress (List.isEmpty_iff.mpr none)
              have all : first.length ≤ rest.length := by
                rw [read, List.length_take]
                exact Nat.min_le_right _ _
              rw [further (by rw [List.length_drop]; omega), Stream.append_take_of_read read most]

theorem seek {origin : SeekOrigin} (lies : Over inner start length window)
    (moved : window.seek origin = .ok next) :
    Over inner start length next ∧
      next.position = UInt64.ofNat (window.target origin).toNat := by
  unfold Window.seek at moved
  dsimp only at moved
  split at moved
  · cases moved
  · obtain ⟨below, followed, placed⟩ := Outcome.bind_eq_ok_iff.mp moved
    obtain ⟨-, rfl⟩ := Stream.seek_eq_ok_iff.mp followed
    cases placed
    refine ⟨?_, rfl⟩
    exact {
      bytes := lies.bytes
      limit := lies.limit
      prompt := lies.prompt
      startEq := lies.startEq
      lengthEq := lies.lengthEq
      aligned := by
        rw [Stream.target, Int.toNat_natCast, UInt64.ofNat_toNat, lies.startEq] }

/-- A seek to a position that the stream has is not refused. -/
theorem exists_seek {origin : SeekOrigin} (lies : Over inner start length window)
    (nonnegative : 0 ≤ window.target origin)
    (below : start.toNat + window.target origin ≤ inner.limit.toNat) :
    ∃ next, window.seek origin = .ok next := by
  have bound := inner.limit.toNat_lt
  have small : start.toNat + (window.target origin).toNat < 2 ^ 64 := by omega
  have position : (UInt64.ofNat (window.target origin).toNat).toNat =
      (window.target origin).toNat :=
    UInt64.toNat_ofNat_of_lt' (Nat.lt_of_le_of_lt (Nat.le_add_left ..) small)
  have followed : (start + UInt64.ofNat (window.target origin).toNat).toNat =
      start.toNat + (window.target origin).toNat := by
    rw [UInt64.toNat_add, position, Nat.mod_eq_of_lt small]
  unfold Window.seek
  dsimp only
  rw [if_neg (by omega), lies.startEq]
  refine ⟨_, Outcome.bind_eq_ok_iff.mpr ⟨_, Stream.seek_eq_ok_iff.mpr ⟨?_, rfl⟩, rfl⟩⟩
  rw [lies.limit, Stream.target, followed]
  omega

end Over

/-- The bytes of a window on their own, at some position. -/
def copyAt (inner : Stream) (start length position : UInt64) : Stream :=
  { Stream.ofBytes (inner.bytes.window start.toNat length.toNat) with position }

@[simp] theorem position_copyAt (position : UInt64) :
    (copyAt inner start length position).position = position :=
  rfl

theorem target_copyAt (lies : Over inner start length window)
    (contained : Contained inner start length) (origin : SeekOrigin) :
    (copyAt inner start length window.position).target origin = window.target origin := by
  cases origin <;> simp [Stream.target, Window.target, copyAt, Stream.ofBytes, lies.lengthEq,
    contained.length_window]

theorem seek_of_negative {origin : SeekOrigin} (negative : window.target origin < 0) :
    window.seek origin = .error .seekBeforeWindow :=
  if_pos negative

end Window

namespace Handle

open Window (Over Contained copyAt)

variable {inner : Stream} {start length : UInt64} {window next : Window} {call granted : Call}

/-- A call leads from one position of a window to another and shows bytes of the window only.  If
it asks for no position beyond those of the stream, the bytes of the window on their own give the
same for what the stream grants of it. -/
structure Step (inner : Stream) (start length : UInt64) (window next : Window)
    (call granted : Call) : Prop where
  leads : ((part window).answer call).2 = part next
  lies : Over inner start length next
  within : Reply.Within (inner.bytes.window start.toNat length.toNat)
    ⟨((part window).answer call).1, next.position⟩
  grantedAs : call.GrantedAs granted
  prompt : inner.grants = [] → granted = call
  alone : (∀ origin, call = .seek origin →
      start.toNat + window.target origin ≤ inner.limit.toNat) →
    ∃ outcome, (whole (copyAt inner start length window.position)).answer granted =
        (outcome, whole (copyAt inner start length next.position)) ∧
      outcome.toOption = ((part window).answer call).1.toOption

theorem exists_step_read (lies : Over inner start length window)
    (contained : Contained inner start length) (count : Nat) :
    ∃ next granted, Step inner start length window next (.read count) granted := by
  obtain ⟨stays, moved, granted, ⟨least, most⟩, prompt, read⟩ := lies.read contained count
  refine ⟨(window.read count).2, .read granted, rfl, stays, ?_, .read least most,
    fun none => by rw [prompt none], fun _ => ⟨.ok (window.read count).1, ?_, rfl⟩⟩
  · intro bytes given
    obtain rfl : (window.read count).1 = bytes := Except.ok.inj given
    change _ = Bytes.window _ ((window.read count).2.position.toNat - _) _
    rw [moved, Window.toNat_position_add window.position granted read, Nat.add_sub_cancel,
      Bytes.window, read, List.length_take]
    exact List.take_eq_take_min
  · rw [moved, read]
    rfl

theorem exists_step_seek (lies : Over inner start length window)
    (contained : Contained inner start length) (origin : SeekOrigin) :
    ∃ next, Step inner start length window next (.seek origin) (.seek origin) := by
  have sameTarget := Window.target_copyAt lies contained origin
  have bound := inner.limit.toNat_lt
  cases moved : window.seek origin with
  | error failure =>
      refine ⟨window, ?_, lies, ?_, .seek origin, fun _ => rfl, fun below => ?_⟩
      · simp [answer, seek, moved, Except.map]
      · simp [answer, seek, moved, Except.map, Reply.Within]
      · have negative : window.target origin < 0 := by
          by_contra nonnegative
          obtain ⟨next, followed⟩ := lies.exists_seek (by omega) (below origin rfl)
          simp [moved] at followed
        have refused : (copyAt inner start length window.position).seek origin =
            .error .seekOutOfRange := if_pos (.inl (sameTarget ▸ negative))
        exact ⟨.error .seekOutOfRange, by simp [answer, seek, refused, Except.map],
          by simp [answer, seek, moved, Except.map, Except.toOption]⟩
  | ok next =>
      obtain ⟨stays, position⟩ := lies.seek moved
      refine ⟨next, ?_, stays, ?_, .seek origin, fun _ => rfl, fun below => ?_⟩
      · simp [answer, seek, moved, Except.map]
      · simp [answer, seek, moved, Except.map, Reply.Within, Bytes.window]
      · have nonnegative : 0 ≤ window.target origin := by
          by_contra negative
          simp [Window.seek_of_negative (by omega : window.target origin < 0)] at moved
        have followed : (copyAt inner start length window.position).seek origin =
            .ok (copyAt inner start length next.position) := by
          rw [Stream.seek_eq_ok_iff, sameTarget, position]
          have below := below origin rfl
          refine ⟨⟨nonnegative, ?_⟩, rfl⟩
          change _ ≤ ((2 ^ 64 - 1 : Nat) : Int)
          omega
        exact ⟨.ok [], by simp [answer, seek, followed, Except.map],
          by simp [answer, seek, moved, Except.map]⟩

theorem exists_step (lies : Over inner start length window)
    (contained : Contained inner start length) (call : Call) :
    ∃ next granted, Step inner start length window next call granted := by
  cases call with
  | read count => exact exists_step_read lies contained count
  | seek origin =>
      obtain ⟨next, step⟩ := exists_step_seek lies contained origin
      exact ⟨next, .seek origin, step⟩

/-! ## Runs -/

theorem exists_after (lies : Over inner start length window)
    (contained : Contained inner start length) (calls : List Call) :
    ∃ next, (part window).after calls = part next ∧ Over inner start length next := by
  induction calls generalizing window with
  | nil => exact ⟨window, rfl, lies⟩
  | cons call calls ih =>
      obtain ⟨next, granted, step⟩ := exists_step lies contained call
      obtain ⟨last, leads, stays⟩ := ih step.lies
      refine ⟨last, ?_, stays⟩
      rw [after, List.foldl_cons, step.leads]
      exact leads

theorem replies_cons (step : Step inner start length window next call granted)
    (calls : List Call) :
    (part window).replies (call :: calls) =
      ⟨((part window).answer call).1, next.position⟩ :: (part next).replies calls := by
  simp only [replies, step.leads, position]

theorem replies_within (lies : Over inner start length window)
    (contained : Contained inner start length) (calls : List Call) :
    ∀ reply ∈ (part window).replies calls,
      reply.Within (inner.bytes.window start.toNat length.toNat) := by
  induction calls generalizing window with
  | nil => simp [replies]
  | cons call calls ih =>
      obtain ⟨next, granted, step⟩ := exists_step lies contained call
      rw [replies_cons step, List.forall_mem_cons]
      exact ⟨step.within, ih step.lies⟩

/-- As long as no seek goes beyond the stream, a window answers as its bytes would on their own. -/
theorem replies_alone (lies : Over inner start length window)
    (contained : Contained inner start length) (calls : List Call)
    (below : (part window).StaysBelow start.toNat inner.limit.toNat calls) :
    ∃ granted, List.Forall₂ Call.GrantedAs calls granted ∧
      (inner.grants = [] → granted = calls) ∧
      ((part window).replies calls).map Reply.seen =
        ((whole (copyAt inner start length window.position)).replies granted).map Reply.seen := by
  induction calls generalizing window with
  | nil => exact ⟨[], .nil, fun _ => rfl, rfl⟩
  | cons call calls ih =>
      obtain ⟨next, first, step⟩ := exists_step lies contained call
      obtain ⟨here, later⟩ := below
      rw [step.leads] at later
      obtain ⟨others, grantedAs, prompt, same⟩ := ih step.lies later
      obtain ⟨outcome, alone, outcomeEq⟩ := step.alone here
      refine ⟨first :: others, .cons step.grantedAs grantedAs, fun none => ?_, ?_⟩
      · rw [step.prompt none, prompt none]
      · rw [replies_cons step, List.map_cons, same]
        simp only [replies, alone, List.map_cons, Reply.seen, outcomeEq, position,
          Window.position_copyAt]

/-- The bytes that some reads give, one behind the other. -/
def readEach (handle : Handle) (counts : List Nat) : Bytes :=
  (handle.replies (counts.map .read)).flatMap fun reply => reply.outcome.toOption.getD []

theorem readEach_cons (window : Window) (count : Nat) (counts : List Nat) :
    (part window).readEach (count :: counts) =
      (window.read count).1 ++ (part (window.read count).2).readEach counts :=
  rfl

theorem after_read_cons (window : Window) (count : Nat) (counts : List Nat) :
    (part window).after ((count :: counts).map .read) =
      (part (window.read count).2).after (counts.map .read) :=
  rfl

/-- Reads give what stands from the position on, and end behind it. -/
theorem readEach_part (lies : Over inner start length window)
    (contained : Contained inner start length) (counts : List Nat) :
    let rest := (inner.bytes.window start.toNat length.toNat).drop window.position.toNat
    let read := (part window).readEach counts
    ∃ last, (part window).after (counts.map .read) = part last ∧ Over inner start length last ∧
      last.position.toNat = window.position.toNat + read.length ∧
      read = rest.take read.length ∧
      (inner.grants = [] → read = rest.take (counts.foldr (· + ·) 0)) ∧
      ((∀ count ∈ counts, 0 < count) → min counts.length rest.length ≤ read.length) := by
  induction counts generalizing window with
  | nil => exact ⟨window, rfl, lies, rfl, rfl, fun _ => rfl, by simp⟩
  | cons count counts ih =>
      obtain ⟨stays, moved, granted, ⟨least, most⟩, prompt, read⟩ := lies.read contained count
      have position := Window.toNat_position_add window.position granted read
      rw [← moved] at position
      obtain ⟨last, leads, lastOver, ends, taken, whole, progress⟩ := ih stays
      rw [position, ← List.drop_drop] at taken whole progress
      generalize (inner.bytes.window start.toNat length.toNat).drop window.position.toNat = rest
        at read taken whole progress ⊢
      dsimp only
      rw [after_read_cons, readEach_cons]
      generalize (part (window.read count).2).readEach counts = others at *
      generalize (window.read count).1 = first at *
      have lengthEq : first.length = min granted rest.length := by rw [read, List.length_take]
      have behind : rest.drop first.length = rest.drop granted := by
        rw [lengthEq]
        exact List.drop_eq_drop_min.symm
      have firstEq : rest.take first.length = first := Stream.take_length_of_read read
      refine ⟨last, leads, lastOver, ?_, ?_, fun none => ?_, fun positive => ?_⟩
      · rw [ends, position, List.length_append, Nat.add_assoc]
      · rw [List.length_append, List.take_add, ← taken, firstEq]
      · rw [List.foldr_cons, List.take_add, whole none, behind, read, prompt none]
      · obtain ⟨here, later⟩ := List.forall_mem_cons.mp positive
        have further := progress later
        rw [List.length_drop] at further
        rw [List.length_append, List.length_cons]
        omega

end Handle
end GameArchive
