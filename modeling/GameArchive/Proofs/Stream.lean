import GameArchive.Stream

/-!
# Reading on

A read gives bytes from the front of what is there, and one of them at least unless there is none.
So reading on until nothing is missing gives the same bytes as one read that is granted them all.
-/

namespace GameArchive
namespace Stream

/-! ## Partial reads -/

section Partial

variable {rest first : Bytes} {granted count : Nat}

theorem take_length_of_read (read : first = rest.take granted) :
    rest.take first.length = first := by
  rw [read, List.length_take]
  exact List.take_eq_take_min.symm

theorem eq_nil_of_read_nil (some : 1 ≤ granted) (nothing : rest.take granted = []) : rest = [] :=
  (List.take_eq_nil_iff.mp nothing).resolve_left (Nat.ne_of_gt some)

/-- A read and another one for what it left out. -/
theorem append_take_of_read (read : first = rest.take granted) (most : granted ≤ count) :
    first ++ (rest.drop first.length).take (count - first.length) = rest.take count := by
  have few : first.length ≤ count := by
    rw [read, List.length_take]
    omega
  calc
    first ++ (rest.drop first.length).take (count - first.length) =
        rest.take first.length ++ (rest.drop first.length).take (count - first.length) := by
      rw [take_length_of_read read]
    _ = rest.take (first.length + (count - first.length)) := List.take_add.symm
    _ = rest.take count := by rw [Nat.add_sub_cancel' few]

end Partial

/-! ## Streams -/

variable {stream : Stream} {count : Nat}

theorem granted_le (stream : Stream) (count : Nat) :
    min count 1 ≤ stream.granted count ∧ stream.granted count ≤ count := by
  unfold granted
  split <;> omega

theorem seek_eq_ok_iff {stream next : Stream} {origin : SeekOrigin} :
    stream.seek origin = .ok next ↔
      (0 ≤ stream.target origin ∧ stream.target origin ≤ stream.limit.toNat) ∧
        next = { stream with position := UInt64.ofNat (stream.target origin).toNat } := by
  unfold seek
  dsimp only
  split
  · simp only [reduceCtorEq, false_iff]
    omega
  · have taken : 0 ≤ stream.target origin ∧ stream.target origin ≤ stream.limit.toNat := by
      omega
    simp [taken, eq_comm]

theorem read_fst (stream : Stream) (count : Nat) :
    (stream.read count).1 = stream.rest.take (stream.granted count) :=
  rfl

theorem length_read_le (stream : Stream) (count : Nat) : (stream.read count).1.length ≤ count := by
  rw [read_fst, List.length_take]
  exact Nat.le_trans (Nat.min_le_left _ _) (stream.granted_le count).2

/-- A read stands behind the bytes that it gives, as long as the position does not wrap around. -/
theorem position_read (straight : stream.position.toNat + count < UInt64.size) :
    (stream.read count).2.position.toNat =
      stream.position.toNat + (stream.read count).1.length := by
  have few := stream.length_read_le count
  have small : (stream.read count).1.length < UInt64.size := by omega
  change (stream.position + UInt64.ofNat (stream.read count).1.length).toNat = _
  rw [UInt64.toNat_add, UInt64.toNat_ofNat_of_lt' small]
  exact Nat.mod_eq_of_lt (Nat.lt_of_le_of_lt (Nat.add_le_add_left few _) straight)

theorem rest_read (straight : stream.position.toNat + count < UInt64.size) :
    (stream.read count).2.rest = stream.rest.drop (stream.read count).1.length := by
  rw [rest, rest, position_read straight, List.drop_drop]
  rfl

/-- Reading until enough bytes are there gives them all, however few each read is granted. -/
theorem readFully_eq {fuel : Nat} (enough : count ≤ fuel)
    (straight : stream.position.toNat + count < UInt64.size) :
    (stream.readFully fuel count).1 = stream.rest.take count ∧
      (stream.readFully fuel count).2.bytes = stream.bytes := by
  induction fuel generalizing stream count with
  | zero =>
      rw [Nat.le_zero.mp enough]
      exact ⟨rfl, rfl⟩
  | succ fuel ih =>
      unfold readFully
      dsimp only
      split
      · next nothing =>
          rw [nothing]
          exact ⟨rfl, rfl⟩
      · next something =>
          obtain ⟨least, most⟩ := stream.granted_le count
          have read := stream.read_fst count
          split
          · next ended =>
              have nothing := read.symm.trans (List.isEmpty_iff.mp ended)
              rw [eq_nil_of_read_nil (by omega) nothing, List.take_nil]
              exact ⟨rfl, rfl⟩
          · next progress =>
              have some : 0 < (stream.read count).1.length :=
                List.length_pos_iff.mpr fun none => progress (List.isEmpty_iff.mpr none)
              have position := position_read straight
              have few := stream.length_read_le count
              have left : count - (stream.read count).1.length ≤ fuel := by omega
              have ahead : (stream.read count).2.position.toNat +
                  (count - (stream.read count).1.length) < UInt64.size := by omega
              obtain ⟨further, kept⟩ := ih left ahead
              rw [further, rest_read straight, append_take_of_read read most]
              exact ⟨rfl, kept⟩

end Stream
end GameArchive
