import GameArchive.Proofs.Text.CanonicalUtf8
import GameArchive.Text.PrefixedName

/-!
# Names without zero characters

A zero byte ends a name in a block of names, so that the names are zero-free.  What is decoded from
bytes without a zero has no zero character, in every encoding and behind every byte order mark.
-/

namespace GameArchive

theorem Utf8.decodeCharacters_noZero {bytes : Bytes} (nonzero : ∀ byte ∈ bytes, byte ≠ 0)
    (skip : Nat) : '\x00' ∉ decodeCharacters skip bytes := by
  induction bytes generalizing skip with
  | nil => cases skip <;> exact nofun
  | cons lead rest ih =>
      obtain ⟨leadNonzero, others⟩ := List.forall_mem_cons.mp nonzero
      cases skip with
      | succ skip => exact ih others skip
      | zero =>
          rw [decodeCharacters]
          split
          · next value width found =>
              rw [List.mem_cons, not_or]
              refine ⟨?_, ih others _⟩
              rintro rfl
              -- The zero character is written with a zero byte only.
              obtain ⟨tails, after, -, written, -⟩ := nextCharacter_eq_character found
              have lead : (0 : UInt8) = lead := (List.cons.inj written).1
              exact leadNonzero lead.symm
          · rw [List.mem_cons, not_or]
            exact ⟨by decide, ih others _⟩
          · decide

theorem Windows1252.decodeByte_ne_zero {byte : UInt8} (nonzero : byte ≠ 0) :
    decodeByte byte ≠ '\x00' :=
  Bytes.forall_byte (P := fun byte => byte ≠ 0 → decodeByte byte ≠ '\x00')
    (by decide +kernel) byte nonzero

namespace Utf16

theorem ofNat_ne_zero {number : Nat} (positive : 0 < number)
    (valid : number < 0xD800 ∨ 0xDFFF < number ∧ number < 0x110000) :
    Char.ofNat number ≠ '\x00' := by
  intro zero
  have numbers := congrArg (fun character => character.val.toNat) zero
  simp only [Utf8.toNat_ofNat valid] at numbers
  change number = 0 at numbers
  omega

theorem ByteOrder.unit_bounds (order : ByteOrder) {first : UInt8} (nonzero : first ≠ 0)
    (second : UInt8) :
    0 < order.unit first second ∧ order.unit first second < 0x10000 := by
  have positive : first.toNat ≠ 0 := fun zero => nonzero (UInt8.toNat_inj.mp zero)
  have firstSmall := first.toNat_lt
  have secondSmall := second.toNat_lt
  constructor
  · cases order with
    | littleEndian => exact Nat.add_pos_left (Nat.pos_of_ne_zero positive) _
    | bigEndian =>
        have product : 0 < 256 * first.toNat := by omega
        exact Nat.add_pos_left product _
  · cases order with
    | littleEndian =>
        change first.toNat + 256 * second.toNat < 0x10000
        omega
    | bigEndian =>
        change 256 * first.toNat + second.toNat < 0x10000
        omega

theorem pair_ne_zero {high low : Nat} (opens : isHighSurrogate high)
    (closes : isLowSurrogate low) : pair high low ≠ '\x00' := by
  simp only [isHighSurrogate, isLowSurrogate, Bool.and_eq_true, decide_eq_true_eq] at opens closes
  refine ofNat_ne_zero (by omega) (.inr ?_)
  omega

theorem ofNat_unit_ne_zero (order : ByteOrder) {first second : UInt8} (nonzero : first ≠ 0)
    (notHigh : ¬ isHighSurrogate (order.unit first second))
    (notLow : ¬ isLowSurrogate (order.unit first second)) :
    Char.ofNat (order.unit first second) ≠ '\x00' := by
  obtain ⟨positive, small⟩ := order.unit_bounds nonzero second
  simp only [isHighSurrogate, isLowSurrogate, Bool.and_eq_true, decide_eq_true_eq] at notHigh notLow
  exact ofNat_ne_zero positive (by omega)

/-- A pair is only looked for behind a unit that opens one. -/
theorem decodeCharacters_noZero (order : ByteOrder) {pending : Option Nat} {bytes : Bytes}
    (nonzero : ∀ byte ∈ bytes, byte ≠ 0)
    (opens : ∀ unit, pending = some unit → isHighSurrogate unit) :
    '\x00' ∉ decodeCharacters order pending bytes := by
  have replaced : '\x00' ≠ Utf8.replacement := by decide
  have nothing : ∀ unit, none = some unit → isHighSurrogate unit := fun _ => nofun
  have onlyThis : ∀ {found : Nat}, isHighSurrogate found →
      ∀ unit, some found = some unit → isHighSurrogate unit := by
    rintro found opens unit same
    cases same
    exact opens
  fun_induction decodeCharacters order pending bytes with
  | case1 => exact nofun
  | case2 => simpa using replaced
  | case3 => simpa using replaced
  | case4 first second rest unit high closes ih =>
      simp only [List.forall_mem_cons] at nonzero
      rw [List.mem_cons, not_or]
      exact ⟨(pair_ne_zero (opens high rfl) closes).symm, ih nonzero.2.2 nothing⟩
  | case5 first second rest unit high _ opensNext ih =>
      simp only [List.forall_mem_cons] at nonzero
      rw [List.mem_cons, not_or]
      exact ⟨replaced, ih nonzero.2.2 (onlyThis opensNext)⟩
  | case6 first second rest unit high notLow notHigh ih =>
      simp only [List.forall_mem_cons] at nonzero
      rw [List.mem_cons, List.mem_cons, not_or, not_or]
      exact ⟨replaced, (ofNat_unit_ne_zero order nonzero.1 notHigh notLow).symm,
        ih nonzero.2.2 nothing⟩
  | case7 first second rest unit opensNext ih =>
      simp only [List.forall_mem_cons] at nonzero
      exact ih nonzero.2.2 (onlyThis opensNext)
  | case8 first second rest unit _ _ ih =>
      simp only [List.forall_mem_cons] at nonzero
      rw [List.mem_cons, not_or]
      exact ⟨replaced, ih nonzero.2.2 nothing⟩
  | case9 first second rest unit notHigh notLow ih =>
      simp only [List.forall_mem_cons] at nonzero
      rw [List.mem_cons, not_or]
      exact ⟨(ofNat_unit_ne_zero order nonzero.1 notHigh notLow).symm, ih nonzero.2.2 nothing⟩

end Utf16

theorem Encoding.decode_noZero (encoding : Encoding) {bytes : Bytes}
    (nonzero : ∀ byte ∈ bytes, byte ≠ 0) : '\x00' ∉ (encoding.decode bytes).toList := by
  have units : ∀ order rest, (∀ byte ∈ rest, byte ≠ 0) →
      '\x00' ∉ (Utf16.decodeReplacing order rest).toList := by
    intro order rest others
    rw [Utf16.decodeReplacing, String.toList_ofList]
    exact Utf16.decodeCharacters_noZero order others fun _ => nofun
  have characters : ∀ rest, (∀ byte ∈ rest, byte ≠ 0) →
      '\x00' ∉ (Utf8.decodeReplacing rest).toList := by
    intro rest others
    rw [Utf8.decodeReplacing, String.toList_ofList]
    exact Utf8.decodeCharacters_noZero others 0
  unfold decode
  split
  · simp only [List.forall_mem_cons] at nonzero
    exact characters _ nonzero.2.2.2
  · simp only [List.forall_mem_cons] at nonzero
    exact units _ _ nonzero.2.2
  · simp only [List.forall_mem_cons] at nonzero
    exact units _ _ nonzero.2.2
  · cases encoding with
    | utf8 => exact characters _ nonzero
    | windows1252 =>
        simp only [Windows1252.decode, String.toList_ofList, List.mem_map, not_exists, not_and]
        exact fun byte member => Windows1252.decodeByte_ne_zero (nonzero byte member)

namespace PrefixedName

theorem nonzero_of_mem_splitAtZeros {bytes part : Bytes} (member : part ∈ splitAtZeros bytes) :
    ∀ byte ∈ part, byte ≠ 0 := by
  induction bytes generalizing part with
  | nil =>
      cases List.mem_singleton.mp member
      exact nofun
  | cons byte bytes ih =>
      rw [splitAtZeros] at member
      split at member
      · rcases List.mem_cons.mp member with rfl | later
        · exact nofun
        · exact ih later
      · next nonzero =>
          split at member
          · next first others split =>
              rw [split] at ih
              rcases List.mem_cons.mp member with rfl | later
              · exact List.forall_mem_cons.mpr ⟨nonzero, ih (List.mem_cons_self ..)⟩
              · exact ih (List.mem_cons_of_mem _ later)
          · cases List.mem_singleton.mp member
            simpa using nonzero

/-- The names in a block of names are zero-free. -/
theorem splitBlock_noZero (encoding : Encoding) {block : Bytes} {name : String}
    (member : name ∈ splitBlock encoding block) : '\x00' ∉ name.toList := by
  unfold splitBlock at member
  simp only at member
  split at member
  · cases member
  · obtain ⟨part, among, rfl⟩ := List.mem_map.mp member
    exact encoding.decode_noZero (nonzero_of_mem_splitAtZeros among)

end PrefixedName
end GameArchive
