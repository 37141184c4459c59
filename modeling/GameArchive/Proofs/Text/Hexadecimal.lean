import GameArchive.Text.Hexadecimal
import Mathlib.Data.Nat.Digits.Defs

/-!
# Numbers by their hexadecimal digits

A number is read back from its digits, with any zeros in front of them.  So numbers that are written
to one width are told apart by what is written, in which there is nothing but digits.
-/

namespace GameArchive
namespace Hexadecimal

/-- The number that some digits write. -/
def number (written : List Char) : Nat :=
  written.foldl (fun value digit => 16 * value + digitValue digit) 0

theorem number_concat (written : List Char) (digit : Char) :
    number (written ++ [digit]) = 16 * number written + digitValue digit := by
  rw [number, List.foldl_append]
  rfl

theorem digitValue_digitChar {digit : Nat} (small : digit < 16) :
    digitValue (Nat.digitChar digit) = digit := by
  have all : ∀ digit < 16, digitValue (Nat.digitChar digit) = digit := by decide
  exact all digit small

theorem number_digits (value : Nat) : number (digits value) = value := by
  induction value using Nat.strongRecOn with
  | ind value ih =>
      rw [digits, Nat.toDigits_eq_if (by decide)]
      split
      · next small => exact (Nat.zero_add _).trans (digitValue_digitChar small)
      · next large =>
          have front := ih (value / 16) (by omega)
          rw [digits] at front
          rw [number_concat, front, digitValue_digitChar (Nat.mod_lt value (by decide))]
          omega

theorem number_zeros_append (count : Nat) (written : List Char) :
    number (List.replicate count '0' ++ written) = number written := by
  induction count with
  | zero => rfl
  | succ count ih =>
      rw [← ih]
      rfl

theorem number_renderPadded (width value : Nat) :
    number (renderPadded width value).toList = value := by
  rw [renderPadded, String.toList_ofList, number_zeros_append, number_digits]

theorem renderPadded_injective (width : Nat) : Function.Injective (renderPadded width) := by
  intro first second same
  rw [← number_renderPadded width first, same, number_renderPadded]

theorem exists_of_mem_digits {value : Nat} {character : Char}
    (member : character ∈ digits value) : ∃ digit < 16, character = Nat.digitChar digit := by
  induction value using Nat.strongRecOn with
  | ind value ih =>
      rw [digits, Nat.toDigits_eq_if (by decide)] at member
      split at member
      · next small => exact ⟨value, small, List.mem_singleton.mp member⟩
      · next large =>
          rcases List.mem_append.mp member with front | last
          · exact ih (value / 16) (by omega) front
          · exact ⟨value % 16, Nat.mod_lt value (by decide), List.mem_singleton.mp last⟩

theorem exists_of_mem_renderPadded {width value : Nat} {character : Char}
    (member : character ∈ (renderPadded width value).toList) :
    ∃ digit < 16, character = Nat.digitChar digit := by
  rw [renderPadded, String.toList_ofList] at member
  rcases List.mem_append.mp member with zeros | written
  · exact ⟨0, by decide, (List.mem_replicate.mp zeros).2⟩
  · exact exists_of_mem_digits written

end Hexadecimal
end GameArchive
