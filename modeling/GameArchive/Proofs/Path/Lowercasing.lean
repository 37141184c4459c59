import GameArchive.Proofs.Path.Parts
import GameArchive.Proofs.Text.CanonicalUtf8

/-!
# Lower-casing the parts of a path

A sigma is lower-cased by what stands around it, but no search for a cased neighbour goes beyond a
separator, and no other character becomes a separator.  So a path in lower case is cut where the
path is cut, and its parts are the parts of the path in lower case.
-/

namespace GameArchive
namespace Lowercase

open GameArchive.Path
  (isSeparator splitLast? splitLast?_eq_none_iff splitLast?_append splitLast?_eq_some)

variable {separator character : Char}

/-! ## Characters -/

theorem eq_of_isSeparator (separates : isSeparator character = true) :
    character = '\\' ∨ character = '/' := by
  simpa [isSeparator] using separates

theorem isSeparator_ofNat {number : Nat} (above : 0x5C < number) :
    isSeparator (Char.ofNat number) = false := by
  by_cases valid : number.isValidChar
  · have same := Utf8.toNat_ofNat valid
    apply Bool.eq_false_iff.mpr
    intro separates
    rcases eq_of_isSeparator separates with equal | equal
    all_goals
      rw [equal] at same
      revert above
      rw [← same]
      decide
  · rw [Char.ofNat, dif_neg valid]
    rfl

/-- What a capital letter of the table becomes lies beyond the separators. -/
theorem lowercaseRuns_above :
    ∀ run ∈ CaseTables.lowercaseRuns, (0x5C : Int) < run.1 + run.2.2.2 := by
  decide +kernel

theorem simple_separator (separates : isSeparator separator = true) :
    simple separator = separator := by
  rcases eq_of_isSeparator separates with rfl | rfl <;> rfl

theorem isSeparator_simple (plain : isSeparator character = false) :
    isSeparator (simple character) = false := by
  unfold simple
  dsimp only
  split
  · next ascii =>
      have all : ∀ number < 0x80, isSeparator (Char.ofNat number) = false →
          isSeparator (Char.ofNat number).toLower = false := by decide +kernel
      have small := all character.toNat ascii
      rw [Char.ofNat_toNat] at small
      exact small plain
  · split
    · next first last step shift found =>
        have above := lowercaseRuns_above _ (List.mem_of_find?_eq_some found)
        have between := List.find?_some found
        simp only [Bool.and_eq_true, decide_eq_true_eq] at between above
        apply isSeparator_ofNat
        omega
    · exact plain

theorem isCased_separator (separates : isSeparator separator = true) :
    isCased separator = false := by
  rcases eq_of_isSeparator separates with rfl | rfl <;> decide +kernel

theorem isIgnorable_separator (separates : isSeparator separator = true) :
    isIgnorable separator = false := by
  rcases eq_of_isSeparator separates with rfl | rfl <;> decide +kernel

theorem between_separator (separates : isSeparator separator = true) (before after : List Char) :
    between before separator after = [separator] := by
  have simpleEq := simple_separator separates
  rcases eq_of_isSeparator separates with rfl | rfl <;> simp [between, expand, simpleEq]

theorem plain_between (plain : isSeparator character = false) (before after : List Char) :
    ∀ lower ∈ between before character after, isSeparator lower = false := by
  have simplePlain := isSeparator_simple plain
  have sigmas : isSeparator '\u03C2' = false ∧ isSeparator '\u03C3' = false := ⟨rfl, rfl⟩
  have dotted : isSeparator 'i' = false ∧ isSeparator '\u0307' = false := ⟨rfl, rfl⟩
  unfold between expand
  split
  · split
    · simpa using sigmas.1
    · simpa using sigmas.2
  · split
    · simpa using dotted
    · simpa using simplePlain

/-! ## Texts -/

/-- No search for a cased neighbour goes beyond a separator. -/
theorem beginsCased_append (separates : isSeparator separator = true) (near far : List Char) :
    beginsCased (near ++ separator :: far) = beginsCased near := by
  unfold beginsCased
  induction near with
  | nil => simp [isIgnorable_separator separates, isCased_separator separates]
  | cons first near ih =>
      cases passed : isIgnorable first with
      | true => simpa [passed] using ih
      | false => simp [passed]

theorem charactersAfter_behind (separates : isSeparator separator = true)
    (near far text : List Char) :
    charactersAfter (near ++ separator :: far) text = charactersAfter near text := by
  induction text generalizing near with
  | nil => rfl
  | cons character text ih =>
      have rest := ih (character :: near)
      rw [List.cons_append] at rest
      simp only [charactersAfter, between, beginsCased_append separates, rest]

theorem charactersAfter_append (separates : isSeparator separator = true)
    (before front back : List Char) :
    charactersAfter before (front ++ separator :: back) =
      charactersAfter before front ++ separator :: characters back := by
  induction front generalizing before with
  | nil =>
      have rest := charactersAfter_behind separates [] before back
      simp only [List.nil_append, charactersAfter, between_separator separates] at rest ⊢
      rw [rest]
      rfl
  | cons character front ih =>
      simp only [List.cons_append, charactersAfter, between, beginsCased_append separates, ih,
        List.append_assoc]

theorem characters_append (separates : isSeparator separator = true) (front back : List Char) :
    characters (front ++ separator :: back) = characters front ++ separator :: characters back :=
  charactersAfter_append separates [] front back

theorem plain_charactersAfter {text : List Char}
    (plain : ∀ character ∈ text, isSeparator character = false) (before : List Char) :
    ∀ lower ∈ charactersAfter before text, isSeparator lower = false := by
  induction text generalizing before with
  | nil => simp [charactersAfter]
  | cons character text ih =>
      obtain ⟨first, others⟩ := List.forall_mem_cons.mp plain
      rw [charactersAfter]
      exact List.forall_mem_append.mpr ⟨plain_between first before text, ih others _⟩

theorem splitLast?_characters (path : List Char) :
    splitLast? (characters path) =
      (splitLast? path).map fun parts => (characters parts.1, characters parts.2) := by
  cases split : splitLast? path with
  | none =>
      have plain := plain_charactersAfter (splitLast?_eq_none_iff.mp split) []
      exact splitLast?_eq_none_iff.mpr plain
  | some parts =>
      obtain ⟨separator, separates, whole, plain⟩ := splitLast?_eq_some split
      rw [whole, characters_append separates]
      exact splitLast?_append separates _ (plain_charactersAfter plain [])

end Lowercase

namespace Path

open Lowercase (splitLast?_characters)

theorem folder_lowercase (path : String) :
    folder (Lowercase.text path) = Lowercase.text (folder path) := by
  unfold folder parent? Lowercase.text
  rw [String.toList_ofList, splitLast?_characters]
  cases splitLast? path.toList with
  | none => rfl
  | some parts => simp

theorem leaf_lowercase (path : String) :
    leaf (Lowercase.text path) = Lowercase.text (leaf path) := by
  unfold leaf leafCharacters Lowercase.text
  rw [String.toList_ofList, splitLast?_characters]
  cases splitLast? path.toList <;> simp

end Path
end GameArchive
