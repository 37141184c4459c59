import GameArchive.Proofs.Path.Descent
import GameArchive.Text.Utf8
import Mathlib.Data.List.Infix

/-!
# Paths put together from names

A path is put together from names with slashes between them, and it is taken apart into these names
again.  When no name holds a backslash, the archive form of the path differs from it in the kind of
its separators alone, so that it is as safe as the path and no longer, and its native form is the
path.
-/

namespace GameArchive
namespace Path

variable {names : List String}

theorem not_mem_of_mem_splitAt {separator : Char} {path part : List Char}
    (member : part ∈ splitAt separator path) : separator ∉ part := by
  induction path generalizing part with
  | nil =>
      rw [List.mem_singleton.mp member]
      exact List.not_mem_nil
  | cons character rest ih =>
      rw [splitAt] at member
      split at member
      · rcases List.mem_cons.mp member with rfl | later
        · exact List.not_mem_nil
        · exact ih later
      · next other =>
          split at member
          · rw [List.mem_singleton.mp member, List.mem_singleton]
            exact Ne.symm other
          · next first others parts =>
              rw [parts, List.forall_mem_cons] at ih
              rcases List.mem_cons.mp member with rfl | later
              · exact List.not_mem_cons_of_ne_of_not_mem (Ne.symm other) ih.1
              · exact ih.2 part later

theorem plain_of_mem_names {path : List Char} {name : String} (member : name ∈ Path.names path) :
    '/' ∉ name.toList := by
  obtain ⟨part, among, rfl⟩ := List.mem_map.mp member
  rw [String.toList_ofList]
  exact not_mem_of_mem_splitAt among

theorem split_slashed (notEmpty : names ≠ []) (plain : ∀ name ∈ names, '/' ∉ name.toList) :
    split ("/".intercalate names).toList = names.map String.toList := by
  induction names with
  | nil => exact absurd rfl notEmpty
  | cons name others ih =>
      rw [List.forall_mem_cons] at plain
      cases others with
      | nil => exact splitAt_of_plain plain.1
      | cons next others =>
          have row : ("/".intercalate (name :: next :: others)).toList =
              name.toList ++ '/' :: ("/".intercalate (next :: others)).toList := by
            rw [String.intercalate_cons_cons, String.toList_append, String.toList_append,
              List.append_assoc]
            rfl
          rw [row, split, splitAt_append, splitAt_of_plain plain.1, ← split,
            ih (List.cons_ne_nil next others) plain.2]
          rfl

theorem names_slashed (notEmpty : names ≠ []) (plain : ∀ name ∈ names, '/' ∉ name.toList) :
    Path.names ("/".intercalate names).toList = names := by
  rw [Path.names, split_slashed notEmpty plain, List.map_map]
  exact (List.map_congr_left fun name _ => String.ofList_toList).trans (List.map_id names)

/-- A path that begins with a name is not rooted. -/
theorem slashed_unrooted (notEmpty : names ≠ [])
    (plain : ∀ name ∈ names, '/' ∉ name.toList) (named : "" ∉ names) :
    ("/".intercalate names).toList.head? ≠ some '/' := by
  intro rooted
  have parts := names_slashed notEmpty plain
  obtain ⟨rest, row⟩ := List.head?_eq_some_iff.mp rooted
  rw [row, Path.names, split, splitAt_cons_self, List.map_cons] at parts
  exact named (parts ▸ List.mem_cons_self ..)

section ArchiveForm

variable {path : String}

/-- Where there is no slash in front, no character is lost in the archive form. -/
theorem toList_toArchive_of_unrooted (noBackslash : '\\' ∉ path.toList)
    (unrooted : path.toList.head? ≠ some '/') :
    (toArchive path).toList = replace '/' '\\' path.toList := by
  have leading : (replace '/' '\\' path.toList).head? ≠ some '\\' := by
    rw [replace, List.head?_map]
    intro replaced
    obtain ⟨first, begins, became⟩ := Option.map_eq_some_iff.mp replaced
    split at became
    · next slash => exact unrooted (slash ▸ begins)
    · exact noBackslash (became ▸ List.mem_of_head? begins)
  rw [toArchive, String.toList_ofList, dropWhile_of_head?_ne leading]

theorem toNative_toArchive (noBackslash : '\\' ∉ path.toList)
    (unrooted : path.toList.head? ≠ some '/') : toNative (toArchive path) = path := by
  have native : (toNative path).toList = path.toList := by
    rw [toNative, String.toList_ofList, replace_of_not_mem _ noBackslash]
  apply String.toList_inj.mp
  rw [toList_toNative_toArchive, native, dropWhile_of_head?_ne unrooted]

theorem isSafe_toArchive (noBackslash : '\\' ∉ path.toList)
    (unrooted : path.toList.head? ≠ some '/') : isSafe (toArchive path) = isSafe path := by
  rw [isSafe, isSafe, toList_toArchive_of_unrooted noBackslash unrooted,
    replace_of_not_mem _ (not_mem_replace (by decide) _)]

end ArchiveForm

/-- Separators of both kinds take one byte. -/
theorem length_encode_toArchive_le (path : String) :
    (Utf8.encode (toArchive path)).length ≤ (Utf8.encode path).length := by
  have width (character : Char) :
      (String.utf8EncodeChar (if character = '/' then '\\' else character)).length =
        (String.utf8EncodeChar character).length := by
    by_cases slash : character = '/'
    · rw [if_pos slash, slash]
      rfl
    · rw [if_neg slash]
  rw [Utf8.encode, Utf8.encode, toArchive, String.toList_ofList]
  calc
    _ ≤ ((replace '/' '\\' path.toList).flatMap String.utf8EncodeChar).length :=
      ((List.dropWhile_suffix _).flatMap _).length_le
    _ = (path.toList.flatMap String.utf8EncodeChar).length := by
      rw [replace, List.flatMap_map, List.length_flatMap, List.length_flatMap]
      simp only [width]

end Path
end GameArchive
