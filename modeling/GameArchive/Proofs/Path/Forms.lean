import GameArchive.Extraction.ToDirectory
import GameArchive.Proofs.Path.Lowercasing

/-!
# The forms of a path agree

Lower-casing keeps separators and does not look beyond them, so that it does not matter to it of
which kind they are, and separators in front of a path leave no trace behind them.  The lookup key
is therefore the same for all spellings of a path, its archive form among them, and a request finds
the entry that is stored under the archive form.

The archive form is cut into a folder and a name, of which the directory of an archive makes the
same path again.
-/

namespace GameArchive

theorem Blank.stripEnds_cons {α : Type} {test : α → Bool} {element : α} (stripped : test element)
    (elements : List α) : stripEnds test (element :: elements) = stripEnds test elements := by
  rw [stripEnds, List.dropWhile_cons_of_pos stripped, stripEnds]

namespace Path

theorem replace_separator {separator : Char} (separates : isSeparator separator = true)
    (front back : List Char) :
    replace '\\' '/' (front ++ separator :: back) =
      replace '\\' '/' front ++ '/' :: replace '\\' '/' back := by
  rw [replace, List.map_append, List.map_cons]
  rcases Lowercase.eq_of_isSeparator separates with rfl | rfl <;> rfl

theorem replace_plain {path : List Char}
    (plain : ∀ character ∈ path, isSeparator character = false) :
    replace '\\' '/' path = path :=
  replace_of_not_mem '/' fun member => absurd (plain '\\' member) (by decide)

end Path

namespace Lowercase

open GameArchive.Path
  (isSeparator replace splitLast? splitLast?_eq_none_iff splitLast?_eq_some replace_separator
    replace_plain)

/-- Lower-casing does not tell the separators apart. -/
theorem characters_replace (text : List Char) :
    characters (replace '\\' '/' text) = replace '\\' '/' (characters text) := by
  cases split : splitLast? text with
  | none =>
      have plain := splitLast?_eq_none_iff.mp split
      have lowered : ∀ lower ∈ characters text, isSeparator lower = false :=
        plain_charactersAfter plain []
      rw [replace_plain plain, replace_plain lowered]
  | some parts =>
      obtain ⟨separator, separates, whole, plain⟩ := splitLast?_eq_some split
      have shorter : parts.1.length < text.length := by
        rw [whole, List.length_append, List.length_cons]
        omega
      have front := characters_replace parts.1
      have lowered : ∀ lower ∈ characters parts.2, isSeparator lower = false :=
        plain_charactersAfter plain []
      have slash : isSeparator '/' = true := rfl
      rw [whole, replace_separator separates, replace_plain plain, characters_append slash, front,
        characters_append separates, replace_separator separates, replace_plain lowered]
termination_by text.length

/-- Slashes in front of a text are stripped before lower-casing or after it. -/
theorem stripEnds_characters (text : List Char) :
    Blank.stripEnds (· == '/') (characters (text.dropWhile (· == '/'))) =
      Blank.stripEnds (· == '/') (characters text) := by
  induction text with
  | nil => rfl
  | cons character text ih =>
      by_cases slash : character = '/'
      · subst slash
        have kept : characters ('/' :: text) = '/' :: characters text :=
          characters_append rfl [] text
        rw [List.dropWhile_cons_of_pos rfl, ih, kept, Blank.stripEnds_cons rfl]
      · rw [List.dropWhile_cons_of_neg (by simpa using slash)]

end Lowercase

namespace Path

/-- The lookup key sees of a path what its native form shows. -/
theorem lookupKey_eq (path : String) :
    lookupKey path =
      String.ofList (Blank.stripEnds (· == '/') (Lowercase.characters (toNative path).toList)) := by
  rw [lookupKey, toNative, String.toList_ofList, Lowercase.characters_replace]

theorem lookupKey_eq_of_toNative_eq {first second : String}
    (alike : toNative first = toNative second) : lookupKey first = lookupKey second := by
  rw [lookupKey_eq, alike, ← lookupKey_eq]

theorem lookupKey_toArchive (path : String) : lookupKey (toArchive path) = lookupKey path := by
  rw [lookupKey_eq, lookupKey_eq, toList_toNative_toArchive, Lowercase.stripEnds_characters]

/-- The directory of an archive makes the path of a file again from its folder and its name. -/
theorem filePath_parts {path : String} (archiveForm : toArchive path = path) (hash : UInt64) :
    Tes4.filePath (parent? path) (some (leaf path)) hash = path ∧
      Tes4.filePath (some (folder path)) (some (leaf path)) hash = path := by
  refine ⟨?_, inFolder_parts archiveForm⟩
  rcases parts_of_archiveForm archiveForm with ⟨none, whole⟩ | ⟨front, some, named, whole⟩
  · rw [none]
    exact whole
  · have joined := inFolder_parts archiveForm
    rw [folder, some, Option.getD_some] at joined
    rw [some]
    exact joined

/-- The archive form of a path is an archive form, has the lookup key of the path, and is made up of
its folder and its name. -/
theorem forms_agree (path : String) :
    toArchive (toArchive path) = toArchive path ∧
      lookupKey (toArchive path) = lookupKey path ∧
      (∀ only, ∀ request ∈ only, toNative request = toNative path →
        Extraction.isNamed (some only) (toArchive path) = true) ∧
      ((parent? (toArchive path) = none ∧ leaf (toArchive path) = toArchive path) ∨
        ∃ front, parent? (toArchive path) = some front ∧ front ≠ "" ∧
          toArchive path = front ++ "\\" ++ leaf (toArchive path)) ∧
      ∀ hash,
        Tes4.filePath (parent? (toArchive path)) (some (leaf (toArchive path))) hash =
            toArchive path ∧
          Tes4.filePath (some (folder (toArchive path))) (some (leaf (toArchive path))) hash =
            toArchive path := by
  have archiveForm := toArchive_toArchive path
  refine ⟨archiveForm, lookupKey_toArchive path, ?_, parts_of_archiveForm archiveForm,
    filePath_parts archiveForm⟩
  intro only request member alike
  rw [Extraction.isNamed, List.contains_iff_mem, lookupKey_toArchive]
  exact List.mem_map.mpr ⟨request, member, lookupKey_eq_of_toNative_eq alike⟩

/-- A capital sigma in front of a separator and other separators in front of the path. -/
theorem forms_agree_sigma :
    toNative "//Meshes\\ΟΔΟΣ/a.NIF" = toNative "\\/Meshes/ΟΔΟΣ\\a.NIF" ∧
      toArchive "\\/Meshes/ΟΔΟΣ\\a.NIF" = "Meshes\\ΟΔΟΣ\\a.NIF" ∧
      Extraction.isNamed (some ["//Meshes\\ΟΔΟΣ/a.NIF"]) (toArchive "\\/Meshes/ΟΔΟΣ\\a.NIF") =
        true := by
  have alike : toNative "//Meshes\\ΟΔΟΣ/a.NIF" = toNative "\\/Meshes/ΟΔΟΣ\\a.NIF" := by
    decide +kernel
  exact ⟨alike, by decide +kernel, (forms_agree _).2.2.1 _ _ (List.mem_singleton_self _) alike⟩

end Path
end GameArchive
