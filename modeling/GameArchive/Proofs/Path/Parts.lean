import GameArchive.Path

/-!
# The parts of a path

A path is cut at its last separator into its folder and its leaf.  A path in archive form is put
together again from the two.
-/

namespace GameArchive
namespace Path

/-- The folder of a path, which is empty for a path without separators. -/
def folder (path : String) : String :=
  (parent? path).getD ""

/-- The path of a leaf in a folder. -/
def inFolder (folder leaf : String) : String :=
  if folder.isEmpty then leaf else folder ++ "\\" ++ leaf

theorem splitLast?_eq_none_iff {path : List Char} :
    splitLast? path = none ↔ ∀ character ∈ path, isSeparator character = false := by
  induction path with
  | nil => simp [splitLast?]
  | cons character rest ih =>
      rw [splitLast?]
      cases later : splitLast? rest with
      | some parts =>
          have separated : ¬ ∀ other ∈ rest, isSeparator other = false := by
            rw [← ih, later]
            simp
          simp only [List.forall_mem_cons, separated, and_false, iff_false]
          simp
      | none =>
          have plain := ih.mp later
          cases separates : isSeparator character with
          | true => simp [separates]
          | false => simpa [separates] using plain

theorem splitLast?_append {separator : Char} (separates : isSeparator separator = true)
    (front : List Char) {back : List Char}
    (plain : ∀ character ∈ back, isSeparator character = false) :
    splitLast? (front ++ separator :: back) = some (front, back) := by
  induction front with
  | nil =>
      rw [List.nil_append, splitLast?, splitLast?_eq_none_iff.mpr plain]
      simp [separates]
  | cons character front ih => rw [List.cons_append, splitLast?, ih]

/-- The parts of a path with the last separator between them. -/
theorem splitLast?_eq_some {path front back : List Char}
    (split : splitLast? path = some (front, back)) :
    ∃ separator, isSeparator separator = true ∧ path = front ++ separator :: back ∧
      ∀ character ∈ back, isSeparator character = false := by
  induction path generalizing front with
  | nil => cases split
  | cons character rest ih =>
      rw [splitLast?] at split
      cases later : splitLast? rest with
      | some parts =>
          rw [later] at split
          cases split
          obtain ⟨separator, separates, rfl, plain⟩ := ih later
          exact ⟨separator, separates, rfl, plain⟩
      | none =>
          rw [later] at split
          simp only at split
          split at split
          · next separates =>
              cases split
              exact ⟨character, separates, rfl, splitLast?_eq_none_iff.mp later⟩
          · cases split

theorem not_mem_replace {old new : Char} (change : new ≠ old) (path : List Char) :
    old ∉ replace old new path := by
  intro member
  obtain ⟨character, -, replaced⟩ := List.mem_map.mp member
  split at replaced
  · exact change replaced
  · next other => exact other replaced

theorem replace_of_not_mem {old : Char} (new : Char) {path : List Char} (absent : old ∉ path) :
    replace old new path = path := by
  have same : ∀ character ∈ path, (if character = old then new else character) = character := by
    intro character member
    rw [if_neg]
    rintro rfl
    exact absent member
  exact (List.map_congr_left same).trans (List.map_id path)

/-- An archive form has no slash, and no backslash in front. -/
theorem toList_toArchive (path : String) :
    '/' ∉ (toArchive path).toList ∧ (toArchive path).toList.head? ≠ some '\\' := by
  unfold toArchive
  rw [String.toList_ofList]
  constructor
  · intro member
    exact not_mem_replace (by decide) path.toList ((List.dropWhile_sublist _).mem member)
  · intro leading
    have kept := List.head?_dropWhile_not (· == '\\') (replace '/' '\\' path.toList)
    rw [leading] at kept
    simp at kept

theorem dropWhile_of_head?_ne {character : Char} {path : List Char}
    (leading : path.head? ≠ some character) : path.dropWhile (· == character) = path := by
  cases path with
  | nil => rfl
  | cons first rest => exact List.dropWhile_cons_of_neg (by simpa using leading)

theorem toArchive_eq_self {path : String} (noSlash : '/' ∉ path.toList)
    (noLeading : path.toList.head? ≠ some '\\') : toArchive path = path := by
  unfold toArchive
  rw [replace_of_not_mem _ noSlash, dropWhile_of_head?_ne noLeading, String.ofList_toList]

theorem toArchive_toArchive (path : String) : toArchive (toArchive path) = toArchive path :=
  toArchive_eq_self (toList_toArchive path).1 (toList_toArchive path).2

/-- The archive form shows natively what the path does, without slashes in front. -/
theorem toList_toNative_toArchive (path : String) :
    (toNative (toArchive path)).toList = (toNative path).toList.dropWhile (· == '/') := by
  have alike : ((fun character : Char => character == '/') ∘
        fun character => if character = '\\' then '/' else character) =
      (fun character : Char => character == '\\') ∘
        fun character => if character = '/' then '\\' else character := by
    funext character
    by_cases slash : character = '/'
    · simp [slash]
    · by_cases backslash : character = '\\'
      · simp [backslash]
      · rw [Bool.eq_iff_iff]
        simp [slash, backslash]
  rw [toNative, toNative, toArchive, String.toList_ofList, String.toList_ofList,
    String.toList_ofList, replace, replace, replace, List.dropWhile_map, List.dropWhile_map, alike,
    List.map_map]
  refine List.map_congr_left fun character _ => ?_
  by_cases slash : character = '/'
  · simp [slash]
  · simp [slash]

/-- A path in archive form is a name, or a folder and a name with a backslash between them. -/
theorem parts_of_archiveForm {path : String} (archiveForm : toArchive path = path) :
    (parent? path = none ∧ leaf path = path) ∨
      ∃ front, parent? path = some front ∧ front ≠ "" ∧ path = front ++ "\\" ++ leaf path := by
  obtain ⟨noSlash, noLeading⟩ := toList_toArchive path
  rw [archiveForm] at noSlash noLeading
  unfold parent? leaf leafCharacters
  cases split : splitLast? path.toList with
  | none => exact .inl ⟨rfl, String.ofList_toList⟩
  | some parts =>
      obtain ⟨front, back⟩ := parts
      obtain ⟨separator, separates, whole, -⟩ := splitLast?_eq_some split
      have backslash : separator = '\\' := by
        have member : separator ∈ path.toList := by simp [whole]
        have notSlash : separator ≠ '/' := fun slash => noSlash (slash ▸ member)
        simpa [isSeparator, notSlash] using separates
      have notEmpty : front ≠ [] := by
        rintro rfl
        rw [whole, backslash] at noLeading
        exact noLeading rfl
      refine .inr ⟨String.ofList front, rfl, by simpa using notEmpty, ?_⟩
      apply String.toList_inj.mp
      rw [whole, backslash]
      simp

/-- The parts of a path in archive form make up the path. -/
theorem inFolder_parts {path : String} (archiveForm : toArchive path = path) :
    inFolder (folder path) (leaf path) = path := by
  unfold inFolder folder
  rcases parts_of_archiveForm archiveForm with ⟨none, whole⟩ | ⟨front, some, named, whole⟩
  · rw [none, whole]
    rfl
  · rw [some, Option.getD_some, if_neg (by simpa using named), ← whole]

theorem mem_of_mem_toArchive {path : String} {character : Char} (notBackslash : character ≠ '\\')
    (member : character ∈ (toArchive path).toList) : character ∈ path.toList := by
  rw [toArchive, String.toList_ofList] at member
  obtain ⟨original, among, replaced⟩ := List.mem_map.mp ((List.dropWhile_sublist _).mem member)
  split at replaced
  · exact absurd replaced.symm notBackslash
  · exact replaced ▸ among

theorem mem_of_mem_leaf {path : String} {character : Char}
    (member : character ∈ (leaf path).toList) : character ∈ path.toList := by
  rw [leaf, leafCharacters, String.toList_ofList] at member
  split at member
  · next back split =>
      obtain ⟨separator, -, whole, -⟩ := splitLast?_eq_some split
      rw [whole]
      exact List.mem_append_right _ (List.mem_cons_of_mem _ member)
  · exact member

theorem leaf_plain (path : String) :
    ∀ character ∈ (leaf path).toList, isSeparator character = false := by
  unfold leaf leafCharacters
  rw [String.toList_ofList]
  cases split : splitLast? path.toList with
  | none => exact splitLast?_eq_none_iff.mp split
  | some parts =>
      obtain ⟨separator, -, -, plain⟩ := splitLast?_eq_some split
      exact plain

/-- The folder of a path in archive form is the beginning of the path. -/
theorem folder_prefix (path : String) :
    ∃ rest, path.toList = (folder path).toList ++ rest := by
  unfold folder parent?
  cases split : splitLast? path.toList with
  | none => exact ⟨path.toList, rfl⟩
  | some parts =>
      obtain ⟨separator, -, whole, -⟩ := splitLast?_eq_some split
      exact ⟨separator :: parts.2, by simpa using whole⟩

/-- A leaf in the folder of a path in archive form has archive form. -/
theorem toArchive_inFolder {path : String} (archiveForm : toArchive path = path)
    (other : String) :
    toArchive (inFolder (folder path) (leaf other)) = inFolder (folder path) (leaf other) := by
  obtain ⟨noSlash, noLeading⟩ := toList_toArchive path
  rw [archiveForm] at noSlash noLeading
  obtain ⟨rest, whole⟩ := folder_prefix path
  have plain := leaf_plain other
  have leafNoSlash : '/' ∉ (leaf other).toList := fun member => by
    simpa [isSeparator] using plain '/' member
  unfold inFolder
  split
  · refine toArchive_eq_self leafNoSlash fun leading => ?_
    simpa [isSeparator] using plain '\\' (List.mem_of_head? leading)
  · next named =>
      have characters : (folder path ++ "\\" ++ leaf other).toList =
          (folder path).toList ++ '\\' :: (leaf other).toList := by
        simp
      apply toArchive_eq_self
      · rw [characters]
        rw [whole, List.mem_append, not_or] at noSlash
        simp [noSlash.1, leafNoSlash]
      · rw [characters]
        rw [whole] at noLeading
        cases front : (folder path).toList with
        | nil => exact absurd (by simpa using front) named
        | cons first others => simpa [front] using noLeading

theorem parts_inFolder {folder leaf : String}
    (plain : ∀ character ∈ leaf.toList, isSeparator character = false) :
    Path.folder (inFolder folder leaf) = folder ∧ Path.leaf (inFolder folder leaf) = leaf := by
  unfold inFolder
  split
  · next empty =>
      have none : splitLast? leaf.toList = none := splitLast?_eq_none_iff.mpr plain
      have nameless : folder = "" := by simpa using empty
      unfold Path.folder Path.leaf parent? leafCharacters
      rw [none, nameless, String.ofList_toList]
      exact ⟨rfl, rfl⟩
  · have characters : (folder ++ "\\" ++ leaf).toList =
        folder.toList ++ '\\' :: leaf.toList := by
      simp
    have separates : isSeparator '\\' = true := rfl
    have split := splitLast?_append separates folder.toList plain
    unfold Path.folder Path.leaf parent? leafCharacters
    rw [characters, split]
    simp

/-- What stands before the last name does not matter to it, whether it is kept or not. -/
theorem leafCharacters_dropWhile (front : List Char) {back : List Char}
    (plain : ∀ character ∈ back, isSeparator character = false) :
    leafCharacters ((front ++ '\\' :: back).dropWhile (· == '\\')) = back := by
  induction front with
  | nil =>
      have kept : back.dropWhile (· == '\\') = back := by
        cases back with
        | nil => rfl
        | cons first rest =>
            apply List.dropWhile_cons_of_neg
            have notSeparator := plain first (List.mem_cons_self ..)
            simp only [isSeparator, Bool.or_eq_false_iff] at notSeparator
            simp [notSeparator.1]
      rw [List.nil_append, List.dropWhile_cons_of_pos (by rfl), kept, leafCharacters,
        splitLast?_eq_none_iff.mpr plain]
  | cons character front ih =>
      by_cases backslash : character = '\\'
      · rw [List.cons_append, List.dropWhile_cons_of_pos (by simpa using backslash), ih]
      · rw [List.cons_append, List.dropWhile_cons_of_neg (by simpa using backslash), leafCharacters,
          ← List.cons_append, splitLast?_append rfl _ plain]

theorem leaf_toArchive_inFolder (folder : String) {leaf : String}
    (plain : ∀ character ∈ leaf.toList, isSeparator character = false) :
    Path.leaf (toArchive (inFolder folder leaf)) = leaf := by
  have noSlash : '/' ∉ leaf.toList := fun member => absurd (plain '/' member) (by decide)
  have noBackslash : '\\' ∉ leaf.toList := fun member => absurd (plain '\\' member) (by decide)
  by_cases nameless : folder.isEmpty
  · rw [inFolder, if_pos nameless,
      toArchive_eq_self noSlash fun leading => noBackslash (List.mem_of_head? leading), Path.leaf,
      leafCharacters, splitLast?_eq_none_iff.mpr plain, String.ofList_toList]
  · have characters : (folder ++ "\\" ++ leaf).toList =
        folder.toList ++ '\\' :: leaf.toList := by
      simp
    have replaced : replace '/' '\\' (folder.toList ++ '\\' :: leaf.toList) =
        replace '/' '\\' folder.toList ++ '\\' :: leaf.toList := by
      rw [replace, List.map_append, List.map_cons, ← replace, ← replace,
        replace_of_not_mem _ noSlash]
      rfl
    rw [inFolder, if_neg nameless, Path.leaf, toArchive, String.toList_ofList, characters, replaced,
      leafCharacters_dropWhile _ plain, String.ofList_toList]

end Path
end GameArchive
