import GameArchive.Proofs.FileTree.Walking

/-!
# Directories copied file by file

The files below a directory of one tree are put below an empty directory of another, one after the
other and each with the directories above it.  What stands there meanwhile is a part of what stands
in the original, so nothing is in the way of the files that remain.
-/

namespace GameArchive
namespace FileTree

variable {original tree next : FileTree} {source place : Location}
  {remaining : List (List String)} {front names : List String}

/-- Below a place stand directories where the original has them, and its files with their contents,
the remaining ones excepted. -/
structure Copies (original : FileTree) (source : Location) (tree : FileTree) (place : Location)
    (remaining : List (List String)) : Prop where
  directories : ∀ names, tree.isDirectory (place ++ names) → original.isDirectory (source ++ names)
  files : ∀ names, tree.contents? (place ++ names) =
    if names ∈ remaining then none else original.contents? (source ++ names)

/-- Nothing is copied yet where nothing stands. -/
theorem copies_of_empty (wellFormed : original.WellFormed) (directory : original.isDirectory source)
    (standing : tree.isDirectory place)
    (empty : ∀ names, names ≠ [] → tree.node? (place ++ names) = none) :
    Copies original source tree place ((original.filesBelow source).map Prod.fst) := by
  constructor
  · intro names
    by_cases below : names = []
    · rw [below, List.append_nil, List.append_nil]
      exact fun _ => directory
    · rw [isDirectory_iff, empty names below]
      exact nofun
  · intro names
    have nothing : tree.contents? (place ++ names) = none := by
      by_cases below : names = []
      · rw [below, List.append_nil]
        exact contents?_eq_none_of_isDirectory standing
      · rw [contents?, empty names below]
    rw [nothing]
    split
    · rfl
    · next absent =>
        cases stands : original.contents? (source ++ names) with
        | none => rfl
        | some contents =>
            have member : (names, contents) ∈ original.filesBelow source :=
              wellFormed.mem_filesBelow_iff.mpr stands
            exact absurd (List.mem_map_of_mem member) absent

namespace Copies

/-- Once nothing remains, the files are those of the original. -/
theorem contents?_eq (copies : Copies original source tree place []) (names : List String) :
    tree.contents? (place ++ names) = original.contents? (source ++ names) :=
  (copies.files names).trans (if_neg List.not_mem_nil)

theorem insert_directory (copies : Copies original source tree place remaining)
    (free : tree.node? (place ++ names) = none)
    (directory : original.isDirectory (source ++ names)) :
    Copies original source (tree.insert (place ++ names) .directory) place remaining := by
  have below : place ++ names ≠ [] := fun root => by
    rw [root] at free
    cases free
  constructor
  · intro other standing
    rcases (isDirectory_insert_directory below).mp standing with here | before
    · rw [List.append_cancel_left here]
      exact directory
    · exact copies.directories other before
  · intro other
    rw [← copies.files other]
    by_cases here : place ++ other = place ++ names
    · rw [here, contents?, node?_insert_self _ below, contents?, free]
    · exact contents?_insert_of_ne _ here

/-- The directories above a remaining file can be created. -/
theorem createDirectories (wellFormed : original.WellFormed)
    (copies : Copies original source tree place remaining)
    (standing : tree.isDirectory (place ++ front))
    (directory : original.isDirectory (source ++ (front ++ names))) :
    ∃ next, createDirectoriesFrom (place ++ front) names tree =
        .ok (place ++ (front ++ names)) next ∧
      next.isDirectory (place ++ (front ++ names)) ∧
      Copies original source next place remaining ∧ DirectoriesStay tree next := by
  induction names generalizing front tree with
  | nil =>
      refine ⟨tree, ?_, ?_, copies, .refl tree⟩
      · rw [List.append_nil]
        rfl
      · rw [List.append_nil]
        exact standing
  | cons name names ih =>
      have split : front ++ name :: names = (front ++ [name]) ++ names := by simp
      rw [split] at directory ⊢
      have below : place ++ (front ++ [name]) ≠ [] := by simp
      rw [← List.append_assoc] at directory
      have above := wellFormed.isDirectory_of_append directory
      have isName : IsName name := wellFormed.isName (contains_of_isDirectory above) (by simp)
      rw [List.append_assoc] at directory
      rw [createDirectoriesFrom_cons, if_neg (not_or.mpr ⟨isName.notEmpty, isName.notStop⟩),
        if_neg isName.notParent, List.append_assoc]
      cases stands : tree.node? (place ++ (front ++ [name])) with
      | none =>
          simp only
          rw [if_pos isName.usable]
          have here : (tree.insert (place ++ (front ++ [name])) .directory).isDirectory
              (place ++ (front ++ [name])) :=
            (isDirectory_insert_directory below).mpr (.inl rfl)
          obtain ⟨last, created, made, copied, stay⟩ :=
            ih (copies.insert_directory stands above) here directory
          exact ⟨last, created, made, copied, (directoriesStay_insert_directory below).trans stay⟩
      | some node =>
          cases node with
          | directory => exact ih copies (isDirectory_iff.mpr stands) directory
          | file contents isExecutable =>
              -- The original would have a file where it has a directory.
              have files := copies.files (front ++ [name])
              rw [contents?, stands, contents?_eq_none_of_isDirectory above, ite_self] at files
              cases files

theorem insert_file (copies : Copies original source tree place (names :: remaining))
    (notAgain : names ∉ remaining) {contents : Bytes} {isExecutable : Bool}
    (file : original.contents? (source ++ names) = some contents)
    (free : tree.isDirectory (place ++ names) = false) :
    Copies original source (tree.insert (place ++ names) (.file contents isExecutable)) place
      remaining := by
  constructor
  · intro other standing
    rw [isDirectory_insert_file free] at standing
    exact copies.directories other standing
  · intro other
    by_cases here : other = names
    · rw [here, contents?_insert_self (ne_nil_of_not_isDirectory free), if_neg notAgain, file]
    · have elsewhere : place ++ other ≠ place ++ names := fun same =>
        here (List.append_cancel_left same)
      rw [contents?_insert_of_ne _ elsewhere, copies.files other]
      simp only [List.mem_cons, here, false_or]

/-- The next of the remaining files can be put in its place, with the directories above it. -/
theorem writeFile (wellFormed : original.WellFormed) {name : String}
    (copies : Copies original source tree place ((front ++ [name]) :: remaining))
    (notAgain : front ++ [name] ∉ remaining) {contents : Bytes}
    (file : original.contents? (source ++ (front ++ [name])) = some contents)
    (standing : tree.isDirectory place)
    (short : (place ++ (front ++ [name])).path.utf8ByteSize ≤ maximumPathLength) :
    ∃ made next, createDirectoriesFrom place front tree = .ok (place ++ front) made ∧
      FileTree.writeFile (place ++ (front ++ [name])) contents made = .ok () next ∧
      Copies original source next place remaining ∧ DirectoriesStay tree next := by
  have there : original.contains (source ++ (front ++ [name])) := contains_of_contents? file
  have isName : IsName name := wellFormed.isName there (by simp)
  rw [← List.append_assoc] at there
  have above : original.isDirectory (source ++ ([] ++ front)) :=
    wellFormed.isDirectory_above (List.cons_ne_nil name []) there
  rw [← List.append_nil place] at standing
  obtain ⟨made, created, parent, copied, stay⟩ :=
    copies.createDirectories wellFormed standing above
  rw [List.append_nil, List.nil_append] at created
  rw [List.nil_append] at parent
  have free : made.isDirectory (place ++ (front ++ [name])) = false := by
    rw [Bool.eq_false_iff]
    intro directory
    have none := contents?_eq_none_of_isDirectory (copied.directories _ directory)
    rw [file] at none
    cases none
  have admitted : made.admitsFile (place ++ (front ++ [name])) := by
    refine admitsFile_iff.mpr ⟨name, ?_, isName.usable, short, ?_, free⟩
    · rw [← List.append_assoc, List.getLast?_concat]
    · rw [← List.append_assoc, List.dropLast_concat]
      exact parent
  exact ⟨made, _, created, writeFile_of_admitsFile contents admitted,
    copied.insert_file notAgain file free, stay.trans (directoriesStay_insert_file free)⟩

end Copies

end FileTree
end GameArchive
