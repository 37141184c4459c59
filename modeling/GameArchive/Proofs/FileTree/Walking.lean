import GameArchive.Proofs.FileTree.WellFormed
import GameArchive.Proofs.Path.Descent

/-!
# Paths that lead to directories

A path that leads somewhere leads there as long as no directory is taken away.  Directories that are
created along a path to a directory are created behind it, so that a file at a path that is joined
to one of a directory gets its place below the directory.
-/

namespace GameArchive
namespace FileTree

variable {tree next last : FileTree} {base place location other : Location}

/-- Every directory of one tree is one of another. -/
def DirectoriesStay (tree next : FileTree) : Prop :=
  ∀ location, tree.isDirectory location → next.isDirectory location

theorem DirectoriesStay.refl (tree : FileTree) : DirectoriesStay tree tree :=
  fun _ directory => directory

theorem DirectoriesStay.trans (first : DirectoriesStay tree next)
    (second : DirectoriesStay next last) : DirectoriesStay tree last :=
  fun location directory => second location (first location directory)

theorem ne_nil_of_not_isDirectory (free : tree.isDirectory location = false) : location ≠ [] := by
  rintro rfl
  cases free

theorem isDirectory_insert_directory (below : location ≠ []) :
    (tree.insert location .directory).isDirectory other ↔
      other = location ∨ tree.isDirectory other := by
  rw [isDirectory_iff, isDirectory_iff]
  by_cases here : other = location
  · rw [here, node?_insert_self _ below]
    exact iff_of_true rfl (.inl rfl)
  · rw [node?_insert_of_ne _ here, or_iff_right here]

theorem isDirectory_insert_file {contents : Bytes} {isExecutable : Bool}
    (free : tree.isDirectory location = false) :
    (tree.insert location (.file contents isExecutable)).isDirectory other =
      tree.isDirectory other := by
  by_cases here : other = location
  · rw [here, free, isDirectory, node?_insert_self _ (ne_nil_of_not_isDirectory free)]
    rfl
  · rw [isDirectory, node?_insert_of_ne _ here, isDirectory]

theorem admitsFile_iff :
    tree.admitsFile location ↔
      ∃ name, location.getLast? = some name ∧ isUsableName name ∧
        location.path.utf8ByteSize ≤ maximumPathLength ∧
        tree.isDirectory location.dropLast ∧ tree.isDirectory location = false := by
  rw [admitsFile]
  cases location.getLast? with
  | none => simp
  | some name => simp [and_assoc]

theorem not_isDirectory_of_admitsFile (admitted : tree.admitsFile location) :
    tree.isDirectory location = false := by
  obtain ⟨_, _, _, _, _, free⟩ := admitsFile_iff.mp admitted
  exact free

/-- A file can be replaced where one could be created. -/
theorem admitsFile_insert_file (contents : Bytes) (isExecutable : Bool)
    (admitted : tree.admitsFile location) :
    (tree.insert location (.file contents isExecutable)).admitsFile location := by
  obtain ⟨name, ending, usable, short, parent, free⟩ := admitsFile_iff.mp admitted
  refine admitsFile_iff.mpr ⟨name, ending, usable, short, ?_, ?_⟩
  · rw [isDirectory_insert_file free]
    exact parent
  · rw [isDirectory_insert_file free]
    exact free

theorem directoriesStay_insert_directory (below : location ≠ []) :
    DirectoriesStay tree (tree.insert location .directory) :=
  fun _ directory => (isDirectory_insert_directory below).mpr (.inr directory)

theorem directoriesStay_of_elsewhere (free : tree.isDirectory location = false)
    (elsewhere : ∀ other, other ≠ location → next.node? other = tree.node? other) :
    DirectoriesStay tree next := by
  intro other directory
  have different : other ≠ location := by
    rintro rfl
    rw [free] at directory
    cases directory
  rw [isDirectory, elsewhere other different]
  exact directory

theorem directoriesStay_insert_file {contents : Bytes} {isExecutable : Bool}
    (free : tree.isDirectory location = false) :
    DirectoriesStay tree (tree.insert location (.file contents isExecutable)) :=
  directoriesStay_of_elsewhere free fun _ => node?_insert_of_ne _

/-! ## Walking -/

theorem walk?_append (tree : FileTree) (base : Location) (front back : List String) :
    tree.walk? base (front ++ back) =
      (tree.walk? base front).bind fun middle => tree.walk? middle back := by
  induction front generalizing base with
  | nil => rfl
  | cons name front ih =>
      rw [List.cons_append, walk?, walk?]
      split
      · split
        · exact ih base
        · split
          · exact ih base.dropLast
          · exact ih (base ++ [name])
      · rfl

theorem DirectoriesStay.walk? (stay : DirectoriesStay tree next) {names : List String}
    (leads : tree.walk? base names = some location) : next.walk? base names = some location := by
  induction names generalizing base with
  | nil => exact leads
  | cons name names ih =>
      rw [FileTree.walk?] at leads ⊢
      split at leads
      · next directory =>
          rw [if_pos (stay base directory)]
          split at leads
          · next stays =>
              rw [if_pos stays]
              exact ih leads
          · next moves =>
              rw [if_neg moves]
              split at leads
              · next up =>
                  rw [if_pos up]
                  exact ih leads
              · next down =>
                  rw [if_neg down]
                  exact ih leads
      · cases leads

theorem DirectoriesStay.locate? (stay : DirectoriesStay tree next) {path : String}
    (located : tree.locate? base path = some location) :
    next.locate? base path = some location := by
  rw [FileTree.locate?] at located ⊢
  split at located
  · cases located
  · next named =>
      rw [if_neg named]
      exact stay.walk? located

/-- A location that a walk goes on from is that of a directory. -/
theorem isDirectory_of_walk? {names : List String} (directory : tree.isDirectory location)
    (leads : tree.walk? base names = some location) : tree.isDirectory base := by
  cases names with
  | nil =>
      cases leads
      exact directory
  | cons name names =>
      rw [walk?] at leads
      split at leads
      · next standing => exact standing
      · cases leads

/-- The directories on the way to a directory are there already. -/
theorem createDirectoriesFrom_of_walk? {front : List String} (back : List String)
    (directory : tree.isDirectory location) (leads : tree.walk? base front = some location) :
    createDirectoriesFrom base (front ++ back) tree =
      createDirectoriesFrom location back tree := by
  induction front generalizing base with
  | nil =>
      cases leads
      rfl
  | cons name front ih =>
      have standing := isDirectory_of_walk? directory leads
      rw [walk?, if_pos standing] at leads
      rw [List.cons_append, createDirectoriesFrom_cons]
      split at leads
      · next stays =>
          rw [if_pos stays]
          exact ih leads
      · next moves =>
          rw [if_neg moves]
          split at leads
          · next up =>
              rw [if_pos up]
              exact ih leads
          · next down =>
              rw [if_neg down, isDirectory_iff.mp (isDirectory_of_walk? directory leads)]
              exact ih leads

/-! ## Joined paths -/

/-- The names of a path are behind those of the directory that it is joined to, the empty name
behind a slash at the end aside. -/
theorem exists_names_joined {directory : List Char} (notEmpty : directory ≠ [])
    (path : List Char) :
    ∃ front, Path.names (directory ++ (Path.separatorAfter directory ++ path)) =
        front ++ Path.names path ∧
      (Path.names directory = front ∨ Path.names directory = front ++ [""]) := by
  unfold Path.separatorAfter
  split
  · next ends =>
      obtain ⟨front, rfl⟩ := List.getLast?_eq_some_iff.mp (ends.resolve_left notEmpty)
      refine ⟨Path.names front, ?_, .inr (Path.names_append front [])⟩
      rw [List.nil_append, List.append_assoc, List.singleton_append, Path.names_append]
  · exact ⟨Path.names directory, Path.names_append directory path, .inl rfl⟩

theorem pathNames_eq (base : Location) (path : String) :
    pathNames base path =
      (if path.toList.head? = some '/' then [] else base, Path.names path.toList) := by
  unfold pathNames
  split
  · next rooted =>
      rw [rooted]
      rfl
  · next unrooted =>
      rw [if_neg]
      · rfl
      · intro rooted
        obtain ⟨rest, row⟩ := List.head?_eq_some_iff.mp rooted
        exact unrooted rest row

/-- A path that is joined to one of a directory is walked from the directory. -/
theorem exists_pathNames_join {destination name : String}
    (located : tree.locate? base destination = some place)
    (unrooted : (Path.toNative name).toList.head? ≠ some '/') :
    ∃ start front,
      pathNames base (Path.join destination name) =
        (start, front ++ Path.names (Path.toNative name).toList) ∧
      tree.walk? start front = some place := by
  rw [locate?] at located
  split at located
  · cases located
  · next named =>
      have notEmpty : destination.toList ≠ [] := by simpa using named
      obtain ⟨front, joined, behind⟩ :=
        exists_names_joined notEmpty (Path.toNative name).toList
      have text : (Path.join destination name).toList =
          destination.toList ++ (Path.separatorAfter destination.toList ++
            (Path.toNative name).toList) := by
        rw [Path.join, String.toList_ofList, Path.resolve_eq _ unrooted]
      have head : (Path.join destination name).toList.head? = destination.toList.head? := by
        obtain ⟨first, rest, characters⟩ := List.exists_cons_of_ne_nil notEmpty
        rw [text, characters]
        rfl
      refine ⟨(pathNames base destination).1, front, ?_, ?_⟩
      · rw [pathNames_eq, pathNames_eq, head, text, joined]
      · rw [pathNames_eq] at located ⊢
        simp only at located ⊢
        rcases behind with same | slash
        · rw [← same]
          exact located
        · rw [slash, walk?_append, Option.bind_eq_some_iff] at located
          obtain ⟨middle, leads, ends⟩ := located
          rw [walk?] at ends
          split at ends
          · cases ends
            exact leads
          · cases ends

/-- A file at a path that is joined to one of a directory gets its place below the directory. -/
theorem prepareFile_join {destination name : String}
    (located : tree.locate? base destination = some place) (directory : tree.isDirectory place)
    (unrooted : (Path.toNative name).toList.head? ≠ some '/') {front : List String}
    {leaf : String} (parts : Path.names (Path.toNative name).toList = front ++ [leaf])
    (isName : IsName leaf) {made : Location}
    (created : createDirectoriesFrom place front tree = .ok made next) :
    prepareFile base (Path.join destination name) tree = .ok (made ++ [leaf]) next := by
  obtain ⟨start, above, names, leads⟩ := exists_pathNames_join located unrooted
  rw [prepareFile_eq, names]
  simp only
  rw [parts, ← List.append_assoc, List.dropLast_concat, List.getLast?_concat,
    createDirectoriesFrom_of_walk? front directory leads, created]
  exact if_neg (not_or.mpr ⟨isName.notEmpty, not_or.mpr ⟨isName.notStop, isName.notParent⟩⟩)

end FileTree
end GameArchive
