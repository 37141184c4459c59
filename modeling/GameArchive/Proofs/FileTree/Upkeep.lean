import GameArchive.Proofs.FileTree.Walking
import GameArchive.Proofs.Path.Slashed

/-!
# Operations that keep file trees well-formed

A tree without files is well-formed, and an operation on files leaves it well-formed with all its
directories, whether the operation succeeds or fails half-way: directories are created one below the
other, a file is only put into a directory, and never in the place of one.  A path gives plain names
only, so this holds for every path that is read from a directory.
-/

namespace GameArchive
namespace FileTree

variable {tree next last : FileTree} {base location other origin target : Location}

theorem wellFormed_empty : empty.WellFormed where
  distinct := List.nodup_nil
  standing := List.forall_mem_nil _
  named := List.forall_mem_nil _

/-- A change after which a tree is well-formed and has all directories that it had. -/
structure Upkept (tree next : FileTree) : Prop where
  wellFormed : next.WellFormed
  directories : DirectoriesStay tree next

theorem WellFormed.upkept (wellFormed : tree.WellFormed) : Upkept tree tree :=
  ⟨wellFormed, .refl tree⟩

theorem Upkept.trans (first : Upkept tree next) (second : Upkept next last) : Upkept tree last :=
  ⟨second.wellFormed, first.directories.trans second.directories⟩

theorem node?_erase_of_ne (different : other ≠ location) :
    (tree.erase location).node? other = tree.node? other := by
  rw [node?, node?, erase, lookup_filter_ne _ different]

theorem isDirectory_erase_of_not (free : tree.isDirectory other = false) :
    (tree.erase location).isDirectory other = false := by
  by_cases here : other = location
  · rw [← here, isDirectory, node?, if_neg (ne_nil_of_not_isDirectory free), erase,
      lookup_filter_self]
    rfl
  · rw [isDirectory, node?_erase_of_ne here]
    exact free

/-- A file can only be given the last name of a location when this is a name that a step leads
to. -/
def EndsInName (location : Location) : Prop :=
  ∀ name, location.getLast? = some name → isUsableName name → IsName name

namespace WellFormed

/-- A node in a directory, at a location where no directory stands. -/
theorem insert (wellFormed : tree.WellFormed) (free : tree.isDirectory location = false)
    (parent : tree.isDirectory location.dropLast) {name : String}
    (ending : location.getLast? = some name) (isName : IsName name) (node : FileNode) :
    Upkept tree (tree.insert location node) := by
  have stay : DirectoriesStay tree (tree.insert location node) :=
    directoriesStay_of_elsewhere free fun _ => node?_insert_of_ne _
  have cases_of_mem : ∀ entry ∈ (tree.insert location node).nodes,
      entry ∈ tree.nodes ∨ entry = (location, node) := by
    intro entry member
    rcases List.mem_append.mp member with before | here
    · exact .inl (List.mem_filter.mp before).1
    · exact .inr (List.mem_singleton.mp here)
  refine ⟨?_, stay⟩
  constructor
  · rw [FileTree.insert, List.map_append, List.nodup_append]
    refine ⟨wellFormed.distinct.sublist (List.filter_sublist.map _),
      List.pairwise_singleton _ _, ?_⟩
    intro other before found here
    obtain ⟨entry, member, rfl⟩ := List.mem_map.mp before
    rw [List.mem_singleton.mp here]
    exact of_decide_eq_true (List.mem_filter.mp member).2
  · intro entry member
    rcases cases_of_mem entry member with before | rfl
    · obtain ⟨below, directory⟩ := wellFormed.standing entry before
      exact ⟨below, stay _ directory⟩
    · exact ⟨ne_nil_of_not_isDirectory free, stay _ parent⟩
  · intro entry member
    rcases cases_of_mem entry member with before | rfl
    · exact wellFormed.named entry before
    · obtain ⟨front, rfl⟩ := List.getLast?_eq_some_iff.mp ending
      rw [List.dropLast_concat] at parent
      intro found among
      rcases List.mem_append.mp among with above | here
      · exact wellFormed.isName (contains_of_isDirectory parent) above
      · rw [List.mem_singleton.mp here]
        exact isName

/-- Nodes can be taken away with all that is below them. -/
theorem filter (wellFormed : tree.WellFormed) (keep : Location → Bool)
    (above : ∀ entry ∈ tree.nodes, keep entry.1 → entry.1.dropLast ≠ [] →
      keep entry.1.dropLast) :
    WellFormed ⟨tree.nodes.filter fun entry => keep entry.1⟩ := by
  have distinct := wellFormed.distinct.sublist
    ((List.filter_sublist (p := fun entry => keep entry.1)).map Prod.fst)
  refine ⟨distinct, ?_, fun entry member => wellFormed.named entry (List.mem_filter.mp member).1⟩
  intro entry member
  obtain ⟨before, kept⟩ := List.mem_filter.mp member
  obtain ⟨below, directory⟩ := wellFormed.standing entry before
  refine ⟨below, isDirectory_iff.mpr ?_⟩
  by_cases root : entry.1.dropLast = []
  · rw [node?, if_pos root]
  · have standing := mem_of_node?_eq_some root (isDirectory_iff.mp directory)
    exact node?_eq_some_of_mem root distinct
      (List.mem_filter.mpr ⟨standing, above entry before kept root⟩)

/-- A file can be taken away. -/
theorem erase (wellFormed : tree.WellFormed) (free : tree.isDirectory location = false) :
    Upkept tree (tree.erase location) := by
  have stay : DirectoriesStay tree (tree.erase location) :=
    directoriesStay_of_elsewhere free fun _ => node?_erase_of_ne
  refine ⟨wellFormed.filter (fun other => decide (other ≠ location)) ?_, stay⟩
  intro entry member _ _
  refine decide_eq_true fun parent => ?_
  have directory := (wellFormed.standing entry member).2
  rw [parent, free] at directory
  cases directory

theorem eraseBelow (wellFormed : tree.WellFormed) (base : Location) :
    (tree.eraseBelow base).WellFormed := by
  refine wellFormed.filter (fun other => (relative? base other).isNone) ?_
  intro entry member kept _
  rw [Option.isNone_iff_eq_none, Option.eq_none_iff_forall_ne_some] at kept ⊢
  intro names leads
  have below := (wellFormed.standing entry member).1
  refine kept (names ++ [entry.1.getLast below]) (relative?_eq_some_iff.mpr ?_)
  rw [← List.append_assoc, ← relative?_eq_some_iff.mp leads, List.dropLast_concat_getLast]

/-- The parent of a directory is one; that of the root is the root. -/
theorem isDirectory_dropLast (wellFormed : tree.WellFormed)
    (directory : tree.isDirectory location) : tree.isDirectory location.dropLast := by
  by_cases root : location = []
  · rw [root] at directory ⊢
    exact directory
  · rw [← List.dropLast_concat_getLast root] at directory
    exact wellFormed.isDirectory_of_append directory

theorem createDirectoriesFrom (wellFormed : tree.WellFormed) {names : List String}
    (plain : ∀ name ∈ names, '/' ∉ name.toList) (directory : tree.isDirectory base) :
    Upkept tree (Outcome.state (FileTree.createDirectoriesFrom base names tree)) := by
  induction names generalizing base tree with
  | nil => exact wellFormed.upkept
  | cons name names ih =>
      rw [List.forall_mem_cons] at plain
      rw [createDirectoriesFrom_cons]
      split
      · exact ih wellFormed plain.2 directory
      · next moves =>
          split
          · exact ih wellFormed plain.2 (wellFormed.isDirectory_dropLast directory)
          · next down =>
              split
              · next stands => exact ih wellFormed plain.2 (isDirectory_iff.mpr stands)
              · exact wellFormed.upkept
              · next nothing =>
                  split
                  · next usable =>
                      have isName : IsName name :=
                        ⟨fun empty => moves (.inl empty), fun stop => moves (.inr stop), down,
                          plain.1, usable⟩
                      have free : tree.isDirectory (base ++ [name]) = false := by
                        rw [isDirectory, nothing]
                        rfl
                      have parent : tree.isDirectory (base ++ [name]).dropLast := by
                        rw [List.dropLast_concat]
                        exact directory
                      have made := wellFormed.insert free parent List.getLast?_concat isName
                        .directory
                      have below := ne_nil_of_not_isDirectory free
                      exact made.trans (ih made.wellFormed plain.2
                        ((isDirectory_insert_directory below).mpr (.inl rfl)))
                  · exact wellFormed.upkept

/-- A file at a location that admits one. -/
theorem insert_of_admitsFile (wellFormed : tree.WellFormed) (ends : EndsInName location)
    (admitted : tree.admitsFile location) (node : FileNode) :
    Upkept tree (tree.insert location node) := by
  obtain ⟨name, ending, usable, -, parent, free⟩ := admitsFile_iff.mp admitted
  exact wellFormed.insert free parent ending (ends name ending usable) node

theorem writeFile (wellFormed : tree.WellFormed) (ends : EndsInName location) (contents : Bytes) :
    Upkept tree (Outcome.state (FileTree.writeFile location contents tree)) := by
  rw [FileTree.writeFile, Outcome.get_bind]
  split
  · next admitted => exact wellFormed.insert_of_admitsFile ends admitted _
  · exact wellFormed.upkept

theorem moveFile (wellFormed : tree.WellFormed) (ends : EndsInName target) :
    Upkept tree (Outcome.state (FileTree.moveFile origin target tree)) := by
  rw [FileTree.moveFile, Outcome.get_bind]
  cases stands : tree.node? origin with
  | none => exact wellFormed.upkept
  | some node =>
      cases node with
      | directory => exact wellFormed.upkept
      | file contents isExecutable =>
          simp only
          split
          · next admitted =>
              have file : tree.isDirectory origin = false := by
                rw [isDirectory, stands]
                rfl
              have erased := wellFormed.erase file
              obtain ⟨name, ending, usable, -, parent, free⟩ := admitsFile_iff.mp admitted
              exact erased.trans (erased.wellFormed.insert (isDirectory_erase_of_not free)
                (erased.directories _ parent) ending (ends name ending usable) _)
          · exact wellFormed.upkept

end WellFormed

/-! ## Files at paths -/

theorem plain_of_mem_pathNames {path name : String} (member : name ∈ (pathNames base path).2) :
    '/' ∉ name.toList := by
  rw [pathNames_eq] at member
  exact Path.plain_of_mem_names member

theorem isDirectory_pathNames (directory : tree.isDirectory base) (path : String) :
    tree.isDirectory (pathNames base path).1 := by
  rw [pathNames_eq]
  simp only
  split
  · rfl
  · exact directory

/-- A path whose last name is not that of a file is refused. -/
theorem endsInName_of_prepareFile {path : String}
    (prepared : prepareFile base path tree = .ok location next) : EndsInName location := by
  rw [prepareFile_eq] at prepared
  split at prepared
  · cases prepared
  · split at prepared
    · cases prepared
    · next name last =>
        split at prepared
        · cases prepared
        · next named =>
            simp only [not_or] at named
            cases prepared
            intro found same usable
            rw [List.getLast?_concat] at same
            cases same
            exact ⟨named.1, named.2.1, named.2.2,
              plain_of_mem_pathNames (List.mem_of_getLast? last), usable⟩

theorem WellFormed.prepareDirectory (wellFormed : tree.WellFormed)
    (directory : tree.isDirectory base) (path : String) :
    Upkept tree (Outcome.state (FileTree.prepareDirectory base path tree)) :=
  wellFormed.createDirectoriesFrom (fun _ => plain_of_mem_pathNames)
    (isDirectory_pathNames directory path)

theorem WellFormed.prepareFile (wellFormed : tree.WellFormed) (directory : tree.isDirectory base)
    (path : String) : Upkept tree (Outcome.state (FileTree.prepareFile base path tree)) := by
  have plain : ∀ name ∈ (pathNames base path).2.dropLast, '/' ∉ name.toList :=
    fun name among => plain_of_mem_pathNames (List.mem_of_mem_dropLast among)
  have created := wellFormed.createDirectoriesFrom plain (isDirectory_pathNames directory path)
  rw [prepareFile_eq]
  split
  · next outcome =>
      rw [outcome] at created
      exact created
  · next outcome =>
      rw [outcome] at created
      split
      · exact created
      · split <;> exact created

/-- What is put into a file at a path, after the directories above it are created. -/
theorem WellFormed.prepareFile_bind (wellFormed : tree.WellFormed)
    (directory : tree.isDirectory base) (path : String)
    {action : Location → EStateM IoError FileTree Unit}
    (keeps : ∀ location next, EndsInName location → next.WellFormed →
      Upkept next (Outcome.state (action location next))) :
    Upkept tree (Outcome.state ((FileTree.prepareFile base path >>= action) tree)) := by
  refine Outcome.holds_state_bind (wellFormed.prepareFile directory path) ?_
  intro location next prepared kept
  exact kept.trans (keeps location next (endsInName_of_prepareFile prepared) kept.wellFormed)

/-! ## Locations that paths lead to -/

theorem endsInName_of_isDirectory (wellFormed : tree.WellFormed)
    (directory : tree.isDirectory location) : EndsInName location :=
  fun _ ending _ =>
    wellFormed.isName (contains_of_isDirectory directory) (List.mem_of_getLast? ending)

theorem endsInName_of_walk? (wellFormed : tree.WellFormed) {names : List String}
    (plain : ∀ name ∈ names, '/' ∉ name.toList) (ends : EndsInName base)
    (leads : tree.walk? base names = some location) : EndsInName location := by
  induction names generalizing base with
  | nil =>
      cases leads
      exact ends
  | cons name names ih =>
      rw [List.forall_mem_cons] at plain
      rw [walk?] at leads
      split at leads
      · next directory =>
          split at leads
          · exact ih plain.2 ends leads
          · next moves =>
              split at leads
              · exact ih plain.2 (endsInName_of_isDirectory wellFormed
                  (wellFormed.isDirectory_dropLast directory)) leads
              · next down =>
                  refine ih plain.2 (fun found last usable => ?_) leads
                  rw [List.getLast?_concat] at last
                  cases last
                  exact ⟨fun empty => moves (.inl empty), fun stop => moves (.inr stop), down,
                    plain.1, usable⟩
      · cases leads

theorem endsInName_of_locate? (wellFormed : tree.WellFormed) (directory : tree.isDirectory base)
    {path : String} (located : tree.locate? base path = some location) : EndsInName location := by
  rw [locate?] at located
  split at located
  · cases located
  · exact endsInName_of_walk? wellFormed (fun _ => plain_of_mem_pathNames)
      (endsInName_of_isDirectory wellFormed (isDirectory_pathNames directory path)) located

end FileTree
end GameArchive
