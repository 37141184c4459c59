import GameArchive.Proofs.FileTree
import Mathlib.Data.List.Induction

/-!
# Well-formed file trees

A file system keeps one node at a location, and keeps it in a directory, under a name that a path
can mention.  In such a tree a directory stands wherever something stands below, and the files below
a directory are listed once each with what they hold.
-/

namespace GameArchive

/-- A name that a step of a path leads to, and that can be given to a file or directory. -/
structure IsName (name : String) : Prop where
  notEmpty : name ≠ ""
  notStop : name ≠ "."
  notParent : name ≠ ".."
  noSlash : '/' ∉ name.toList
  usable : FileTree.isUsableName name

instance (name : String) : Decidable (IsName name) :=
  decidable_of_iff (name ≠ "" ∧ name ≠ "." ∧ name ≠ ".." ∧ '/' ∉ name.toList ∧
      FileTree.isUsableName name)
    ⟨fun ⟨notEmpty, notStop, notParent, noSlash, usable⟩ =>
      ⟨notEmpty, notStop, notParent, noSlash, usable⟩,
    fun ⟨notEmpty, notStop, notParent, noSlash, usable⟩ =>
      ⟨notEmpty, notStop, notParent, noSlash, usable⟩⟩

namespace FileTree

/-- Every location is that of one node, which stands in a directory, and is made of names. -/
structure WellFormed (tree : FileTree) : Prop where
  distinct : (tree.nodes.map Prod.fst).Nodup
  standing : ∀ entry ∈ tree.nodes, entry.1 ≠ [] ∧ tree.isDirectory entry.1.dropLast
  named : ∀ entry ∈ tree.nodes, ∀ name ∈ entry.1, IsName name

instance (tree : FileTree) : Decidable tree.WellFormed :=
  decidable_of_iff ((tree.nodes.map Prod.fst).Nodup ∧
      (∀ entry ∈ tree.nodes, entry.1 ≠ [] ∧ tree.isDirectory entry.1.dropLast) ∧
      ∀ entry ∈ tree.nodes, ∀ name ∈ entry.1, IsName name)
    ⟨fun ⟨distinct, standing, named⟩ => ⟨distinct, standing, named⟩,
    fun ⟨distinct, standing, named⟩ => ⟨distinct, standing, named⟩⟩

variable {tree : FileTree} {base location other : Location} {names : List String}
  {contents : Bytes}

theorem isDirectory_iff : tree.isDirectory location ↔ tree.node? location = some .directory :=
  beq_iff_eq

theorem contents?_eq_none_of_isDirectory (directory : tree.isDirectory location) :
    tree.contents? location = none := by
  rw [contents?, isDirectory_iff.mp directory]

theorem contains_of_isDirectory (directory : tree.isDirectory location) :
    tree.contains location := by
  rw [contains, isDirectory_iff.mp directory]
  rfl

theorem contains_of_contents? (there : tree.contents? location = some contents) :
    tree.contains location := by
  obtain ⟨isExecutable, stands⟩ := exists_node?_of_contents? there
  rw [contains, stands]
  rfl

theorem node?_eq_some_of_mem {node : FileNode} (below : location ≠ [])
    (distinct : (tree.nodes.map Prod.fst).Nodup) (member : (location, node) ∈ tree.nodes) :
    tree.node? location = some node := by
  obtain ⟨front, back, row⟩ := List.append_of_mem member
  rw [row, List.map_append, List.map_cons, List.nodup_append] at distinct
  have absent : ∀ entry ∈ front, location != entry.1 := by
    intro entry among
    refine bne_iff_ne.mpr fun same => ?_
    exact distinct.2.2 entry.1 (List.mem_map_of_mem among) location (List.mem_cons_self ..)
      same.symm
  rw [node?, if_neg below]
  exact List.lookup_eq_some_iff.mpr ⟨front, back, row, absent⟩

theorem mem_of_node?_eq_some {node : FileNode} (below : location ≠ [])
    (there : tree.node? location = some node) : (location, node) ∈ tree.nodes := by
  rw [node?, if_neg below] at there
  obtain ⟨front, back, row, -⟩ := List.lookup_eq_some_iff.mp there
  rw [row]
  exact List.mem_append_right _ (List.mem_cons_self ..)

namespace WellFormed

/-- A directory stands above whatever stands. -/
theorem isDirectory_above (wellFormed : tree.WellFormed) {back : Location} (further : back ≠ [])
    (there : tree.contains (location ++ back)) : tree.isDirectory location := by
  induction back using List.reverseRecOn with
  | nil => exact absurd rfl further
  | append_singleton back name ih =>
      have below : location ++ (back ++ [name]) ≠ [] := by simp
      obtain ⟨node, stands⟩ := Option.isSome_iff_exists.mp there
      have parent := (wellFormed.standing _ (mem_of_node?_eq_some below stands)).2
      rw [← List.append_assoc, List.dropLast_concat] at parent
      by_cases last : back = []
      · rw [last, List.append_nil] at parent
        exact parent
      · exact ih last (contains_of_isDirectory parent)

theorem isDirectory_of_append (wellFormed : tree.WellFormed) {back : Location}
    (directory : tree.isDirectory (location ++ back)) : tree.isDirectory location := by
  by_cases last : back = []
  · rw [last, List.append_nil] at directory
    exact directory
  · exact wellFormed.isDirectory_above last (contains_of_isDirectory directory)

theorem isName (wellFormed : tree.WellFormed) (there : tree.contains location) {name : String}
    (member : name ∈ location) : IsName name := by
  obtain ⟨node, stands⟩ := Option.isSome_iff_exists.mp there
  have below : location ≠ [] := List.ne_nil_of_mem member
  exact wellFormed.named _ (mem_of_node?_eq_some below stands) name member

end WellFormed

/-! ## The files below a directory -/

theorem relative?_eq_some_iff :
    relative? base location = some names ↔ location = base ++ names := by
  induction base generalizing location with
  | nil => simp [relative?]
  | cons name base ih =>
      cases location with
      | nil => simp [relative?]
      | cons first location =>
          rw [relative?]
          by_cases same : name = first
          · rw [if_pos same, ih, same, List.cons_append, List.cons.injEq, and_iff_right rfl]
          · rw [if_neg same]
            exact iff_of_false nofun fun row => same (List.cons.inj row).1.symm

/-- What the listing of the files below a directory makes of a node. -/
def listed? (base : Location) : Location × FileNode → Option (List String × Bytes)
  | (_, .directory) => none
  | (location, .file contents _) => (relative? base location).map fun names => (names, contents)

theorem listed?_eq_some_iff {entry : Location × FileNode} {file : List String × Bytes} :
    listed? base entry = some file ↔
      ∃ isExecutable, entry = (base ++ file.1, .file file.2 isExecutable) := by
  obtain ⟨location, node⟩ := entry
  obtain ⟨names, contents⟩ := file
  cases node with
  | directory => simp [listed?]
  | file found isExecutable =>
      simp only [listed?, Option.map_eq_some_iff, relative?_eq_some_iff, Prod.mk.injEq,
        FileNode.file.injEq]
      constructor
      · rintro ⟨names, rfl, rfl, rfl⟩
        exact ⟨isExecutable, rfl, rfl, rfl⟩
      · rintro ⟨_, rfl, rfl, -⟩
        exact ⟨names, rfl, rfl, rfl⟩

theorem filesBelow_eq (tree : FileTree) (base : Location) :
    tree.filesBelow base =
      (tree.nodes.filterMap (listed? base)).mergeSort fun first second =>
        precedes first.1 second.1 := by
  rw [filesBelow]
  refine congrArg (fun step => (tree.nodes.filterMap step).mergeSort _) (funext fun entry => ?_)
  obtain ⟨location, node⟩ := entry
  cases node <;> rfl

theorem mem_filesBelow {file : List String × Bytes} :
    file ∈ tree.filesBelow base ↔
      ∃ isExecutable, (base ++ file.1, .file file.2 isExecutable) ∈ tree.nodes := by
  rw [filesBelow_eq, List.mem_mergeSort, List.mem_filterMap]
  simp only [listed?_eq_some_iff]
  constructor
  · rintro ⟨entry, member, isExecutable, rfl⟩
    exact ⟨isExecutable, member⟩
  · rintro ⟨isExecutable, member⟩
    exact ⟨_, member, isExecutable, rfl⟩

/-- The listed files are those that stand below the directory. -/
theorem WellFormed.mem_filesBelow_iff (wellFormed : tree.WellFormed)
    {file : List String × Bytes} :
    file ∈ tree.filesBelow base ↔ tree.contents? (base ++ file.1) = some file.2 := by
  rw [mem_filesBelow]
  constructor
  · rintro ⟨isExecutable, member⟩
    have below := (wellFormed.standing _ member).1
    rw [contents?, node?_eq_some_of_mem below wellFormed.distinct member]
  · intro there
    obtain ⟨isExecutable, stands⟩ := exists_node?_of_contents? there
    exact ⟨isExecutable, mem_of_node?_eq_some (ne_nil_of_contents? there) stands⟩

theorem WellFormed.nodup_filesBelow (wellFormed : tree.WellFormed) (base : Location) :
    ((tree.filesBelow base).map Prod.fst).Nodup := by
  have sorted := (List.mergeSort_perm (tree.nodes.filterMap (listed? base)) fun first second =>
    precedes first.1 second.1).map Prod.fst
  rw [filesBelow_eq, sorted.nodup_iff, List.Nodup, List.pairwise_map, List.pairwise_filterMap]
  have distinct := wellFormed.distinct
  rw [List.Nodup, List.pairwise_map] at distinct
  refine distinct.imp fun different firstFile first secondFile second same => different ?_
  obtain ⟨_, rfl⟩ := listed?_eq_some_iff.mp first
  obtain ⟨_, rfl⟩ := listed?_eq_some_iff.mp second
  exact congrArg (base ++ ·) same

/-- What is put somewhere else does not change what is listed. -/
theorem filesBelow_insert_of_outside (node : FileNode)
    (outside : ∀ names, location ≠ base ++ names) :
    (tree.insert location node).filesBelow base = tree.filesBelow base := by
  have unlisted (entry : Location × FileNode) (here : entry.1 = location) :
      listed? base entry = none := by
    rw [Option.eq_none_iff_forall_ne_some]
    intro file listed
    obtain ⟨isExecutable, rfl⟩ := listed?_eq_some_iff.mp listed
    exact outside file.1 here.symm
  have kept : (tree.nodes.filter fun entry => entry.1 ≠ location).filterMap (listed? base) =
      tree.nodes.filterMap (listed? base) := by
    rw [List.filterMap_filter]
    refine congrArg (fun step => tree.nodes.filterMap step) (funext fun entry => ?_)
    by_cases here : entry.1 = location
    · rw [if_neg (by simpa using here), unlisted entry here]
    · rw [if_pos (by simpa using here)]
  rw [filesBelow_eq, filesBelow_eq, insert, erase, List.filterMap_append, kept, List.filterMap_cons,
    unlisted _ rfl, List.filterMap_nil, List.append_nil]

end FileTree
end GameArchive
