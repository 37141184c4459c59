import GameArchive.Proofs.Tes4.Grouping
import Mathlib.Data.List.Nodup

/-!
# Grouping files that were grouped before

The files of some groups, taken one group after the other, are put into the same groups again.
If no two groups have the same hash, sorting brings them into the same order, whatever the order in
which they are taken from their table.
-/

namespace GameArchive
namespace Tes4

/-- Groups that belong to different folders and of which none is empty. -/
structure Separate (groups : List Group) : Prop where
  nonempty : ∀ group ∈ groups, group.files ≠ []
  distinct : (groups.map Group.key).Nodup

namespace Separate

variable {groups after : List Group}

theorem insert {archive : String} {encoding : Encoding} {file : PendingFile}
    (separate : Separate groups)
    (succeeded : Group.insert archive encoding file groups = .ok after) : Separate after := by
  rcases Group.insert_eq_ok succeeded with
    ⟨before, group, later, rfl, -, rfl⟩ | ⟨unknown, fresh, started, rfl⟩
  · constructor
    · intro other member
      rcases List.mem_append.mp member with front | back
      · exact separate.nonempty other (by simp [front])
      · rcases List.mem_cons.mp back with rfl | behind
        · simp
        · exact separate.nonempty other (by simp [behind])
    · simpa using separate.distinct
  · obtain ⟨key, -, files, -⟩ := Group.start_eq_ok started
    constructor
    · intro other member
      rcases List.mem_append.mp member with old | new
      · exact separate.nonempty other old
      · simp [List.mem_singleton.mp new, files]
    · rw [List.map_append, List.map_singleton, key, ← List.concat_eq_append, List.nodup_concat]
      exact ⟨by simpa using unknown, separate.distinct⟩

theorem foldlM_insert {archive : String} {encoding : Encoding} {files : List PendingFile}
    (separate : Separate groups)
    (succeeded : files.foldlM (fun groups file => Group.insert archive encoding file groups)
      groups = .ok after) : Separate after := by
  induction files generalizing groups with
  | nil =>
      cases succeeded
      exact separate
  | cons file files ih =>
      obtain ⟨middle, inserted, others⟩ := Outcome.bind_eq_ok_iff.mp succeeded
      exact ih (separate.insert inserted) others

theorem perm (separate : Separate groups) (same : after.Perm groups) : Separate after where
  nonempty := fun group member => separate.nonempty group (same.mem_iff.mp member)
  distinct := (same.map Group.key).nodup_iff.mpr separate.distinct

theorem sortGroups (separate : Separate groups) : Separate (sortGroups groups) := by
  have sorted := separate.perm
    (List.mergeSort_perm groups fun first second => first.hash ≤ second.hash)
  constructor
  · intro other member
    obtain ⟨group, among, rfl⟩ := List.mem_map.mp member
    intro empty
    apply sorted.nonempty group among
    simpa [Group.sortFiles] using congrArg List.length empty
  · rw [Tes4.sortGroups, List.map_map]
    exact sorted.distinct

end Separate

theorem Builder.separate_groups {builder : Builder} {groups : List Group}
    (succeeded : builder.groups = .ok groups) : Separate groups :=
  (⟨by simp, by simp⟩ : Separate []).foldlM_insert succeeded

/-! ## Inserting the files of a group again -/

section Again

variable {archive : String} {encoding : Encoding}

theorem insert_unknown {file : PendingFile} {fresh : Group} {groups : List Group}
    (unknown : ∀ group ∈ groups, group.key ≠ Lowercase.text file.folder)
    (started : Group.start archive encoding file = .ok fresh) :
    Group.insert archive encoding file groups = .ok (groups ++ [fresh]) := by
  induction groups with
  | nil =>
      rw [Group.insert, started]
      rfl
  | cons group groups ih =>
      rw [Group.insert, if_neg (unknown group (List.mem_cons_self ..)),
        ih fun other member => unknown other (List.mem_cons_of_mem _ member)]
      rfl

theorem insert_last {file : PendingFile} {group : Group} {groups : List Group}
    (unknown : ∀ other ∈ groups, other.key ≠ Lowercase.text file.folder)
    (known : group.key = Lowercase.text file.folder) :
    Group.insert archive encoding file (groups ++ [group]) =
      .ok (groups ++ [{ group with files := group.files ++ [file] }]) := by
  induction groups with
  | nil =>
      rw [List.nil_append, Group.insert, if_pos known]
      rfl
  | cons other groups ih =>
      rw [List.cons_append, Group.insert, if_neg (unknown other (List.mem_cons_self ..)),
        ih fun another member => unknown another (List.mem_cons_of_mem _ member)]
      rfl

/-- A group that any of its files would start. -/
def Group.Uniform (encoding : Encoding) (group : Group) : Prop :=
  ∀ archive, ∀ file ∈ group.files,
    start archive encoding file = .ok { group with files := [file] }

theorem Group.Uniform.key {group : Group} (uniform : group.Uniform encoding) {file : PendingFile}
    (member : file ∈ group.files) : group.key = Lowercase.text file.folder :=
  (start_eq_ok (uniform "" file member)).1

theorem foldlM_insert_last (group : Group) {groups : List Group} {files : List PendingFile}
    (unknown : ∀ other ∈ groups, other.key ≠ group.key)
    (known : ∀ file ∈ files, group.key = Lowercase.text file.folder) :
    files.foldlM (fun groups file => Group.insert archive encoding file groups)
        (groups ++ [group]) =
      .ok (groups ++ [{ group with files := group.files ++ files }]) := by
  induction files generalizing group with
  | nil => simp [pure, Except.pure]
  | cons file files ih =>
      obtain ⟨here, others⟩ := List.forall_mem_cons.mp known
      have inserted : Group.insert archive encoding file (groups ++ [group]) = _ :=
        insert_last (fun other member => here ▸ unknown other member) here
      rw [List.foldlM_cons, inserted, Outcome.ok_bind,
        ih { group with files := group.files ++ [file] } unknown others]
      simp

theorem foldlM_insert_group {group : Group} {groups : List Group}
    (unknown : ∀ other ∈ groups, other.key ≠ group.key) (nonempty : group.files ≠ [])
    (uniform : group.Uniform encoding) :
    group.files.foldlM (fun groups file => Group.insert archive encoding file groups) groups =
      .ok (groups ++ [group]) := by
  obtain ⟨file, files, split⟩ := List.exists_cons_of_ne_nil nonempty
  have known : ∀ other ∈ group.files, group.key = Lowercase.text other.folder :=
    fun other member => uniform.key member
  have started := uniform archive file (by simp [split])
  rw [split] at known
  obtain ⟨here, others⟩ := List.forall_mem_cons.mp known
  rw [split, List.foldlM_cons, insert_unknown (fun other member => here ▸ unknown other member)
    started, Outcome.ok_bind, foldlM_insert_last { group with files := [file] } unknown others,
    List.singleton_append, ← split]

/-- The files of uniform groups are put into the same groups again. -/
theorem foldlM_insert_groups {done groups : List Group} (separate : Separate (done ++ groups))
    (uniform : ∀ group ∈ groups, group.Uniform encoding) :
    (groups.flatMap Group.files).foldlM
        (fun groups file => Group.insert archive encoding file groups) done =
      .ok (done ++ groups) := by
  induction groups generalizing done with
  | nil => simp [pure, Except.pure]
  | cons group groups ih =>
      obtain ⟨here, others⟩ := List.forall_mem_cons.mp uniform
      have unknown : ∀ other ∈ done, other.key ≠ group.key := by
        have distinct := separate.distinct
        rw [List.map_append, List.nodup_append] at distinct
        intro other member
        exact distinct.2.2 _ (List.mem_map_of_mem member) _ (by simp)
      rw [List.flatMap_cons, List.foldlM_append,
        foldlM_insert_group unknown (separate.nonempty group (by simp)) here, Outcome.ok_bind,
        ih (by simpa using separate) others]
      simp

end Again

/-! ## Sorting groups again -/

theorem pairwise_mergeSort_hash {α : Type} (hash : α → UInt64) (values : List α) :
    (values.mergeSort fun first second => hash first ≤ hash second).Pairwise
      fun first second => hash first ≤ hash second := by
  refine (List.pairwise_mergeSort ?_ ?_ values).imp of_decide_eq_true
  · intro first second third before behind
    exact decide_eq_true (UInt64.le_trans (of_decide_eq_true before) (of_decide_eq_true behind))
  · intro first second
    simpa using UInt64.le_total (hash first) (hash second)

theorem inOrder_sortGroups (groups : List Group) : InOrder (sortGroups groups) := by
  constructor
  · rw [sortGroups, List.pairwise_map]
    exact pairwise_mergeSort_hash Group.hash groups
  · intro other member
    obtain ⟨group, -, rfl⟩ := List.mem_map.mp member
    exact pairwise_mergeSort_hash PendingFile.hash group.files

/-- One group for each folder of some files, in order and with their files in order. -/
structure Sorted (encoding : Encoding) (files : List PendingFile) (groups : List Group) :
    Prop where
  grouped : Grouped encoding files groups
  separate : Separate groups
  inOrder : InOrder groups

theorem Builder.sorted_groups {builder : Builder} {table : List Group}
    {arrange : List Group → List Group} (arranged : ∀ groups, (arrange groups).Perm groups)
    (succeeded : builder.groups = .ok table) :
    Sorted builder.version.encoding builder.files (sortGroups (arrange table)) where
  grouped := ((groups_eq_ok succeeded).perm (arranged table)).sortGroups
  separate := ((separate_groups succeeded).perm (arranged table)).sortGroups
  inOrder := inOrder_sortGroups (arrange table)

/-- Groups in order whose hashes differ have one order only. -/
theorem sortGroups_eq_of_perm {groups arranged : List Group} (inOrder : InOrder groups)
    (distinct : (groups.map Group.hash).Nodup) (same : arranged.Perm groups) :
    sortGroups arranged = groups := by
  have stay : (arranged.mergeSort fun first second => first.hash ≤ second.hash) =
      groups.mergeSort fun first second => first.hash ≤ second.hash := by
    apply List.Perm.eq_of_pairwise _ (pairwise_mergeSort_hash Group.hash arranged)
      (pairwise_mergeSort_hash Group.hash groups)
      ((List.mergeSort_perm arranged _).trans (same.trans (List.mergeSort_perm groups _).symm))
    intro first second firstAmong secondAmong before behind
    have among := same.mem_iff.mp (List.mem_mergeSort.mp firstAmong)
    exact List.inj_on_of_nodup_map distinct among (List.mem_mergeSort.mp secondAmong)
      (UInt64.le_antisymm before behind)
  rw [sortGroups, stay]
  exact sortGroups_eq_self inOrder

end Tes4
end GameArchive
