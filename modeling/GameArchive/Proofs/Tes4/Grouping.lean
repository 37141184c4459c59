import GameArchive.Proofs.Outcome
import GameArchive.Tes4.Builder
import Mathlib.Data.List.Perm.Basic

/-!
# Grouping files by folder

The groups of a builder hold its files and no others.  The folders of one group differ only in
case, and the group is spelled as the first of them.  None of this depends on the order in which
groups are taken from their table or sorted.
-/

namespace GameArchive
namespace Tes4

/-- The first of some folders whose lower-case form is `key`. -/
def firstSpelling? (folders : List String) (key : String) : Option String :=
  folders.find? fun folder => Lowercase.text folder = key

theorem lowercase_of_firstSpelling? {folders : List String} {key folder : String}
    (found : firstSpelling? folders key = some folder) : Lowercase.text folder = key := by
  unfold firstSpelling? at found
  have same := List.find?_some found
  exact of_decide_eq_true same

theorem firstSpelling?_append_of_some {folders : List String} {key folder : String}
    (found : firstSpelling? folders key = some folder) (others : List String) :
    firstSpelling? (folders ++ others) key = some folder := by
  unfold firstSpelling? at found ⊢
  rw [List.find?_append, found]
  rfl

/-- Groups that hold some files by their folders. -/
structure Grouped (encoding : Encoding) (files : List PendingFile) (groups : List Group) :
    Prop where
  members : (groups.flatMap Group.files).Perm files
  keyed : ∀ group ∈ groups, ∀ file ∈ group.files, Lowercase.text file.folder = group.key
  spelled : ∀ group ∈ groups, ∃ folder,
    firstSpelling? (files.map PendingFile.folder) group.key = some folder ∧
      group.hash = folderHash folder ∧
      PrefixedName.writeTerminated (encoding.encode folder) = .ok group.nameBytes

/-- A file is put at the end of the group of its folder, or into a new group at the end. -/
theorem Group.insert_eq_ok {archive : String} {encoding : Encoding} {file : PendingFile}
    {groups after : List Group} (succeeded : insert archive encoding file groups = .ok after) :
    (∃ before group later, groups = before ++ group :: later ∧
        group.key = Lowercase.text file.folder ∧
        after = before ++ { group with files := group.files ++ [file] } :: later) ∨
      (∀ group ∈ groups, group.key ≠ Lowercase.text file.folder) ∧
        ∃ group, start archive encoding file = .ok group ∧ after = groups ++ [group] := by
  induction groups generalizing after with
  | nil =>
      obtain ⟨group, started, equal⟩ := Outcome.bind_eq_ok_iff.mp succeeded
      cases equal
      exact Or.inr ⟨by simp, group, started, rfl⟩
  | cons group groups ih =>
      rw [insert] at succeeded
      split at succeeded
      · next here =>
          cases succeeded
          exact Or.inl ⟨[], group, groups, rfl, here, rfl⟩
      · next elsewhere =>
          obtain ⟨others, inserted, equal⟩ := Outcome.bind_eq_ok_iff.mp succeeded
          cases equal
          rcases ih inserted with
            ⟨before, found, later, rfl, key, rfl⟩ | ⟨none, fresh, started, rfl⟩
          · exact Or.inl ⟨group :: before, found, later, rfl, key, rfl⟩
          · refine Or.inr ⟨?_, fresh, started, rfl⟩
            intro other member
            rcases List.mem_cons.mp member with rfl | further
            · exact elsewhere
            · exact none other further

theorem Group.start_eq_ok {archive : String} {encoding : Encoding} {file : PendingFile}
    {group : Group} (succeeded : start archive encoding file = .ok group) :
    group.key = Lowercase.text file.folder ∧ group.hash = folderHash file.folder ∧
      group.files = [file] ∧
      PrefixedName.writeTerminated (encoding.encode file.folder) = .ok group.nameBytes := by
  unfold start at succeeded
  cases written : PrefixedName.writeTerminated (encoding.encode file.folder) with
  | error cause =>
      rw [written] at succeeded
      cases succeeded
  | ok nameBytes =>
      rw [written] at succeeded
      rw [← Except.ok.inj succeeded]
      simp only [and_self]

namespace Grouped

variable {encoding : Encoding} {files : List PendingFile} {groups : List Group}

theorem nil (encoding : Encoding) : Grouped encoding [] [] :=
  ⟨List.Perm.refl [], by simp, by simp⟩

theorem mem_files {group : Group} {file : PendingFile} (grouped : Grouped encoding files groups)
    (groupAmong : group ∈ groups) (fileAmong : file ∈ group.files) : file ∈ files :=
  grouped.members.mem_iff.mp (List.mem_flatMap.mpr ⟨group, groupAmong, fileAmong⟩)

theorem exists_group {file : PendingFile} (grouped : Grouped encoding files groups)
    (member : file ∈ files) : ∃ group ∈ groups, file ∈ group.files :=
  List.mem_flatMap.mp (grouped.members.mem_iff.mpr member)

/-- A group that is spelled stays so when a file is added. -/
theorem spelled_append {group : Group} (grouped : Grouped encoding files groups)
    (member : group ∈ groups) (file : PendingFile) :
    ∃ folder,
      firstSpelling? ((files ++ [file]).map PendingFile.folder) group.key = some folder ∧
        group.hash = folderHash folder ∧
        PrefixedName.writeTerminated (encoding.encode folder) = .ok group.nameBytes := by
  obtain ⟨folder, found, others⟩ := grouped.spelled group member
  refine ⟨folder, ?_, others⟩
  rw [List.map_append]
  exact firstSpelling?_append_of_some found _

/-- Without a group for a folder no file has that folder. -/
theorem firstSpelling?_eq_none {key : String} (grouped : Grouped encoding files groups)
    (unknown : ∀ group ∈ groups, group.key ≠ key) :
    firstSpelling? (files.map PendingFile.folder) key = none := by
  unfold firstSpelling?
  rw [List.find?_eq_none]
  intro folder member
  obtain ⟨file, among, rfl⟩ := List.mem_map.mp member
  obtain ⟨group, groupAmong, fileAmong⟩ := grouped.exists_group among
  rw [grouped.keyed group groupAmong file fileAmong]
  simpa using unknown group groupAmong

theorem insert {archive : String} {file : PendingFile} {after : List Group}
    (grouped : Grouped encoding files groups)
    (succeeded : Group.insert archive encoding file groups = .ok after) :
    Grouped encoding (files ++ [file]) after := by
  rcases Group.insert_eq_ok succeeded with
    ⟨before, group, later, rfl, key, rfl⟩ | ⟨unknown, fresh, started, rfl⟩
  · constructor
    · have extended : ((before ++ { group with files := group.files ++ [file] } :: later).flatMap
          Group.files).Perm ((before ++ group :: later).flatMap Group.files ++ [file]) := by
        simp only [List.flatMap_append, List.flatMap_cons, List.append_assoc]
        exact (List.perm_append_comm.append_left group.files).append_left _
      exact extended.trans (grouped.members.append_right [file])
    · intro other member
      rcases List.mem_append.mp member with front | back
      · exact grouped.keyed other (List.mem_append_left _ front)
      · rcases List.mem_cons.mp back with rfl | behind
        · intro added among
          rcases List.mem_append.mp among with old | new
          · exact grouped.keyed group (by simp) added old
          · rw [List.mem_singleton.mp new]
            exact key.symm
        · exact grouped.keyed other (by simp [behind])
    · intro other member
      rcases List.mem_append.mp member with front | back
      · exact grouped.spelled_append (List.mem_append_left _ front) file
      · rcases List.mem_cons.mp back with rfl | behind
        · have among : group ∈ before ++ group :: later := by simp
          exact grouped.spelled_append among file
        · exact grouped.spelled_append (by simp [behind]) file
  · obtain ⟨keyEq, hashEq, filesEq, nameEq⟩ := Group.start_eq_ok started
    constructor
    · rw [List.flatMap_append, List.flatMap_singleton, filesEq]
      exact grouped.members.append_right [file]
    · intro other member
      rcases List.mem_append.mp member with old | new
      · exact grouped.keyed other old
      · rw [List.mem_singleton.mp new, filesEq, keyEq]
        intro added among
        rw [List.mem_singleton.mp among]
    · intro other member
      rcases List.mem_append.mp member with old | new
      · exact grouped.spelled_append old file
      · rw [List.mem_singleton.mp new, keyEq]
        refine ⟨file.folder, ?_, hashEq, nameEq⟩
        have first := grouped.firstSpelling?_eq_none unknown
        unfold firstSpelling? at first ⊢
        rw [List.map_append, List.find?_append, first]
        simp

/-- Adding files to groups one after the other keeps them grouped. -/
theorem foldlM_insert {archive : String} {done rest : List PendingFile} {after : List Group}
    (grouped : Grouped encoding done groups)
    (succeeded : rest.foldlM (fun groups file => Group.insert archive encoding file groups)
      groups = .ok after) :
    Grouped encoding (done ++ rest) after := by
  induction rest generalizing done groups with
  | nil =>
      cases succeeded
      rw [List.append_nil]
      exact grouped
  | cons file rest ih =>
      obtain ⟨middle, inserted, others⟩ := Outcome.bind_eq_ok_iff.mp succeeded
      have further := ih (grouped.insert inserted) others
      rwa [List.append_assoc] at further

/-- The order of the groups does not matter. -/
theorem perm {other : List Group} (grouped : Grouped encoding files groups)
    (same : other.Perm groups) : Grouped encoding files other where
  members := (same.flatMap_right Group.files).trans grouped.members
  keyed := fun group member => grouped.keyed group (same.mem_iff.mp member)
  spelled := fun group member => grouped.spelled group (same.mem_iff.mp member)

theorem map_sortFiles (grouped : Grouped encoding files groups) :
    Grouped encoding files (groups.map Group.sortFiles) where
  members := by
    have sorted : (groups.flatMap fun group => group.sortFiles.files).Perm
        (groups.flatMap Group.files) :=
      List.Perm.flatMap_left groups fun group _ => List.mergeSort_perm group.files _
    rw [List.flatMap_map]
    exact sorted.trans grouped.members
  keyed := by
    intro other member file among
    obtain ⟨group, groupAmong, rfl⟩ := List.mem_map.mp member
    exact grouped.keyed group groupAmong file (List.mem_mergeSort.mp among)
  spelled := by
    intro other member
    obtain ⟨group, groupAmong, rfl⟩ := List.mem_map.mp member
    exact grouped.spelled group groupAmong

theorem sortGroups (grouped : Grouped encoding files groups) :
    Grouped encoding files (sortGroups groups) :=
  (grouped.perm (List.mergeSort_perm groups _)).map_sortFiles

end Grouped

theorem Builder.groups_eq_ok {builder : Builder} {groups : List Group}
    (succeeded : builder.groups = .ok groups) :
    Grouped builder.version.encoding builder.files groups :=
  (Grouped.nil builder.version.encoding).foldlM_insert succeeded

/-- Groups and files that stand in the order of their hashes. -/
def InOrder (groups : List Group) : Prop :=
  (groups.Pairwise fun first second => first.hash ≤ second.hash) ∧
    ∀ group ∈ groups, group.files.Pairwise fun first second => first.hash ≤ second.hash

instance InOrder.decidable (groups : List Group) : Decidable (InOrder groups) :=
  inferInstanceAs (Decidable (_ ∧ _))

theorem sortGroups_eq_self {groups : List Group} (inOrder : InOrder groups) :
    sortGroups groups = groups := by
  obtain ⟨groupsInOrder, filesInOrder⟩ := inOrder
  have groupsStay : groups.mergeSort (fun first second => first.hash ≤ second.hash) = groups :=
    List.mergeSort_of_pairwise (groupsInOrder.imp decide_eq_true)
  rw [sortGroups, groupsStay]
  conv => rhs; rw [← List.map_id groups]
  refine List.map_congr_left fun group among => ?_
  have filesStay : group.files.mergeSort (fun first second => first.hash ≤ second.hash) =
      group.files :=
    List.mergeSort_of_pairwise ((filesInOrder group among).imp decide_eq_true)
  rw [Group.sortFiles, filesStay]
  rfl

theorem requireDistinct_eq_ok_iff {archive : String} {groups : List Group} :
    requireDistinct archive groups = .ok () ↔
      ∀ group ∈ groups, repeatedFile? group.files = none := by
  unfold requireDistinct
  cases found : groups.findSome? fun group => repeatedFile? group.files with
  | none => simpa using found
  | some file =>
      obtain ⟨group, member, repeated⟩ := List.exists_of_findSome?_eq_some found
      simp only [reduceCtorEq, false_iff]
      intro distinct
      rw [distinct group member] at repeated
      cases repeated

/-- A builder whose groups are in order is finished without sorting. -/
theorem Builder.buildArranged_of_inOrder {builder : Builder} {arrange : List Group → List Group}
    (inOrder : (builder.groups.map fun groups => decide (InOrder (arrange groups))) = .ok true) :
    builder.buildArranged arrange = (builder.groups >>= fun groups => do
      requireDistinct builder.archive (arrange groups)
      let framed ← (arrange groups).mapM builder.frameGroup
      builder.write framed) := by
  obtain ⟨groups, groupsOk, ordered⟩ := Outcome.map_eq_ok_iff.mp inOrder
  rw [buildArranged, groupsOk, Outcome.ok_bind, Outcome.ok_bind,
    sortGroups_eq_self (of_decide_eq_true ordered)]

theorem Builder.exists_buildArranged_eq_ok {builder : Builder}
    {arrange : List Group → List Group}
    (inOrder : (builder.groups.map fun groups => decide (InOrder (arrange groups))) = .ok true)
    (finished : (builder.groups >>= fun groups => do
      requireDistinct builder.archive (arrange groups)
      let framed ← (arrange groups).mapM builder.frameGroup
      builder.write framed).isOk) :
    ∃ bytes, builder.buildArranged arrange = .ok bytes := by
  rw [buildArranged_of_inOrder inOrder]
  exact Outcome.exists_ok_of_isOk finished

end Tes4
end GameArchive
