import GameArchive.Proofs.Bethesda.Rebuild
import GameArchive.Proofs.Tes4.Regrouping
import GameArchive.Proofs.Tes4.Respelling
import GameArchive.Proofs.Tes4.RoundTrip

/-!
# Rebuilding an archive of the TES4 family that was built

A reader finds the files of an archive in the order of their groups, each in its folder as the
archive spells it.  Grouping and sorting them again changes nothing, so that the same bytes are
written, provided that no path before the data of a file spells its folder in another way.
-/

namespace GameArchive
namespace Tes4

theorem repeatedFile?_map {change : PendingFile → PendingFile}
    (hash : ∀ file, (change file).hash = file.hash) (files : List PendingFile) :
    repeatedFile? (files.map change) = (repeatedFile? files).map change := by
  induction files with
  | nil => rfl
  | cons first rest ih =>
      cases rest with
      | nil => rfl
      | cons second rest =>
          simp only [List.map_cons, repeatedFile?, hash] at ih ⊢
          split
          · rfl
          · exact ih

namespace Builder

variable {builder : Builder}

/-- A file under the path that an archive shows for it. -/
def respelled (builder : Builder) (file : PendingFile) : PendingFile :=
  { file with path := Path.inFolder (builder.spelling file) file.name }

def respelledGroup (builder : Builder) (group : Group) : Group :=
  { group with files := group.files.map builder.respelled }

/-- A builder whose archive shows the names that it stores, and whose folders differ in their
hashes. -/
structure Legible (builder : Builder) : Prop where
  folderNames : builder.flags.hasFolderNames
  fileNames : builder.flags.hasFileNames
  notEmpty : ∀ file ∈ builder.files, file.name ≠ ""
  noZero : ∀ file ∈ builder.files, '\x00' ∉ file.name.toList
  survives : builder.Survives
  distinct : ∀ file ∈ builder.files, ∀ other ∈ builder.files,
    folderHash (builder.spelling file) = folderHash (builder.spelling other) →
      builder.spelling file = builder.spelling other

/-- A builder that spells no folder in two ways in the paths before the data. -/
def SpelledAlike (builder : Builder) : Prop :=
  builder.flags.hasNameBlobs builder.version →
    ∀ file ∈ builder.files, builder.spelling file = file.folder

theorem Legible.nodup_hash (legible : builder.Legible) {groups : List Group}
    (grouped : Grouped builder.version.encoding builder.files groups)
    (separate : Separate groups) : (groups.map Group.hash).Nodup := by
  rw [List.Nodup, List.pairwise_map]
  have distinct := separate.distinct
  rw [List.Nodup, List.pairwise_map] at distinct
  refine distinct.imp_of_mem fun {first second} firstAmong secondAmong different same => ?_
  apply different
  obtain ⟨file, fileAmong⟩ := List.exists_mem_of_ne_nil _ (separate.nonempty first firstAmong)
  obtain ⟨other, otherAmong⟩ := List.exists_mem_of_ne_nil _ (separate.nonempty second secondAmong)
  obtain ⟨firstKey, firstHash, -⟩ := grouped.spelling firstAmong fileAmong
  obtain ⟨secondKey, secondHash, -⟩ := grouped.spelling secondAmong otherAmong
  have spelledAlike := legible.distinct file
    (grouped.mem_files firstAmong fileAmong) other (grouped.mem_files secondAmong otherAmong)
    (firstHash.trans (same.trans secondHash.symm))
  rw [← firstKey, ← secondKey, spelledAlike]

theorem inOrder_respelled {groups : List Group} (inOrder : InOrder groups) :
    InOrder (groups.map builder.respelledGroup) := by
  obtain ⟨groupsInOrder, filesInOrder⟩ := inOrder
  constructor
  · rw [List.pairwise_map]
    exact groupsInOrder
  · intro other member
    obtain ⟨group, among, rfl⟩ := List.mem_map.mp member
    rw [respelledGroup, List.pairwise_map]
    exact filesInOrder group among

theorem requireDistinct_respelled {archive other : String} {groups : List Group}
    (distinct : requireDistinct other groups = .ok ()) :
    requireDistinct archive (groups.map builder.respelledGroup) = .ok () := by
  rw [requireDistinct_eq_ok_iff] at distinct ⊢
  intro other member
  obtain ⟨group, among, rfl⟩ := List.mem_map.mp member
  have none : repeatedFile? (group.files.map builder.respelled) = none := by
    rw [repeatedFile?_map fun file => show (builder.respelled file).hash = file.hash from rfl,
      distinct group among]
    rfl
  exact none

theorem frame_of_short {file : PendingFile}
    (short : builder.flags.hasNameBlobs builder.version →
      (builder.version.encoding.encode file.path).length < 256) :
    builder.frame file = .ok ⟨file, builder.blob file⟩ := by
  unfold frame blob PrefixedName.writePlain
  by_cases blobs : builder.flags.hasNameBlobs builder.version
  · rw [if_pos blobs, if_pos blobs, if_pos (short blobs)]
  · rw [if_neg blobs, if_neg blobs]

theorem frameGroup_of_short {group : Group}
    (short : ∀ file ∈ group.files, builder.flags.hasNameBlobs builder.version →
      (builder.version.encoding.encode file.path).length < 256) :
    builder.frameGroup group = .ok (builder.framedGroup group) := by
  rw [frameGroup, Outcome.mapM_ok fun file member => frame_of_short (short file member)]
  rfl

/-- A builder to which all files were added by their states and contents. -/
def Filled [Codecs] (builder : Builder) : Prop :=
  ∀ file ∈ builder.files, ∃ state contents, file = builder.pend state contents

variable [Codecs] {file : PendingFile}

theorem Filled.parts_respelled (filled : builder.Filled) (member : file ∈ builder.files) :
    Path.toArchive (builder.respelled file).path = (builder.respelled file).path ∧
      Path.folder (builder.respelled file).path = builder.spelling file ∧
      Path.leaf (builder.respelled file).path = file.name := by
  obtain ⟨other, otherMember, spelled⟩ := exists_spelling member
  have archiveForm : Path.toArchive other.path = other.path := by
    obtain ⟨state, contents, rfl⟩ := filled other otherMember
    exact Path.toArchive_toArchive state.path
  have leaf : file.name = Path.leaf file.path := by
    obtain ⟨state, contents, rfl⟩ := filled file member
    rfl
  rw [respelled, spelled, leaf]
  exact ⟨Path.toArchive_inFolder archiveForm file.path,
    Path.parts_inFolder (Path.leaf_plain file.path)⟩

theorem pend_renamed (builder : Builder) {state other : FileState} {path : String}
    (contents : Bytes) (archiveForm : Path.toArchive other.path = path)
    (leaf : Path.leaf path = Path.leaf (Path.toArchive state.path))
    (flip : other.flipCompression = state.flipCompression) :
    builder.pend other contents = { builder.pend state contents with path } := by
  unfold pend
  simp only [archiveForm, leaf, flip]

/-- The file that is added again for what is seen of an entry. -/
def pendView (builder : Builder) (view : EntryView) : PendingFile :=
  builder.pend ⟨view.path, 0, view.flipCompression⟩ (view.contents.getD [])

theorem Filled.pendView_spelledView (filled : builder.Filled)
    (inverts : builder.version.compression.Inverts) (member : file ∈ builder.files) :
    builder.pendView (builder.spelledView file) = builder.respelled file := by
  obtain ⟨archiveForm, -, leaf⟩ := filled.parts_respelled member
  obtain ⟨state, contents, rfl⟩ := filled file member
  have unpacked : (builder.spelledView (builder.pend state contents)).contents = some contents :=
    (builder.pend_holds state contents).unpackedEq inverts
  rw [pendView, unpacked]
  exact builder.pend_renamed contents archiveForm leaf rfl

theorem Filled.uniform_respelledGroup (filled : builder.Filled) {groups : List Group}
    (grouped : Grouped builder.version.encoding builder.files groups) {group : Group}
    (among : group ∈ groups) :
    (builder.respelledGroup group).Uniform builder.version.encoding := by
  intro archive other otherMember
  obtain ⟨file, fileAmong, rfl⟩ := List.mem_map.mp otherMember
  have member := grouped.mem_files among fileAmong
  obtain ⟨-, folder, -⟩ := filled.parts_respelled member
  obtain ⟨key, hash, written⟩ := grouped.spelling among fileAmong
  change (builder.respelled file).folder = _ at folder
  rw [Group.start, folder, written, key, hash]
  rfl

/-! ## Building again -/

theorem Filled.respelled_eq_self (filled : builder.Filled) (member : file ∈ builder.files)
    (same : builder.spelling file = file.folder) : builder.respelled file = file := by
  have path : Path.inFolder file.folder file.name = file.path := by
    obtain ⟨state, contents, rfl⟩ := filled file member
    exact Path.inFolder_parts (Path.toArchive_toArchive state.path)
  rw [respelled, same, path]

/-- A builder with the files of some groups under the paths that the archive shows for them. -/
def again (builder : Builder) (archive : String) (groups : List Group) : Builder :=
  { builder with archive, files := (groups.flatMap Group.files).map builder.respelled }

section Again

variable {groups : List Group} {archive : String}
  (filled : builder.Filled) (grouped : Grouped builder.version.encoding builder.files groups)
  (separate : Separate groups)

include filled grouped separate in
theorem groups_again :
    (builder.again archive groups).groups = .ok (groups.map builder.respelledGroup) := by
  have files : (builder.again archive groups).files =
      (groups.map builder.respelledGroup).flatMap Group.files := by
    rw [again, List.map_flatMap, List.flatMap_map]
    rfl
  have separateAgain : Separate ([] ++ groups.map builder.respelledGroup) := by
    constructor
    · intro other member
      obtain ⟨group, among, rfl⟩ := List.mem_map.mp member
      simpa [respelledGroup] using separate.nonempty group among
    · rw [List.nil_append, List.map_map]
      exact separate.distinct
  have uniform : ∀ group ∈ groups.map builder.respelledGroup,
      group.Uniform builder.version.encoding := by
    intro other member
    obtain ⟨group, among, rfl⟩ := List.mem_map.mp member
    exact filled.uniform_respelledGroup grouped among
  rw [Builder.groups, files]
  exact foldlM_insert_groups separateAgain uniform

include filled grouped in
theorem alike_respelledGroup (alike : builder.SpelledAlike) {group : Group}
    (among : group ∈ groups) :
    FramedGroup.Alike (builder.framedGroup group)
      ((builder.again archive groups).framedGroup (builder.respelledGroup group)) where
  hash := rfl
  nameBytes := rfl
  files := by
    rw [framedGroup, framedGroup, respelledGroup, List.forall₂_map_left_iff,
      List.forall₂_map_right_iff, List.forall₂_map_right_iff, List.forall₂_same]
    intro file fileAmong
    have member := grouped.mem_files among fileAmong
    refine ⟨rfl, rfl, rfl, rfl, rfl, rfl, ?_⟩
    change builder.blob file = builder.blob (builder.respelled file)
    by_cases blobs : builder.flags.hasNameBlobs builder.version
    · rw [filled.respelled_eq_self member (alike blobs file member)]
    · rw [blob, blob, if_neg blobs, if_neg blobs]

end Again

/-- The groups of a finished archive are written again as they are, in whatever order groups are
taken from their table. -/
theorem buildArranged_again {arrange rearrange : List Group → List Group} {bytes : Bytes}
    (filled : builder.Filled) (legible : builder.Legible) (spelledAlike : builder.SpelledAlike)
    (arranged : ∀ groups, (arrange groups).Perm groups)
    (rearranged : ∀ groups, (rearrange groups).Perm groups)
    (built : builder.buildArranged arrange = .ok bytes) :
    ∃ groups, Grouped builder.version.encoding builder.files groups ∧
      builder.write (groups.map builder.framedGroup) = .ok bytes ∧
      (∀ file ∈ builder.files, builder.flags.hasNameBlobs builder.version →
        (builder.version.encoding.encode file.path).length < 256) ∧
      ∀ archive, (builder.again archive groups).buildArranged rearrange = .ok bytes := by
  obtain ⟨table, tableOk, distinct, written, short⟩ := buildArranged_steps built
  obtain ⟨grouped, separate, inOrder⟩ := sorted_groups arranged tableOk
  generalize sortGroups (arrange table) = groups at grouped separate inOrder distinct written short
  have blobs : ∀ file ∈ builder.files, builder.flags.hasNameBlobs builder.version →
      (builder.version.encoding.encode file.path).length < 256 := by
    intro file member
    obtain ⟨group, among, fileAmong⟩ := grouped.exists_group member
    exact short group among file fileAmong
  refine ⟨groups, grouped, written, blobs, fun archive => ?_⟩
  let rebuilt := builder.again archive groups
  let regrouped := groups.map builder.respelledGroup
  have sorted : sortGroups (rearrange regrouped) = regrouped := by
    refine sortGroups_eq_of_perm (inOrder_respelled inOrder) ?_ (rearranged regrouped)
    rw [List.map_map]
    exact legible.nodup_hash grouped separate
  have framed : regrouped.mapM rebuilt.frameGroup = .ok (regrouped.map rebuilt.framedGroup) := by
    refine Outcome.mapM_ok fun other otherAmong => frameGroup_of_short ?_
    obtain ⟨group, among, rfl⟩ := List.mem_map.mp otherAmong
    intro copy copyAmong hasBlobs
    obtain ⟨file, fileAmong, rfl⟩ := List.mem_map.mp copyAmong
    have member := grouped.mem_files among fileAmong
    rw [filled.respelled_eq_self member (spelledAlike hasBlobs file member)]
    exact blobs file member hasBlobs
  have alike : builder.Alike rebuilt := by
    refine ⟨rfl, rfl, rfl, ?_⟩
    rw [← grouped.members.length_eq]
    exact (List.length_map _).symm
  have same : List.Forall₂ FramedGroup.Alike (groups.map builder.framedGroup)
      (regrouped.map rebuilt.framedGroup) := by
    rw [List.forall₂_map_left_iff, List.forall₂_map_right_iff, List.forall₂_map_right_iff,
      List.forall₂_same]
    exact fun group among => alike_respelledGroup filled grouped spelledAlike among
  rw [buildArranged, groups_again filled grouped separate, Outcome.ok_bind]
  dsimp only
  rw [sorted, requireDistinct_respelled distinct, Outcome.ok_bind, framed, Outcome.ok_bind]
  exact alike.write same bytes written

theorem foldl_add (builder : Builder) (archive : String) (opened : Archive)
    (files : List FileRecord) :
    files.foldl (fun builder file =>
        builder.add file.state (Bethesda.File.tes4 opened file).contentsOf)
      { builder with archive, files := [] } =
    { builder with
      archive
      files := files.map fun file =>
        builder.pend file.state (Bethesda.File.tes4 opened file).contentsOf } := by
  have added := addAll_eq { builder with archive, files := [] }
    (files.map fun file => (file.state, (Bethesda.File.tes4 opened file).contentsOf))
  rw [addAll, List.foldl_map, List.map_map] at added
  exact added

theorem Filled.holds (filled : builder.Filled) (member : file ∈ builder.files) :
    ∃ contents, file.Holds builder.flags builder.version contents := by
  obtain ⟨state, contents, rfl⟩ := filled file member
  exact ⟨contents, builder.pend_holds state contents⟩

/-- An entry that is seen as a file of the builder can be read. -/
theorem Filled.readable (filled : builder.Filled) (inverts : builder.version.compression.Inverts)
    {opened : Archive} {entry : FileRecord} (member : file ∈ builder.files)
    (seen : builder.spelledView file = opened.view entry) :
    ∃ contents, (Bethesda.File.tes4 opened entry).contents = .ok contents := by
  obtain ⟨contents, holds⟩ := filled.holds member
  have unpacked : (opened.contents entry).toOption = some contents :=
    (congrArg EntryView.contents seen).symm.trans (holds.unpackedEq inverts)
  change ∃ contents, opened.contents entry = .ok contents
  cases read : opened.contents entry with
  | error failure =>
      rw [read] at unpacked
      cases unpacked
  | ok found => exact ⟨found, rfl⟩

/-- Rebuilding an archive that was built reproduces it. -/
theorem rebuild_built {name : String} {arrange rearrange : List Group → List Group}
    {bytes : Bytes} {opened : Archive} (filled : builder.Filled) (legible : builder.Legible)
    (spelledAlike : builder.SpelledAlike)
    (arranged : ∀ groups, (arrange groups).Perm groups)
    (rearranged : ∀ groups, (rearrange groups).Perm groups)
    (inverts : builder.version.compression.Inverts)
    (built : builder.buildArranged arrange = .ok bytes)
    (openedOk : Archive.open ⟨name, bytes⟩ = .ok opened) :
    (Bethesda.Archive.tes4 opened).rebuildArranged rearrange =
      .ok (builder.files.length, bytes) := by
  obtain ⟨groups, grouped, written, blobs, again⟩ :=
    buildArranged_again filled legible spelledAlike arranged rearranged built
  obtain ⟨reopened, folders, reopenedOk, stateEq, foldersOk, seen⟩ :=
    reopen_groups name grouped written blobs (fun file member => filled.holds member)
      (fun _ file member => ⟨Encoding.encode_ne_nil _ (legible.notEmpty file member),
        Encoding.encode_nonzero _ (legible.noZero file member)⟩) inverts
  obtain rfl : reopened = opened := Except.ok.inj (reopenedOk.symm.trans openedOk)
  rw [view_spelled legible.folderNames legible.fileNames grouped legible.survives] at seen
  let listing := folders.flatMap Folder.files
  have listed : (Bethesda.Archive.tes4 reopened).files =
      .ok (listing.map (Bethesda.File.tes4 reopened)) := by
    rw [Bethesda.Archive.files, Archive.files, foldersOk]
    rfl
  have count : listing.length = builder.files.length := by
    have lengths := congrArg List.length seen
    rwa [List.length_map, List.length_map, grouped.members.length_eq] at lengths
  have readable : ∀ entry ∈ listing, ∃ contents,
      (Bethesda.File.tes4 reopened entry).contents = .ok contents := by
    intro entry member
    have among : reopened.view entry ∈ listing.map reopened.view := List.mem_map_of_mem member
    rw [seen] at among
    obtain ⟨file, fileAmong, viewEq⟩ := List.mem_map.mp among
    exact filled.readable inverts (grouped.members.mem_iff.mp fileAmong) viewEq
  have restored : (listing.map fun entry =>
      builder.pend entry.state (Bethesda.File.tes4 reopened entry).contentsOf) =
        (groups.flatMap Group.files).map builder.respelled := by
    calc listing.map (fun entry =>
        builder.pend entry.state (Bethesda.File.tes4 reopened entry).contentsOf)
      _ = (listing.map reopened.view).map builder.pendView := by
          rw [List.map_map]
          rfl
      _ = (groups.flatMap Group.files).map builder.respelled := by
          rw [seen, List.map_map]
          exact List.map_congr_left fun file among =>
            filled.pendView_spelledView inverts (grouped.members.mem_iff.mp among)
  have created : Bethesda.Builder.create reopened.source.name (.tes4 reopened.state) =
      .ok (.tes4 { builder with archive := reopened.source.name, files := [] }) := by
    rw [stateEq]
    rfl
  have rebuilt := again reopened.source.name
  rw [Builder.again, ← restored, ← foldl_add] at rebuilt
  rw [← count]
  exact Bethesda.Archive.rebuildArranged_of_readable created listed readable (fun _ _ => rfl)
    rebuilt

end Builder
end Tes4
end GameArchive
