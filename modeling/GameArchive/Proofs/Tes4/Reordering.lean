import GameArchive.Proofs.Tes4.Duplicates
import GameArchive.Proofs.Tes4.Respelling

/-!
# Adding files in another order

There is one way only to put some files into groups in strict order, with the files of each group in
strict order, if every folder is spelled in one way.  Hence a finished archive tells neither in which
order its files were added nor in which order the groups were taken from their table.
-/

namespace GameArchive
namespace Tes4

open Outcome (Yields)

/-- Folders that agree up to case are spelled in one way. -/
def OneSpelling (paths : List String) : Prop :=
  ∀ first ∈ paths, ∀ second ∈ paths,
    Lowercase.text (Path.folder first) = Lowercase.text (Path.folder second) →
      Path.folder first = Path.folder second

instance OneSpelling.decidable (paths : List String) : Decidable (OneSpelling paths) :=
  inferInstanceAs (Decidable (∀ first ∈ paths, _))

theorem OneSpelling.perm {paths others : List String} (alike : OneSpelling paths)
    (same : others.Perm paths) : OneSpelling others :=
  fun first firstAmong second secondAmong =>
    alike first (same.mem_iff.mp firstAmong) second (same.mem_iff.mp secondAmong)

theorem Distinguishable.perm {paths others : List String} (distinguishable : Distinguishable paths)
    (same : others.Perm paths) : Distinguishable others :=
  fun first firstAmong second secondAmong =>
    distinguishable first (same.mem_iff.mp firstAmong) second (same.mem_iff.mp secondAmong)

/-- Values in strict order are determined by which values they are. -/
theorem Increasing.eq_of_mem_iff {α : Type} {hash : α → UInt64} {values others : List α}
    (increasing : Increasing hash values) (increasingToo : Increasing hash others)
    (same : ∀ value, value ∈ values ↔ value ∈ others) : values = others := by
  have nodup {list : List α} (ordered : Increasing hash list) : list.Nodup := by
    refine List.Pairwise.imp (fun before => ?_) ordered
    rintro rfl
    exact UInt64.lt_irrefl _ before
  have perm := (List.perm_ext_iff_of_nodup (nodup increasing) (nodup increasingToo)).mpr same
  refine List.Perm.eq_of_pairwise ?_ increasing increasingToo perm
  intro first second _ _ before behind
  exact absurd (UInt64.lt_trans before behind) (UInt64.lt_irrefl _)

section Groups

variable {encoding : Encoding} {files others : List PendingFile} {groups counterparts : List Group}
  {group : Group} {file : PendingFile}

theorem firstSpelling?_eq_some_of_alike (alike : OneSpelling (files.map PendingFile.path))
    (member : file ∈ files) {folder : String}
    (found : firstSpelling? (files.map PendingFile.folder) (Lowercase.text file.folder) =
      some folder) : folder = file.folder := by
  have lower := lowercase_of_firstSpelling? found
  unfold firstSpelling? at found
  obtain ⟨other, among, rfl⟩ := List.mem_map.mp (List.mem_of_find?_eq_some found)
  exact alike other.path (List.mem_map_of_mem among) file.path (List.mem_map_of_mem member) lower

theorem Builder.spelling_of_alike {builder : Builder}
    (alike : OneSpelling (builder.files.map PendingFile.path)) (member : file ∈ builder.files) :
    builder.spelling file = file.folder := by
  have spelling : builder.spelling file =
      (firstSpelling? (builder.files.map PendingFile.folder)
        (Lowercase.text file.folder)).getD file.folder := by
    rw [Builder.spelling, spelledFolder, List.map_map]
    rfl
  rw [spelling]
  cases found : firstSpelling? (builder.files.map PendingFile.folder)
      (Lowercase.text file.folder) with
  | none => rfl
  | some folder => exact firstSpelling?_eq_some_of_alike alike member found

namespace Grouped

theorem nameBytes_of_alike (grouped : Grouped encoding files groups)
    (alike : OneSpelling (files.map PendingFile.path)) (groupAmong : group ∈ groups)
    (fileAmong : file ∈ group.files) :
    PrefixedName.writeTerminated (encoding.encode file.folder) = .ok group.nameBytes := by
  obtain ⟨folder, found, -, written⟩ := grouped.spelled group groupAmong
  rw [← grouped.keyed group groupAmong file fileAmong] at found
  rwa [firstSpelling?_eq_some_of_alike alike (grouped.mem_files groupAmong fileAmong) found]
    at written

theorem mem_group_iff (grouped : Grouped encoding files groups) (separate : Separate groups)
    (groupAmong : group ∈ groups) :
    file ∈ group.files ↔ file ∈ files ∧ Lowercase.text file.folder = group.key := by
  constructor
  · intro member
    exact ⟨grouped.mem_files groupAmong member, grouped.keyed group groupAmong file member⟩
  · rintro ⟨member, key⟩
    obtain ⟨another, anotherAmong, inAnother⟩ := grouped.exists_group member
    have keys := (grouped.keyed another anotherAmong file inAnother).symm.trans key
    rwa [← List.inj_on_of_nodup_map separate.distinct anotherAmong groupAmong keys]

end Grouped

/-- The groups of some files, in strict order and with their files in strict order. -/
structure Strict (encoding : Encoding) (files : List PendingFile) (groups : List Group) :
    Prop where
  grouped : Grouped encoding files groups
  separate : Separate groups
  increasing : Increasing Group.hash groups
  increasingFiles : ∀ group ∈ groups, Increasing PendingFile.hash group.files

namespace Strict

theorem mem_of_perm (strict : Strict encoding files groups)
    (strictToo : Strict encoding others counterparts) (same : others.Perm files)
    (alike : OneSpelling (files.map PendingFile.path)) (groupAmong : group ∈ groups) :
    group ∈ counterparts := by
  obtain ⟨file, fileAmong⟩ :=
    List.exists_mem_of_ne_nil _ (strict.separate.nonempty group groupAmong)
  have member := strict.grouped.mem_files groupAmong fileAmong
  obtain ⟨counterpart, among, inCounterpart⟩ :=
    strictToo.grouped.exists_group (same.mem_iff.mpr member)
  have key : group.key = counterpart.key :=
    (strict.grouped.keyed group groupAmong file fileAmong).symm.trans
      (strictToo.grouped.keyed counterpart among file inCounterpart)
  have hash : group.hash = counterpart.hash :=
    (strict.grouped.hash_eq groupAmong fileAmong).trans
      (strictToo.grouped.hash_eq among inCounterpart).symm
  have nameBytes : group.nameBytes = counterpart.nameBytes := Except.ok.inj
    ((strict.grouped.nameBytes_of_alike alike groupAmong fileAmong).symm.trans
      (strictToo.grouped.nameBytes_of_alike (alike.perm (same.map _)) among inCounterpart))
  have filesEq : group.files = counterpart.files := by
    apply (strict.increasingFiles group groupAmong).eq_of_mem_iff
      (strictToo.increasingFiles counterpart among)
    intro other
    rw [strict.grouped.mem_group_iff strict.separate groupAmong,
      strictToo.grouped.mem_group_iff strictToo.separate among, key, same.mem_iff]
  have equal : group = counterpart := by
    cases group
    cases counterpart
    rw [Group.mk.injEq]
    exact ⟨key, hash, nameBytes, filesEq⟩
  exact equal ▸ among

theorem unique (strict : Strict encoding files groups)
    (strictToo : Strict encoding others counterparts) (same : others.Perm files)
    (alike : OneSpelling (files.map PendingFile.path)) : groups = counterparts := by
  apply strict.increasing.eq_of_mem_iff strictToo.increasing
  intro group
  constructor
  · exact strict.mem_of_perm strictToo same alike
  · exact strictToo.mem_of_perm strict same.symm (alike.perm (same.map _))

end Strict

theorem Sorted.strict {archive : String} (sorted : Sorted encoding files groups)
    (distinguishable : Distinguishable (files.map PendingFile.path))
    (distinct : requireDistinct archive groups = .ok ()) : Strict encoding files groups where
  grouped := sorted.grouped
  separate := sorted.separate
  increasing :=
    (sorted.grouped.increasing_iff sorted.separate sorted.inOrder).mpr distinguishable
  increasingFiles := fun group member => increasing_of_repeatedFile?
    (sorted.inOrder.2 group member) (requireDistinct_eq_ok_iff.mp distinct group member)

end Groups

namespace Builder

variable {builder : Builder} {others : List PendingFile}

theorem foldersFit_of_perm (fit : builder.FoldersFit) (same : others.Perm builder.files)
    (alike : OneSpelling (builder.files.map PendingFile.path)) :
    { builder with files := others }.FoldersFit := by
  intro file member
  have before := same.mem_iff.mp member
  have short := fit file before
  have spelling : { builder with files := others }.spelling file = file.folder :=
    spelling_of_alike (alike.perm (same.map _)) member
  rw [spelling_of_alike alike before] at short
  rwa [spelling]

/-- What is finished with some files is finished with the same files in another order. -/
theorem buildArranged_yields {arrange rearrange : List Group → List Group}
    (arranged : ∀ groups, (arrange groups).Perm groups)
    (rearranged : ∀ groups, (rearrange groups).Perm groups)
    (same : others.Perm builder.files)
    (alike : OneSpelling (builder.files.map PendingFile.path))
    (distinguishable : Distinguishable (builder.files.map PendingFile.path)) :
    Yields (builder.buildArranged arrange)
      ({ builder with files := others }.buildArranged rearrange) := by
  intro bytes built
  obtain ⟨table, tableOk, further⟩ := Outcome.bind_eq_ok_iff.mp built
  obtain ⟨⟨⟩, distinct, written⟩ := Outcome.bind_eq_ok_iff.mp further
  have sorted := sorted_groups arranged tableOk
  obtain ⟨otherTable, otherTableOk⟩ :=
    exists_groups (foldersFit_of_perm (foldersFit_of_groups tableOk) same alike)
  have otherSorted := sorted_groups rearranged otherTableOk
  have otherDistinct : requireDistinct builder.archive (sortGroups (rearrange otherTable)) =
      .ok () := by
    rw [otherSorted.distinct_iff, (same.map _).nodup_iff]
    exact sorted.distinct_iff.mp distinct
  have groupsEq : sortGroups (arrange table) = sortGroups (rearrange otherTable) :=
    (sorted.strict distinguishable distinct).unique
      (otherSorted.strict (distinguishable.perm (same.map _)) otherDistinct) same alike
  rw [buildArranged, otherTableOk, Outcome.ok_bind]
  dsimp only
  rw [otherDistinct, Outcome.ok_bind, ← groupsEq]
  -- Framing looks at no other file, and writing only at the number of files.
  have framing : { builder with files := others }.frameGroup = builder.frameGroup := rfl
  have headers : builder.Alike { builder with files := others } :=
    ⟨rfl, rfl, rfl, same.length_eq.symm⟩
  rw [framing]
  refine (Yields.refl _).bind (fun framed => headers.write ?_) bytes written
  refine List.forall₂_same.mpr fun group _ => ⟨rfl, rfl, ?_⟩
  exact List.forall₂_same.mpr fun file _ => ⟨rfl, rfl, rfl, rfl, rfl, rfl, rfl⟩

end Builder

theorem Builder.addAll_yields [Codecs] {archive : String} {state : State} {builder : Builder}
    {added reordered : List (FileState × Bytes)} {arrange rearrange : List Group → List Group}
    (created : create archive state = .ok builder)
    (arranged : ∀ groups, (arrange groups).Perm groups)
    (rearranged : ∀ groups, (rearrange groups).Perm groups)
    (same : reordered.Perm added)
    (alike : OneSpelling (added.map fun entry => Path.toArchive entry.1.path))
    (distinguishable : Distinguishable (added.map fun entry => Path.toArchive entry.1.path)) :
    Yields ((builder.addAll added).buildArranged arrange)
      ((builder.addAll reordered).buildArranged rearrange) := by
  have filesEq := (files_addAll created added).2
  have filesSame : (builder.addAll reordered).files.Perm (builder.addAll added).files := by
    rw [filesEq, (files_addAll created reordered).2]
    exact same.map _
  have reorderedEq : builder.addAll reordered =
      { builder.addAll added with files := (builder.addAll reordered).files } := by
    rw [addAll_eq, addAll_eq]
  have paths : (builder.addAll added).files.map PendingFile.path =
      added.map fun entry => Path.toArchive entry.1.path := by
    rw [filesEq, List.map_map]
    rfl
  rw [← paths] at alike distinguishable
  rw [reorderedEq]
  exact buildArranged_yields arranged rearranged filesSame alike distinguishable

/-- Who adds the same files in another order finishes the same archive, or none in both cases, in
whichever order the groups are taken from their table. -/
theorem build_of_reordered [Codecs] {archive : String} {state : State} {builder : Builder}
    {added reordered : List (FileState × Bytes)} {arrange rearrange : List Group → List Group}
    (created : Builder.create archive state = .ok builder)
    (arranged : ∀ groups, (arrange groups).Perm groups)
    (rearranged : ∀ groups, (rearrange groups).Perm groups)
    (same : reordered.Perm added)
    (alike : OneSpelling (added.map fun entry => Path.toArchive entry.1.path))
    (distinguishable : Distinguishable (added.map fun entry => Path.toArchive entry.1.path)) :
    let first := (builder.addAll added).buildArranged arrange
    let second := (builder.addAll reordered).buildArranged rearrange
    (∃ bytes, first = .ok bytes ∧ second = .ok bytes) ∨
      ∃ failure other, first = .error failure ∧ second = .error other := by
  intro first second
  have forth : Yields first second :=
    Builder.addAll_yields created arranged rearranged same alike distinguishable
  have back : Yields second first :=
    Builder.addAll_yields created rearranged arranged same.symm (alike.perm (same.map _))
      (distinguishable.perm (same.map _))
  cases firstOutcome : first with
  | ok bytes => exact .inl ⟨bytes, rfl, forth bytes firstOutcome⟩
  | error failure =>
      cases secondOutcome : second with
      | ok bytes =>
          have succeeded := back bytes secondOutcome
          rw [firstOutcome] at succeeded
          cases succeeded
      | error other => exact .inr ⟨failure, other, rfl, rfl⟩

/-- Three files in two folders of one spelling each. -/
def alikeFiles : List (FileState × Bytes) :=
  [(⟨"readme.txt", 0, false⟩, [0x68, 0x69]),
    (⟨"Meshes/axe.nif", 0, false⟩, [1, 2, 3, 1, 2, 3]),
    (⟨"Meshes\\bow.nif", 1, true⟩, [])]

theorem build_of_reordered_reversed :
    let paths := alikeFiles.map fun entry => Path.toArchive entry.1.path
    OneSpelling paths ∧ Distinguishable paths ∧
      ∃ builder bytes, Builder.create "sample.bsa" sampleState = .ok builder ∧
        (builder.addAll alikeFiles).buildArranged id = .ok bytes ∧
        (builder.addAll alikeFiles.reverse).buildArranged List.reverse = .ok bytes := by
  intro paths
  let builder : Builder := ⟨"sample.bsa", .sse, ⟨0x107⟩, 0x5, []⟩
  have created : Builder.create "sample.bsa" sampleState = .ok builder := by decide +kernel
  have inOrder : ((builder.addAll alikeFiles).groups.map fun groups =>
      decide (InOrder (id groups))) = .ok true := by decide +kernel
  have alike : OneSpelling paths := by decide +kernel
  have distinguishable : Distinguishable paths := by decide +kernel
  obtain ⟨bytes, built⟩ := Builder.exists_buildArranged_eq_ok inOrder (by decide +kernel)
  refine ⟨alike, distinguishable, builder, bytes, created, built, ?_⟩
  have arranged : ∀ groups : List Group, (id groups).Perm groups := List.Perm.refl
  rcases build_of_reordered created arranged List.reverse_perm alikeFiles.reverse_perm alike
    distinguishable with ⟨found, first, second⟩ | ⟨failure, other, failed, -⟩
  · cases built.symm.trans first
    exact second
  · cases built.symm.trans failed

end Tes4
end GameArchive
