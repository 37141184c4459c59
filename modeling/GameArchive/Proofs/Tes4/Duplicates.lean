import GameArchive.Proofs.Path.Lowercasing
import GameArchive.Proofs.Tes4.Search

/-!
# Files that are refused as duplicates

Two files are told apart by their folders, up to case, and by the hashes of their names.  In
sorted groups those that are not told apart stand side by side, so that looking at neighbours finds
them all.  Whoever adds two paths that differ in case alone has added two such files, and so has
whoever adds two names of one folder whose hashes agree.
-/

namespace GameArchive
namespace Tes4

open Outcome (FailsWith)

/-- What files are told apart by. -/
def PendingFile.identity (file : PendingFile) : String × UInt64 :=
  (Lowercase.text file.folder, file.hash)

/-! ## Names of folders that are too long -/

/-- The name of every folder, spelled as in its first file, has room behind its length. -/
def Builder.FoldersFit (builder : Builder) : Prop :=
  ∀ file ∈ builder.files,
    (builder.version.encoding.encode (builder.spelling file)).length < 255

instance Builder.FoldersFit.decidable (builder : Builder) : Decidable builder.FoldersFit :=
  inferInstanceAs (Decidable (∀ file ∈ builder.files, _))

section Folders

variable {archive : String} {encoding : Encoding} {groups : List Group} {failure : ExtractError}

theorem Group.start_eq_error {file : PendingFile}
    (failed : start archive encoding file = .error failure) :
    255 ≤ (encoding.encode file.folder).length ∧ failure = .io archive (.longName 254) := by
  unfold start PrefixedName.writeTerminated at failed
  split at failed
  · next cause refused =>
      split at refused
      · cases refused
      · next long =>
          cases refused
          cases failed
          exact ⟨by omega, rfl⟩
  · cases failed

/-- A file is refused only if it begins a folder whose name is too long. -/
theorem Group.insert_eq_error {file : PendingFile}
    (failed : insert archive encoding file groups = .error failure) :
    (∀ group ∈ groups, group.key ≠ Lowercase.text file.folder) ∧
      255 ≤ (encoding.encode file.folder).length ∧ failure = .io archive (.longName 254) := by
  induction groups with
  | nil =>
      rcases Outcome.bind_eq_error_iff.mp failed with refused | ⟨group, -, impossible⟩
      · exact ⟨by simp, start_eq_error refused⟩
      · cases impossible
  | cons group groups ih =>
      rw [insert] at failed
      split at failed
      · cases failed
      · next elsewhere =>
          rcases Outcome.bind_eq_error_iff.mp failed with refused | ⟨others, -, impossible⟩
          · obtain ⟨unknown, long, equal⟩ := ih refused
            exact ⟨List.forall_mem_cons.mpr ⟨elsewhere, unknown⟩, long, equal⟩
          · cases impossible

/-- Files are refused only if the first of a folder spells a name that is too long. -/
theorem Grouped.foldlM_insert_eq_error {done rest : List PendingFile}
    (grouped : Grouped encoding done groups)
    (failed : rest.foldlM (fun groups file => Group.insert archive encoding file groups) groups =
      .error failure) :
    failure = .io archive (.longName 254) ∧ ∃ file ∈ rest,
      firstSpelling? ((done ++ rest).map PendingFile.folder) (Lowercase.text file.folder) =
          some file.folder ∧
        255 ≤ (encoding.encode file.folder).length := by
  induction rest generalizing done groups with
  | nil => cases failed
  | cons file rest ih =>
      rw [List.foldlM_cons] at failed
      rcases Outcome.bind_eq_error_iff.mp failed with refused | ⟨middle, inserted, later⟩
      · obtain ⟨unknown, long, equal⟩ := Group.insert_eq_error refused
        refine ⟨equal, file, List.mem_cons_self .., ?_, long⟩
        have first := grouped.firstSpelling?_eq_none unknown
        unfold firstSpelling? at first ⊢
        rw [List.map_append, List.find?_append, first]
        simp
      · obtain ⟨equal, other, member, spelled, long⟩ := ih (grouped.insert inserted) later
        rw [List.append_assoc] at spelled
        exact ⟨equal, other, List.mem_cons_of_mem _ member, spelled, long⟩

end Folders

namespace Builder

variable {builder : Builder} {groups : List Group}

theorem foldersFit_of_groups (succeeded : builder.groups = .ok groups) : builder.FoldersFit := by
  have grouped := groups_eq_ok succeeded
  intro file member
  obtain ⟨group, groupAmong, fileAmong⟩ := grouped.exists_group member
  obtain ⟨-, -, written⟩ := grouped.spelling groupAmong fileAmong
  have short := (writeTerminated_eq_ok written).1
  omega

theorem groups_eq_error {failure : ExtractError} (failed : builder.groups = .error failure) :
    ¬ builder.FoldersFit ∧ failure = .io builder.archive (.longName 254) := by
  obtain ⟨equal, file, member, spelled, long⟩ :=
    (Grouped.nil builder.version.encoding).foldlM_insert_eq_error failed
  refine ⟨fun fit => ?_, equal⟩
  have short := fit file member
  have spelling : builder.spelling file = file.folder := spelledFolder_eq spelled
  rw [spelling] at short
  omega

theorem exists_groups (fit : builder.FoldersFit) : ∃ groups, builder.groups = .ok groups := by
  cases outcome : builder.groups with
  | error failure => exact absurd fit (groups_eq_error outcome).1
  | ok groups => exact ⟨groups, rfl⟩

end Builder

/-! ## Files that are not told apart -/

section Repeated

variable {encoding : Encoding} {files : List PendingFile} {groups : List Group}

/-- The file that is found stands behind one of its hash. -/
theorem repeatedFile?_eq_some {found : PendingFile} (repeated : repeatedFile? files = some found) :
    ∃ front earlier back, files = front ++ earlier :: found :: back ∧
      earlier.hash = found.hash := by
  fun_induction repeatedFile? files with
  | case1 first second rest same =>
      cases repeated
      exact ⟨[], first, rest, rfl, same⟩
  | case2 first second rest _ ih =>
      obtain ⟨front, earlier, back, row, same⟩ := ih repeated
      exact ⟨first :: front, earlier, back, by rw [row, List.cons_append], same⟩
  | case3 files _ => cases repeated

theorem requireDistinct_eq_error {archive : String} {failure : ExtractError}
    (refused : requireDistinct archive groups = .error failure) :
    ∃ group ∈ groups, ∃ file, repeatedFile? group.files = some file ∧
      failure = .duplicateEntry archive file.path := by
  unfold requireDistinct at refused
  split at refused
  · next file found =>
      obtain ⟨group, member, repeated⟩ := List.exists_of_findSome?_eq_some found
      cases refused
      exact ⟨group, member, file, repeated, rfl⟩
  · cases refused

theorem Grouped.identity_eq {group : Group} {file : PendingFile}
    (grouped : Grouped encoding files groups) (groupAmong : group ∈ groups)
    (fileAmong : file ∈ group.files) : file.identity = (group.key, file.hash) := by
  rw [PendingFile.identity, grouped.keyed group groupAmong file fileAmong]

/-- In sorted groups no neighbours have one hash exactly if all files are told apart. -/
theorem Sorted.distinct_iff {archive : String} (sorted : Sorted encoding files groups) :
    requireDistinct archive groups = .ok () ↔ (files.map PendingFile.identity).Nodup := by
  obtain ⟨grouped, separate, inOrder⟩ := sorted
  rw [requireDistinct_eq_ok_iff, ← (grouped.members.map PendingFile.identity).nodup_iff,
    List.map_flatMap, List.nodup_flatMap]
  constructor
  · intro distinct
    constructor
    · intro group member
      have increasing := increasing_of_repeatedFile? (inOrder.2 group member) (distinct group member)
      refine List.pairwise_map.mpr (increasing.imp fun before same => ?_)
      exact UInt64.ne_of_lt before (congrArg Prod.snd same)
    · refine (List.pairwise_map.mp separate.distinct).imp_of_mem ?_
      intro first second firstAmong secondAmong keys identity inFirst inSecond
      obtain ⟨file, fileAmong, rfl⟩ := List.mem_map.mp inFirst
      obtain ⟨other, otherAmong, same⟩ := List.mem_map.mp inSecond
      rw [grouped.identity_eq firstAmong fileAmong, grouped.identity_eq secondAmong otherAmong]
        at same
      exact keys (congrArg Prod.fst same).symm
  · rintro ⟨each, -⟩ group member
    cases repeated : repeatedFile? group.files with
    | none => rfl
    | some file =>
        obtain ⟨front, earlier, back, row, same⟩ := repeatedFile?_eq_some repeated
        have apart := List.pairwise_map.mp (each group member)
        rw [row] at apart
        have neighbours := (List.pairwise_cons.mp (List.pairwise_append.mp apart).2.1).1 file
          (List.mem_cons_self ..)
        rw [grouped.identity_eq member (by simp [row]), grouped.identity_eq member (by simp [row]),
          same] at neighbours
        exact absurd rfl neighbours

end Repeated

/-! ## Failures of other kinds -/

/-- The failure does not report a duplicate. -/
def NotDuplicate (failure : ExtractError) : Prop :=
  ∀ archive path, failure ≠ .duplicateEntry archive path

namespace Builder

variable (builder : Builder)

theorem frameGroup_notDuplicate (group : Group) :
    FailsWith NotDuplicate (builder.frameGroup group) := by
  have each (file : PendingFile) : FailsWith NotDuplicate (builder.frame file) := by
    unfold frame
    split
    · split
      · exact .error nofun
      · exact .ok _
    · exact .ok _
  exact (FailsWith.mapM fun file _ => each file).bind fun _ _ => .ok _

theorem word32_notDuplicate (archive : String) (value : Nat) :
    FailsWith NotDuplicate (word32 archive value) := by
  unfold word32
  split
  · exact .ok _
  · exact .error nofun

theorem folderRecords_notDuplicate (offset : Nat) (groups : List FramedGroup) :
    FailsWith NotDuplicate (builder.folderRecords offset groups) := by
  induction groups generalizing offset with
  | nil => exact .ok _
  | cons group groups ih =>
      unfold folderRecords
      dsimp only
      cases builder.version with
      | sse => exact (FailsWith.ok _).bind fun _ _ => (ih _).bind fun _ _ => .ok _
      | tes4 | fo3 =>
          exact (word32_notDuplicate _ _).bind fun _ _ => (FailsWith.ok _).bind fun _ _ =>
            (ih _).bind fun _ _ => .ok _

theorem fileRecords_notDuplicate (offset : Nat) (files : List FramedFile) :
    FailsWith NotDuplicate (builder.fileRecords offset files) := by
  induction files generalizing offset with
  | nil => exact .ok _
  | cons framed files ih =>
      have record : FailsWith NotDuplicate (builder.fileRecord offset framed) := by
        unfold fileRecord
        dsimp only
        split
        · exact .error nofun
        · exact (word32_notDuplicate _ _).bind fun _ _ => .ok _
      exact record.bind fun _ _ => (ih _).bind fun _ _ => .ok _

theorem folderBlocks_notDuplicate (offset : Nat) (groups : List FramedGroup) :
    FailsWith NotDuplicate (builder.folderBlocks offset groups) := by
  induction groups generalizing offset with
  | nil => exact .ok _
  | cons group groups ih =>
      exact (builder.fileRecords_notDuplicate offset group.files).bind fun _ _ =>
        (ih _).bind fun _ _ => .ok _

theorem write_notDuplicate (groups : List FramedGroup) :
    FailsWith NotDuplicate (builder.write groups) := by
  have header : FailsWith NotDuplicate (builder.header groups) :=
    (word32_notDuplicate _ _).bind fun _ _ => (word32_notDuplicate _ _).bind fun _ _ =>
      (word32_notDuplicate _ _).bind fun _ _ => (word32_notDuplicate _ _).bind fun _ _ => .ok _
  have data (framed : FramedFile) : FailsWith NotDuplicate (builder.fileData framed) := by
    unfold fileData
    split
    · exact (word32_notDuplicate _ _).bind fun _ _ => .ok _
    · exact .ok _
  exact header.bind fun _ _ => (builder.folderRecords_notDuplicate _ _).bind fun _ _ =>
    (builder.folderBlocks_notDuplicate _ _).bind fun _ _ =>
      (FailsWith.mapM fun framed _ => data framed).bind fun _ _ => .ok _

end Builder

/-! ## Builds -/

namespace Builder

variable {builder : Builder} {arrange : List Group → List Group}

theorem buildArranged_of_not_foldersFit (unfit : ¬ builder.FoldersFit) :
    builder.buildArranged arrange = .error (.io builder.archive (.longName 254)) := by
  unfold buildArranged
  cases outcome : builder.groups with
  | error failure =>
      rw [(groups_eq_error outcome).2]
      rfl
  | ok groups => exact absurd (foldersFit_of_groups outcome) unfit

theorem buildArranged_of_repeated (arranged : ∀ groups, (arrange groups).Perm groups)
    (fit : builder.FoldersFit)
    (repeated : ¬ (builder.files.map PendingFile.identity).Nodup) :
    ∃ first second others, builder.files.Perm (first :: second :: others) ∧
      first.identity = second.identity ∧
      builder.buildArranged arrange = .error (.duplicateEntry builder.archive second.path) := by
  obtain ⟨table, tableOk⟩ := exists_groups fit
  have sorted := sorted_groups arranged tableOk
  cases checked : requireDistinct builder.archive (sortGroups (arrange table)) with
  | ok nothing => exact absurd (sorted.distinct_iff.mp checked) repeated
  | error failure =>
      obtain ⟨group, member, second, found, rfl⟩ := requireDistinct_eq_error checked
      obtain ⟨front, first, back, row, same⟩ := repeatedFile?_eq_some found
      obtain ⟨before, after, groupsEq⟩ := List.append_of_mem member
      have files : (sortGroups (arrange table)).flatMap Group.files =
          (before.flatMap Group.files ++ front) ++
            first :: second :: (back ++ after.flatMap Group.files) := by
        simp [groupsEq, row]
      have moved : ((sortGroups (arrange table)).flatMap Group.files).Perm (first :: second ::
          ((before.flatMap Group.files ++ front) ++ (back ++ after.flatMap Group.files))) := by
        rw [files]
        exact List.perm_middle.trans (List.perm_middle.cons first)
      refine ⟨first, second, _, sorted.grouped.members.symm.trans moved, ?_, ?_⟩
      · rw [sorted.grouped.identity_eq member (by simp [row]),
          sorted.grouped.identity_eq member (by simp [row]), same]
      · rw [buildArranged, tableOk, Outcome.ok_bind]
        dsimp only
        rw [checked]
        rfl

theorem buildArranged_notDuplicate (arranged : ∀ groups, (arrange groups).Perm groups)
    (distinct : (builder.files.map PendingFile.identity).Nodup) :
    FailsWith NotDuplicate (builder.buildArranged arrange) := by
  have grouping : FailsWith NotDuplicate builder.groups := by
    intro failure failed
    rw [(groups_eq_error failed).2]
    exact nofun
  refine grouping.bind fun table tableOk => ?_
  dsimp only
  rw [(sorted_groups arranged tableOk).distinct_iff.mpr distinct, Outcome.ok_bind]
  exact (FailsWith.mapM fun group _ => builder.frameGroup_notDuplicate group).bind fun _ _ =>
    builder.write_notDuplicate _

end Builder

/-! ## Added files -/

/-- What an added file is told apart by. -/
def FileState.identity (state : FileState) : String × UInt64 :=
  (Lowercase.text (Path.folder (Path.toArchive state.path)),
    fileHash (Path.leaf (Path.toArchive state.path)))

theorem FileState.identity_eq_of_lowercase {state other : FileState}
    (same : Lowercase.text (Path.toArchive state.path) =
      Lowercase.text (Path.toArchive other.path)) :
    state.identity = other.identity := by
  have folders := congrArg Path.folder same
  have leaves := congrArg Path.leaf same
  rw [Path.folder_lowercase, Path.folder_lowercase] at folders
  rw [Path.leaf_lowercase, Path.leaf_lowercase] at leaves
  rw [identity, identity, folders, fileHash_eq_of_lowercase leaves]

section Added

variable [Codecs] {archive : String} {state : State} {builder : Builder}
  {added : List (FileState × Bytes)} {arrange : List Group → List Group}

theorem Builder.files_addAll (created : create archive state = .ok builder)
    (added : List (FileState × Bytes)) :
    (builder.addAll added).archive = archive ∧
      (builder.addAll added).files = added.map fun entry => builder.pend entry.1 entry.2 := by
  obtain ⟨-, rfl⟩ := create_eq_ok created
  rw [addAll_eq]
  exact ⟨rfl, List.nil_append _⟩

theorem Builder.identity_pend (builder : Builder) (state : FileState) (contents : Bytes) :
    (builder.pend state contents).identity = state.identity := by
  simp only [PendingFile.identity, FileState.identity, PendingFile.folder, Path.folder, pend]

theorem Builder.identities_addAll (created : create archive state = .ok builder)
    (added : List (FileState × Bytes)) :
    (builder.addAll added).files.map PendingFile.identity =
      added.map fun entry => entry.1.identity := by
  rw [(files_addAll created added).2, List.map_map]
  exact List.map_congr_left fun entry _ => builder.identity_pend entry.1 entry.2

/-- The path is that of an added file which is not told apart from another one. -/
def Repeats (added : List (FileState × Bytes)) (path : String) : Prop :=
  ∃ first second others, added.Perm (first :: second :: others) ∧
    first.1.identity = second.1.identity ∧ path = Path.toArchive second.1.path

theorem Builder.exists_repeats (created : create archive state = .ok builder)
    (arranged : ∀ groups, (arrange groups).Perm groups)
    (fit : (builder.addAll added).FoldersFit)
    (repeated : ¬ (added.map fun entry => entry.1.identity).Nodup) :
    ∃ path, (builder.addAll added).buildArranged arrange =
      .error (.duplicateEntry archive path) ∧ Repeats added path := by
  obtain ⟨archiveEq, filesEq⟩ := files_addAll created added
  rw [← identities_addAll created] at repeated
  obtain ⟨first, second, others, same, identity, failed⟩ :=
    buildArranged_of_repeated arranged fit repeated
  rw [archiveEq] at failed
  refine ⟨second.path, failed, ?_⟩
  -- The two files come from two of the added ones.
  have origins : List.Forall₂ (fun file entry => file = builder.pend entry.1 entry.2)
      (builder.addAll added).files added := by
    rw [filesEq, List.forall₂_map_left_iff]
    exact List.forall₂_same.mpr fun _ _ => rfl
  obtain ⟨entries, pended, entriesSame⟩ := List.perm_comp_forall₂ same.symm origins
  obtain ⟨one, rest, rfl, further, rfl⟩ := List.forall₂_cons_left_iff.mp pended
  obtain ⟨two, others, rfl, -, rfl⟩ := List.forall₂_cons_left_iff.mp further
  rw [identity_pend, identity_pend] at identity
  exact ⟨one, two, others, entriesSame.symm, identity, rfl⟩

end Added

/-- No archive holds two paths that differ in their case and their separators only.  A duplicate is
reported, unless the name of a folder is too long already. -/
theorem build_of_paths_alike [Codecs] {archive : String} {state : State} {builder : Builder}
    {added : List (FileState × Bytes)} {arrange : List Group → List Group}
    (created : Builder.create archive state = .ok builder)
    (arranged : ∀ groups, (arrange groups).Perm groups)
    (alike : ¬ (added.map fun entry => Lowercase.text (Path.toArchive entry.1.path)).Nodup) :
    let finished := builder.addAll added
    (finished.FoldersFit ∧ ∃ path,
        finished.buildArranged arrange = .error (.duplicateEntry archive path) ∧
          Repeats added path) ∨
      (¬ finished.FoldersFit ∧
        finished.buildArranged arrange = .error (.io archive (.longName 254))) := by
  intro finished
  by_cases fit : finished.FoldersFit
  · have repeated : ¬ (added.map fun entry => entry.1.identity).Nodup := by
      intro distinct
      apply alike
      have apart := List.pairwise_map.mp distinct
      exact List.pairwise_map.mpr (apart.imp fun different same =>
        different (FileState.identity_eq_of_lowercase same))
    exact .inl ⟨fit, Builder.exists_repeats created arranged fit repeated⟩
  · have failed : finished.buildArranged arrange = .error (.io finished.archive (.longName 254)) :=
      Builder.buildArranged_of_not_foldersFit fit
    rw [(Builder.files_addAll created added).1] at failed
    exact .inr ⟨fit, failed⟩

theorem build_of_paths_alike_sigma :
    let added : List (FileState × Bytes) :=
      [(⟨"ΟΔΟΣ/a.nif", 0, false⟩, [1]), (⟨"\\οδος\\A.NIF", 0, false⟩, [2])]
    (¬ (added.map fun entry => Lowercase.text (Path.toArchive entry.1.path)).Nodup) ∧
      ∃ builder, Builder.create "b.bsa" ⟨magicText, .fo3, 3, 0⟩ = .ok builder ∧
        ∃ path, (builder.addAll added).buildArranged id =
          .error (.duplicateEntry "b.bsa" path) ∧ Repeats added path := by
  intro added
  let builder : Builder := ⟨"b.bsa", .fo3, ⟨3⟩, 0, []⟩
  have created : Builder.create "b.bsa" ⟨magicText, .fo3, 3, 0⟩ = .ok builder := by
    decide +kernel
  have alike : ¬ (added.map fun entry => Lowercase.text (Path.toArchive entry.1.path)).Nodup := by
    decide +kernel
  have fit : (builder.addAll added).FoldersFit := by decide +kernel
  refine ⟨alike, builder, created, ?_⟩
  rcases build_of_paths_alike created List.Perm.refl alike with ⟨-, reported⟩ | ⟨unfit, -⟩
  · exact reported
  · exact absurd fit unfit

/-- A duplicate is reported exactly if two added files are not told apart and the names of the
folders are short enough, and then it is one of two such files that is reported. -/
theorem duplicateEntry_iff_repeated [Codecs] {archive : String} {state : State} {builder : Builder}
    {added : List (FileState × Bytes)} {arrange : List Group → List Group}
    (created : Builder.create archive state = .ok builder)
    (arranged : ∀ groups, (arrange groups).Perm groups) :
    let finished := builder.addAll added
    ((∃ name path, finished.buildArranged arrange = .error (.duplicateEntry name path)) ↔
      finished.FoldersFit ∧ ¬ (added.map fun entry => entry.1.identity).Nodup) ∧
    ∀ name path, finished.buildArranged arrange = .error (.duplicateEntry name path) →
      name = archive ∧ Repeats added path := by
  intro finished
  have reported : ∀ name path,
      finished.buildArranged arrange = .error (.duplicateEntry name path) →
        finished.FoldersFit ∧ ¬ (added.map fun entry => entry.1.identity).Nodup := by
    intro name path failed
    constructor
    · by_contra unfit
      rw [Builder.buildArranged_of_not_foldersFit unfit] at failed
      cases failed
    · intro distinct
      rw [← Builder.identities_addAll created] at distinct
      exact Builder.buildArranged_notDuplicate arranged distinct _ failed name path rfl
  constructor
  · constructor
    · rintro ⟨name, path, failed⟩
      exact reported name path failed
    · rintro ⟨fit, repeated⟩
      obtain ⟨path, failed, -⟩ := Builder.exists_repeats created arranged fit repeated
      exact ⟨archive, path, failed⟩
  · intro name path failed
    obtain ⟨fit, repeated⟩ := reported name path failed
    obtain ⟨other, again, repeats⟩ := Builder.exists_repeats created arranged fit repeated
    cases failed.symm.trans again
    exact ⟨rfl, repeats⟩

theorem duplicateEntry_iff_repeated_sampleFiles :
    ∃ builder, Builder.create "sample.bsa" sampleState = .ok builder ∧
      (sampleFiles.map fun entry => entry.1.identity).Nodup ∧
      ¬ ∃ name path, (builder.addAll sampleFiles).buildArranged id =
        .error (.duplicateEntry name path) := by
  have created : Builder.create "sample.bsa" sampleState =
      .ok ⟨"sample.bsa", .sse, ⟨0x107⟩, 0x5, []⟩ := by decide +kernel
  have distinct : (sampleFiles.map fun entry => entry.1.identity).Nodup := by decide +kernel
  refine ⟨_, created, distinct, fun reported => ?_⟩
  exact ((duplicateEntry_iff_repeated created List.Perm.refl).1.mp reported).2 distinct

/-- Two files of one folder whose names are different and whose hashes agree. -/
def collidingNames : List (FileState × Bytes) :=
  [(⟨"save1_a.2", 0, false⟩, [1]), (⟨"save2_a.1", 0, false⟩, [2])]

/-- Names that are different are reported as a duplicate if their hashes agree. -/
theorem duplicateEntry_of_distinct_paths :
    (collidingNames.map fun entry => Lowercase.text (Path.toArchive entry.1.path)).Nodup ∧
      ∃ builder, Builder.create "b.bsa" ⟨magicText, .sse, 3, 0⟩ = .ok builder ∧
        (builder.addAll collidingNames).buildArranged id =
          .error (.duplicateEntry "b.bsa" "save2_a.1") := by
  let builder : Builder := ⟨"b.bsa", .sse, ⟨3⟩, 0, []⟩
  have inOrder : ((builder.addAll collidingNames).groups.map fun groups =>
      decide (InOrder (id groups))) = .ok true := by decide +kernel
  refine ⟨by decide +kernel, builder, by decide +kernel, ?_⟩
  rw [Builder.buildArranged_of_inOrder inOrder]
  decide +kernel

end Tes4
end GameArchive
