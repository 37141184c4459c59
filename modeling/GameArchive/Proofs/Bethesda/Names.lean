import GameArchive.Proofs.Bethesda.Acceptance
import GameArchive.Proofs.Tes4.Relisting
import GameArchive.Proofs.Text.Marks

/-!
# Names that a builder writes and its reader lists

The paths that a reader lists are made of the names that the builder has written.  They are the
written paths if no written name begins like a byte order mark, and in no other case: every name
that does is read as a shorter one, so that the listing has fewer characters than were written.
-/

namespace GameArchive

/-! ## Texts that are kept or made shorter -/

theorem length_flatMap_le {α β : Type} {values : List α} {seen written : α → List β}
    (shorter : ∀ value ∈ values, (seen value).length ≤ (written value).length) :
    (values.flatMap seen).length ≤ (values.flatMap written).length ∧
      ((values.flatMap seen).length = (values.flatMap written).length →
        ∀ value ∈ values, (seen value).length = (written value).length) := by
  induction values with
  | nil => exact ⟨Nat.le_refl 0, fun _ _ => nofun⟩
  | cons value values ih =>
      obtain ⟨first, others⟩ := List.forall_mem_cons.mp shorter
      obtain ⟨fewer, same⟩ := ih others
      simp only [List.flatMap_cons, List.length_append]
      refine ⟨by omega, fun equal => List.forall_mem_cons.mpr ⟨by omega, same (by omega)⟩⟩

/-- If each path is kept where its names are unmarked and is shorter where one is marked, then the
paths are the same in some order only if no name is marked. -/
theorem Encoding.perm_iff_unmarked {α : Type} {encoding : Encoding} {values : List α}
    {names : α → List String} {seen written : α → String}
    (each : ∀ value ∈ values,
      (∃ text ∈ names value, encoding.Marked text) ∧
          (seen value).length < (written value).length ∨
        ¬ (∃ text ∈ names value, encoding.Marked text) ∧ seen value = written value) :
    (values.map seen).Perm (values.map written) ↔
      ∀ text ∈ values.flatMap names, ¬ encoding.Marked text := by
  constructor
  · intro same text among marked
    obtain ⟨value, member, named⟩ := List.mem_flatMap.mp among
    -- A listing with a shorter path would have fewer characters in all, whatever its order.
    have total := (same.flatMap_right String.toList).length_eq
    rw [List.flatMap_map, List.flatMap_map] at total
    have shorter : ∀ value ∈ values,
        (seen value).toList.length ≤ (written value).toList.length := by
      intro other otherMember
      rw [String.length_toList, String.length_toList]
      rcases each other otherMember with ⟨-, shorter⟩ | ⟨-, equal⟩
      · exact shorter.le
      · rw [equal]
    have equal := (length_flatMap_le shorter).2 total value member
    rw [String.length_toList, String.length_toList] at equal
    rcases each value member with ⟨-, shorter⟩ | ⟨unmarked, -⟩
    · exact absurd equal shorter.ne
    · exact unmarked ⟨text, named, marked⟩
  · intro unmarked
    refine List.Perm.of_eq (List.map_congr_left fun value member => ?_)
    rcases each value member with ⟨⟨text, named, marked⟩, -⟩ | ⟨-, equal⟩
    · exact absurd marked (unmarked text (List.mem_flatMap.mpr ⟨value, member, named⟩))
    · exact equal

namespace Tes4

/-! ## Oblivion and its successors -/

/-- The number of characters that a folder puts before the name of a file. -/
def frontLength : Option String → Nat
  | none => 0
  | some folder => if folder.length = 0 then 0 else folder.length + 1

theorem length_filePath (folder name : Option String) (hash : UInt64) :
    (filePath folder name hash).length =
      frontLength folder +
        (name.getD (Hexadecimal.renderPadded 16 hash.toNat)).length := by
  unfold filePath frontLength
  cases folder with
  | none => simp
  | some folder =>
      by_cases empty : folder = ""
      · simp [empty]
      · have separator : "\\".length = 1 := rfl
        simp [empty, String.length_append, separator]

theorem frontLength_lt {shorter longer : String} (fewer : shorter.length < longer.length) :
    frontLength (some shorter) < frontLength (some longer) := by
  change (if shorter.length = 0 then 0 else shorter.length + 1) <
    (if longer.length = 0 then 0 else longer.length + 1)
  split <;> split <;> omega

section Reread

variable {encoding : Encoding}

theorem filePath_reread_folder {folder : String} (name : Option String) (hash : UInt64)
    (covered : encoding.Covers folder) :
    encoding.Marked folder ∧ (filePath (some (encoding.reread folder)) name hash).length <
        (filePath (some folder) name hash).length ∨
      ¬ encoding.Marked folder ∧
        filePath (some (encoding.reread folder)) name hash = filePath (some folder) name hash := by
  rcases Encoding.reread_spec covered with ⟨marked, shorter⟩ | ⟨unmarked, equal⟩
  · refine .inl ⟨marked, ?_⟩
    rw [length_filePath, length_filePath]
    exact Nat.add_lt_add_right (frontLength_lt shorter) _
  · exact .inr ⟨unmarked, by rw [equal]⟩

theorem filePath_reread_name (folder : Option String) {name : String} (hash : UInt64)
    (covered : encoding.Covers name) :
    encoding.Marked name ∧ (filePath folder (some (encoding.reread name)) hash).length <
        (filePath folder (some name) hash).length ∨
      ¬ encoding.Marked name ∧
        filePath folder (some (encoding.reread name)) hash = filePath folder (some name) hash := by
  rcases Encoding.reread_spec covered with ⟨marked, shorter⟩ | ⟨unmarked, equal⟩
  · refine .inl ⟨marked, ?_⟩
    rw [length_filePath, length_filePath]
    exact Nat.add_lt_add_left shorter _
  · exact .inr ⟨unmarked, by rw [equal]⟩

theorem filePath_reread {folder name : Option String} (hash : UInt64)
    (covered : ∀ text ∈ folder.toList ++ name.toList, encoding.Covers text) :
    let found := filePath (folder.map encoding.reread) (name.map encoding.reread) hash
    (∃ text ∈ folder.toList ++ name.toList, encoding.Marked text) ∧
        found.length < (filePath folder name hash).length ∨
      ¬ (∃ text ∈ folder.toList ++ name.toList, encoding.Marked text) ∧
        found = filePath folder name hash := by
  cases folder with
  | none =>
      cases name with
      | none => simp
      | some name => simpa using filePath_reread_name none hash (covered name (by simp))
  | some folder =>
      have first :=
        filePath_reread_folder (name.map encoding.reread) hash (covered folder (by simp))
      cases name with
      | none => simpa using first
      | some name =>
          have second := filePath_reread_name (some folder) hash (covered name (by simp))
          simp only [Option.map_some] at first ⊢
          simp only [Option.toList_some, List.singleton_append, List.mem_cons, List.not_mem_nil,
            or_false, exists_eq_or_imp, exists_eq_left]
          rcases first with ⟨marked, shorter⟩ | ⟨unmarked, equal⟩
          · refine .inl ⟨.inl marked, ?_⟩
            rcases second with ⟨-, further⟩ | ⟨-, same⟩
            · omega
            · rwa [← same]
          · rw [equal]
            rcases second with ⟨marked, shorter⟩ | ⟨alsoUnmarked, same⟩
            · exact .inl ⟨.inr marked, shorter⟩
            · exact .inr ⟨by simp [unmarked, alsoUnmarked], same⟩

end Reread

namespace Builder

def writtenFolder (builder : Builder) (file : PendingFile) : Option String :=
  if builder.flags.hasFolderNames then some (builder.spelling file) else none

/-- The name that is written for a file.  One empty name cannot be told from none. -/
def writtenName (builder : Builder) (file : PendingFile) : Option String :=
  if builder.flags.hasFileNames ∧ builder.files.map PendingFile.name ≠ [""] then some file.name
  else none

def writtenNames (builder : Builder) (file : PendingFile) : List String :=
  (builder.writtenFolder file).toList ++ (builder.writtenName file).toList

/-- The path that the written names of a file form. -/
def writtenPath (builder : Builder) (file : PendingFile) : String :=
  filePath (builder.writtenFolder file) (builder.writtenName file) file.hash

variable {builder : Builder}

theorem rereadFolder_eq (builder : Builder) (file : PendingFile) :
    builder.rereadFolder file =
      (builder.writtenFolder file).map builder.version.encoding.reread := by
  unfold rereadFolder writtenFolder
  split <;> rfl

theorem rereadName_eq (builder : Builder) (file : PendingFile) :
    builder.rereadName file = (builder.writtenName file).map builder.version.encoding.reread := by
  have single : builder.files.map builder.storedName = [[]] ↔
      builder.files.map PendingFile.name = [""] := by
    have empty : ∀ file, builder.storedName file = [] ↔ file.name = "" := fun file =>
      ⟨not_imp_not.mp (Encoding.encode_ne_nil _), fun equal => by
        rw [storedName, equal]
        cases builder.version.encoding <;> rfl⟩
    simp [List.map_eq_singleton_iff, empty]
  unfold rereadName writtenName shownName
  simp only [single]
  by_cases fileNames : builder.flags.hasFileNames
  · by_cases nameless : builder.files.map PendingFile.name = [""]
    · simp [nameless]
    · simp [nameless, fileNames]
      rfl
  · simp [fileNames]

/-- A finished archive is opened, and its entries are listed under the names that a reader finds. -/
theorem Finished.paths {groups : List Group} {bytes : Bytes}
    (finished : builder.Finished groups bytes) (name : String)
    (noZero : builder.flags.hasFileNames → ∀ file ∈ builder.files, '\x00' ∉ file.name.toList) :
    ∃ opened files, Archive.open ⟨name, bytes⟩ = .ok opened ∧ opened.files = .ok files ∧
      files.map FileRecord.path = (groups.flatMap Group.files).map fun file =>
        filePath (builder.rereadFolder file) (builder.rereadName file) file.hash := by
  obtain ⟨header, rfl, headerOf, -, -, -, openedOk, listed⟩ := finished.reopens name
  have nonzero : builder.flags.hasFileNames → ∀ file ∈ builder.files,
      ∀ byte ∈ builder.storedName file, byte ≠ 0 := fun fileNames file member =>
    Encoding.encode_nonzero _ (noZero fileNames file member)
  let shownPath : Option String → FramedFile → String := fun folder framed =>
    filePath folder (builder.rereadName framed.file) framed.file.hash
  have agree : ∀ placed ∈ builder.placedFiles (groups.map builder.framedGroup),
      ∀ folder position overallPosition,
        ((builder.fileEntry placed).named folder (builder.rereadName placed.framed.file) position
          overallPosition).path = shownPath folder placed.framed := fun _ _ _ _ _ => rfl
  have paths := finished.map_listed headerOf nonzero agree
  refine ⟨_, _, openedOk, ?_, paths.trans ?_⟩
  · rw [Archive.files, listed]
    rfl
  · rw [List.map_flatMap]
    refine List.flatMap_congr fun group groupAmong =>
      List.map_congr_left fun file fileAmong => ?_
    obtain ⟨-, -, written⟩ := finished.grouped.spelling groupAmong fileAmong
    rw [shownFolder_of_written written, rereadFolder]

theorem Finished.lists_writtenPaths_iff {groups : List Group} {bytes : Bytes}
    (finished : builder.Finished groups bytes) (name : String)
    (covered : ∀ text ∈ builder.files.flatMap builder.writtenNames,
      builder.version.encoding.Covers text)
    (noZero : builder.flags.hasFileNames → ∀ file ∈ builder.files, '\x00' ∉ file.name.toList) :
    ∃ opened files, Archive.open ⟨name, bytes⟩ = .ok opened ∧ opened.files = .ok files ∧
      ((files.map FileRecord.path).Perm (builder.files.map builder.writtenPath) ↔
        ∀ text ∈ builder.files.flatMap builder.writtenNames,
          ¬ builder.version.encoding.Marked text) := by
  obtain ⟨opened, files, openedOk, filesOk, pathsEq⟩ := finished.paths name noZero
  refine ⟨opened, files, openedOk, filesOk, ?_⟩
  have members := finished.grouped.members.map fun file =>
    filePath (builder.rereadFolder file) (builder.rereadName file) file.hash
  rw [pathsEq, members.congr_left]
  refine Encoding.perm_iff_unmarked fun file member => ?_
  rw [rereadFolder_eq, rereadName_eq]
  exact filePath_reread file.hash fun text named =>
    covered text (List.mem_flatMap.mpr ⟨file, member, named⟩)

end Builder
end Tes4

namespace Tes3

/-! ## Morrowind -/

theorem map_path_listed (position dataOffset nameOffset : Nat) (files : List PendingFile) :
    (listed position dataOffset nameOffset files).map FileState.path =
      files.map PendingFile.shownPath := by
  induction files generalizing position dataOffset nameOffset with
  | nil => rfl
  | cons file files ih =>
      rw [listed, List.map_cons, List.map_cons, ih]
      rfl

theorem Builder.lists_writtenPaths_iff {builder : Builder}
    (covered : ∀ file ∈ builder.files, encoding.Covers file.state.path)
    (noZero : ∀ file ∈ builder.files, '\x00' ∉ file.state.path.toList) :
    (builder.listing.map FileState.path).Perm (builder.files.map fun file => file.state.path) ↔
      ∀ text ∈ builder.files.flatMap fun file => [file.state.path], ¬ encoding.Marked text := by
  have sorted : builder.sortedFiles.Perm builder.files := List.mergeSort_perm ..
  rw [listing, map_path_listed, (sorted.map _).congr_left]
  refine Encoding.perm_iff_unmarked fun file member => ?_
  rw [PendingFile.shownPath_of_noZero (noZero file member)]
  simpa [Encoding.reread] using Encoding.reread_spec (covered file member)

end Tes3

namespace Ba2

/-! ## Fallout 4 -/

namespace Builder

def writtenNames (builder : Builder) (file : PendingFile) : List String :=
  if builder.state.hasNameTable then [file.state.path] else []

/-- The path of a file, where paths are written, and else the name that its hash gives it. -/
def writtenPath (builder : Builder) (file : PendingFile) : String :=
  if builder.state.hasNameTable then file.state.path
  else
    Hexadecimal.renderPadded 8 file.state.nameHash.toNat ++ "." ++
      extensionText (extensionBytes file.state.extension)

theorem map_path_shownFiles [Codecs] {builder : Builder} (position offset : Nat)
    (files : List PendingFile) :
    (builder.shownFiles position offset files).map (fun file => file.state.path) =
      files.map builder.shownPath := by
  induction files generalizing position offset with
  | nil => rfl
  | cons file files ih =>
      rw [shownFiles, List.map_cons, List.map_cons, ih]
      rfl

theorem lists_writtenPaths_iff [Codecs] {builder : Builder} (offset : Nat)
    (covered : ∀ text ∈ builder.files.flatMap builder.writtenNames, encoding.Covers text) :
    ((builder.shownFiles 0 offset builder.sortedFiles).map fun file => file.state.path).Perm
        (builder.files.map builder.writtenPath) ↔
      ∀ text ∈ builder.files.flatMap builder.writtenNames, ¬ encoding.Marked text := by
  have sorted : builder.sortedFiles.Perm builder.files := List.mergeSort_perm ..
  rw [map_path_shownFiles, (sorted.map _).congr_left]
  refine Encoding.perm_iff_unmarked fun file member => ?_
  have known : ∀ text ∈ builder.writtenNames file, encoding.Covers text := fun text named =>
    covered text (List.mem_flatMap.mpr ⟨file, member, named⟩)
  unfold writtenNames at known ⊢
  unfold shownPath writtenPath
  by_cases table : builder.state.hasNameTable
  · rw [if_pos table] at known
    simpa [table, Encoding.reread] using Encoding.reread_spec (known file.state.path (by simp))
  · simp [table]

end Builder
end Ba2

namespace Bethesda

/-! ## All layouts -/

/-- How the names in an archive are written. -/
def State.encoding : State → Encoding
  | tes4 state => state.version.encoding
  | tes3 _ => Tes3.encoding
  | ba2 _ => Ba2.encoding

namespace Builder

/-- The names that are written for a reader to list. -/
def writtenNames : Builder → List String
  | tes4 builder => builder.files.flatMap builder.writtenNames
  | tes3 builder => builder.files.flatMap fun file => [file.state.path]
  | ba2 builder => builder.files.flatMap builder.writtenNames

def writtenPaths : Builder → List String
  | tes4 builder => builder.files.map builder.writtenPath
  | tes3 builder => builder.files.map fun file => file.state.path
  | ba2 builder => builder.files.map builder.writtenPath

/-- Whether no name that a zero byte ends has a zero character of its own. -/
def ZeroFree : Builder → Prop
  | tes4 builder =>
      builder.flags.hasFileNames → ∀ file ∈ builder.files, '\x00' ∉ file.name.toList
  | tes3 builder => ∀ file ∈ builder.files, '\x00' ∉ file.state.path.toList
  | ba2 _ => True

end Builder

/-- What a builder finishes with after some offers, on a state that the reader of its layout
takes.  No packer gives an empty stream, and no stream is longer than its greatest position. -/
structure Finishes [Codecs] (state : State) (finished : Builder) (bytes : Bytes) : Prop where
  offered : ∃ archive builder offers, Builder.create archive state = .ok builder ∧
    (builder.offerAll offers).1 = finished
  built : ∃ arrange : List Tes4.Group → List Tes4.Group,
    (∀ groups, (arrange groups).Perm groups) ∧ finished.buildArranged arrange = .ok bytes
  addressable : state.kind = .ba2 → bytes.length ≤ Stream.memoryLimit.toNat
  nonempty : ∀ words, state = .ba2 words → ∀ contents, words.packing.pack contents ≠ []
  readable : state.Readable

theorem Finishes.lists_writtenPaths_iff [Codecs] {state : State} {finished : Builder}
    {bytes : Bytes} (finishes : Finishes state finished bytes) (name : String)
    (covered : ∀ text ∈ finished.writtenNames, state.encoding.Covers text)
    (zeroFree : finished.ZeroFree) :
    ∃ opened files, Archive.openAs state.kind ⟨name, bytes⟩ = .ok opened ∧
      opened.files = .ok files ∧
      ((files.map File.path).Perm finished.writtenPaths ↔
        ∀ text ∈ finished.writtenNames, ¬ state.encoding.Marked text) := by
  obtain ⟨⟨archive, builder, offers, created, offered⟩, ⟨arrange, arranged, built⟩, addressable,
    nonempty, readable⟩ := finishes
  have same : finished.cleared = builder.cleared := by
    rw [← offered]
    exact (builder.offerAll_spec offers).1
  cases state with
  | tes4 state =>
      obtain ⟨started, startedOk, rfl⟩ := Outcome.map_eq_ok_iff.mp created
      obtain ⟨-, rfl⟩ := Tes4.Builder.create_eq_ok startedOk
      cases finished with
      | tes4 finished =>
          obtain ⟨groups, done⟩ := Tes4.Builder.exists_finished arranged built
          have version : finished.version = state.version :=
            congrArg Tes4.Builder.version (Builder.tes4.inj same)
          have known : ∀ text ∈ finished.files.flatMap finished.writtenNames,
              finished.version.encoding.Covers text := by
            rw [version]
            exact covered
          obtain ⟨opened, files, openedOk, filesOk, listed⟩ :=
            done.lists_writtenPaths_iff name known zeroFree
          rw [version] at listed
          refine ⟨.tes4 opened, _, Outcome.map_eq_ok_iff.mpr ⟨opened, openedOk, rfl⟩,
            Outcome.map_eq_ok_iff.mpr ⟨files, filesOk, rfl⟩, ?_⟩
          rw [List.map_map]
          exact listed
      | tes3 finished => cases same
      | ba2 finished => cases same
  | tes3 state =>
      cases created
      cases finished with
      | tes4 finished => cases same
      | tes3 finished =>
          obtain ⟨opened, openedOk, filesEq⟩ := Builder.open_tes3 name same built readable
          refine ⟨_, _, openedOk, rfl, ?_⟩
          rw [List.map_map, filesEq]
          refine Tes3.Builder.lists_writtenPaths_iff (fun file member => ?_) zeroFree
          exact covered _ (List.mem_flatMap.mpr ⟨file, member, List.mem_singleton_self _⟩)
      | ba2 finished => cases same
  | ba2 state =>
      obtain ⟨started, startedOk, rfl⟩ := Outcome.map_eq_ok_iff.mp created
      cases finished with
      | tes4 finished => cases same
      | tes3 finished => cases same
      | ba2 finished =>
          obtain ⟨opened, openedOk, filesEq⟩ :=
            Builder.open_ba2 name startedOk same built (addressable rfl) (nonempty _ rfl)
          refine ⟨_, _, openedOk, rfl, ?_⟩
          rw [List.map_map, filesEq]
          exact Ba2.Builder.lists_writtenPaths_iff _ covered

/-- A text of the characters of an encoding is read as it was written exactly if it does not begin
like a byte order mark.  The encoding is UTF-8 for Fallout 3 and Windows-1252 for all others.  What
a builder finishes with is opened, and the paths listed are the written ones exactly if no written
name begins like a mark. -/
theorem names_survive_iff [Codecs] :
    (∀ (encoding : Encoding) (text : String), encoding.Covers text →
      (encoding.decode (encoding.encode text) = text ↔ ¬ encoding.Marked text)) ∧
    (∀ state : State,
      state.encoding = .utf8 ↔ ∃ words, state = .tes4 words ∧ words.version = .fo3) ∧
    ∀ {state : State} {finished : Builder} {bytes : Bytes} (name : String),
      Finishes state finished bytes →
      (∀ text ∈ finished.writtenNames, state.encoding.Covers text) → finished.ZeroFree →
      ∃ opened files, Archive.openAs state.kind ⟨name, bytes⟩ = .ok opened ∧
        opened.files = .ok files ∧
        ((files.map File.path).Perm finished.writtenPaths ↔
          ∀ text ∈ finished.writtenNames, ¬ state.encoding.Marked text) := by
  refine ⟨fun encoding text => Encoding.reread_eq_iff, fun state => ?_,
    fun name finishes => finishes.lists_writtenPaths_iff name⟩
  constructor
  · intro utf8
    cases state with
    | tes4 words =>
        refine ⟨words, rfl, ?_⟩
        cases version : words.version with
        | fo3 => rfl
        | tes4 | sse =>
            rw [State.encoding, version] at utf8
            cases utf8
    | tes3 words => cases utf8
    | ba2 words => cases utf8
  · rintro ⟨words, rfl, version⟩
    rw [State.encoding, version]
    rfl

/-- A name with an accent, and one with the characters of a mark behind its start. -/
def accentedOffers : List Offer :=
  [⟨.tes3 ⟨"meshes\\é.nif", 0, 0, 0, 0, 0x11, 0x22⟩, .ok [1, 2, 3]⟩,
    ⟨.tes3 ⟨"icons\\ÿþ.tga", 1, 0, 0, 0, 0x33, 0x44⟩, .ok []⟩]

theorem names_survive_iff_accented :
    Encoding.windows1252.decode (Encoding.windows1252.encode "café.nif") = "café.nif" ∧
      ∃ builder bytes opened files,
        Builder.create "sample.bsa" (.tes3 Tes3.sampleState) = .ok builder ∧
          (builder.offerAll accentedOffers).1.buildArranged id = .ok bytes ∧
          Archive.openAs .tes3 ⟨"sample.bsa", bytes⟩ = .ok opened ∧ opened.files = .ok files ∧
          (files.map File.path).Perm ["meshes\\é.nif", "icons\\ÿþ.tga"] := by
  obtain ⟨law, -, listed⟩ := names_survive_iff
  refine ⟨(law .windows1252 "café.nif" (by decide +kernel)).mpr (by decide +kernel), ?_⟩
  let finished : Tes3.Builder :=
    (Tes3.Builder.create "sample.bsa" Tes3.sampleState).addAll
      [(⟨"meshes\\é.nif", 0, 0, 0, 0, 0x11, 0x22⟩, [1, 2, 3]),
        (⟨"icons\\ÿþ.tga", 1, 0, 0, 0, 0x33, 0x44⟩, [])]
  have sorted : finished.sortedFiles = finished.files := List.mergeSort_of_pairwise (by decide)
  obtain ⟨bytes, built⟩ : ∃ bytes, finished.build = .ok bytes := by
    apply Outcome.exists_ok_of_isOk
    rw [Tes3.Builder.build, sorted]
    decide +kernel
  have finishes : Finishes (.tes3 Tes3.sampleState) (.tes3 finished) bytes := {
    offered := ⟨"sample.bsa", _, accentedOffers, rfl, rfl⟩
    built := ⟨id, List.Perm.refl, built⟩
    addressable := nofun
    nonempty := nofun
    readable := rfl }
  obtain ⟨opened, files, openedOk, filesOk, same⟩ :=
    listed "sample.bsa" finishes (by decide +kernel) (by unfold Builder.ZeroFree; decide +kernel)
  exact ⟨_, bytes, opened, files, rfl, built, openedOk, filesOk, same.mpr (by decide +kernel)⟩

/-- A mark at the start of a name decides how the rest of it is read. -/
theorem names_lost_behind_marks :
    (Encoding.windows1252.Covers "ÿþa" ∧
      Encoding.windows1252.decode (Encoding.windows1252.encode "ÿþa") = "\uFFFD") ∧
    (Encoding.windows1252.Covers "ï»¿a" ∧
      Encoding.windows1252.decode (Encoding.windows1252.encode "ï»¿a") = "a") ∧
    Encoding.utf8.decode (Encoding.utf8.encode "\uFEFFa") = "a" := by
  decide +kernel

end Bethesda
end GameArchive
