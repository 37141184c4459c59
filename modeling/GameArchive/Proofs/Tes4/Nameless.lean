import GameArchive.Proofs.Bethesda.StoredWindow
import GameArchive.Proofs.Tes4.Relisting
import GameArchive.Proofs.Text.Hexadecimal
import GameArchive.Proofs.Text.ZeroFree

/-!
# Rebuilding an archive without names

Where the names of the files are not stored, an entry is listed under the digits of its hash.  A
rebuild takes these digits for its name and hashes them, so that it lists the entry under the
digits of another hash unless the two fit together.  This module tells exactly when a rebuild keeps
the paths.
-/

namespace GameArchive
namespace Tes4

/-! ## What is listed -/

theorem nameless_of_readFolderBlocks {archive : String} {header : Header}
    (noFolderNames : header.archiveFlags.hasFolderNames = false) {records : List FolderRecord}
    {bytes rest : Bytes} {blocks : List FolderBlock}
    (succeeded : readFolderBlocks archive header records bytes = .ok (blocks, rest)) :
    ∀ block ∈ blocks, block.name = none := by
  induction records generalizing bytes blocks with
  | nil =>
      cases succeeded
      exact fun _ => nofun
  | cons record records ih =>
      obtain ⟨⟨name, behind⟩, nameOk, others⟩ := Outcome.bind_eq_ok_iff.mp succeeded
      obtain ⟨⟨files, behind⟩, -, others⟩ := Outcome.bind_eq_ok_iff.mp others
      obtain ⟨⟨further, behind⟩, furtherOk, equal⟩ := Outcome.bind_eq_ok_iff.mp others
      cases equal
      rw [readFolderName, noFolderNames] at nameOk
      cases nameOk
      exact List.forall_mem_cons.mpr ⟨rfl, ih furtherOk⟩

/-- An entry is listed under a zero-free name or its hash, in a folder that has a name only where
folder names are stored. -/
theorem Archive.path_of_files {archive : Archive} {files : List FileRecord}
    (listed : archive.files = .ok files) :
    ∀ file ∈ files, ∃ folder name : Option String,
      file.path = filePath folder name file.hash ∧
        (archive.header.archiveFlags.hasFolderNames = false → folder = none) ∧
        ∀ text ∈ name, archive.header.archiveFlags.hasFileNames ∧ '\x00' ∉ text.toList := by
  obtain ⟨folders, foldersOk, equal⟩ := Outcome.bind_eq_ok_iff.mp listed
  cases equal
  obtain ⟨⟨records, behind⟩, -, foldersOk⟩ := Outcome.bind_eq_ok_iff.mp foldersOk
  obtain ⟨⟨blocks, behind⟩, blocksOk, foldersOk⟩ := Outcome.bind_eq_ok_iff.mp foldersOk
  obtain ⟨names, namesOk, foldersOk⟩ := Outcome.bind_eq_ok_iff.mp foldersOk
  have zeroFree : ∀ text ∈ names,
      archive.header.archiveFlags.hasFileNames ∧ '\x00' ∉ text.toList := by
    intro text member
    unfold readFileNames at namesOk
    split at namesOk
    · next fileNames =>
        obtain ⟨⟨block, _⟩, -, equal⟩ := Outcome.bind_eq_ok_iff.mp namesOk
        cases equal
        exact ⟨fileNames, PrefixedName.splitBlock_noZero _ member⟩
    · cases namesOk
      cases member
  intro file member
  obtain ⟨block, among, readFrom⟩ := readFrom_of_readFolders foldersOk file member
  obtain ⟨name, path, fromNames⟩ := readFrom.path
  exact ⟨block.name, name, path,
    fun noFolderNames => nameless_of_readFolderBlocks noFolderNames blocksOk block among,
    fun text found => zeroFree text (fromNames text found)⟩

/-! ## Made-up names -/

/-- What a file without a name is called. -/
def madeUpName (hash : UInt64) : String :=
  Hexadecimal.renderPadded 16 hash.toNat

theorem madeUpName_injective : Function.Injective madeUpName := fun _ _ same =>
  UInt64.toNat_inj.mp (Hexadecimal.renderPadded_injective 16 same)

theorem madeUpName_plain (hash : UInt64) :
    ∀ character ∈ (madeUpName hash).toList, Path.isSeparator character = false := by
  intro character member
  obtain ⟨digit, small, rfl⟩ := Hexadecimal.exists_of_mem_renderPadded member
  have digits : ∀ digit < 16, Path.isSeparator (Nat.digitChar digit) = false := by decide
  exact digits digit small

theorem parts_madeUp (folder : String) (hash : UInt64) :
    Path.folder (Path.inFolder folder (madeUpName hash)) = folder ∧
      Path.leaf (Path.inFolder folder (madeUpName hash)) = madeUpName hash :=
  Path.parts_inFolder (madeUpName_plain hash)

theorem filePath_none (folder : Option String) (hash : UInt64) :
    filePath folder none hash = Path.inFolder (folder.getD "") (madeUpName hash) := by
  cases folder <;> rfl

namespace Archive

variable {archive : Archive} {files : List FileRecord} {file : FileRecord}

theorem path_madeUp (noFileNames : archive.header.archiveFlags.hasFileNames = false)
    (listed : archive.files = .ok files) (member : file ∈ files) :
    file.path = Path.inFolder (Path.folder file.path) (madeUpName file.hash) := by
  obtain ⟨folder, name, path, -, stored⟩ := path_of_files listed file member
  cases name with
  | some text =>
      have fileNames := (stored text rfl).1
      rw [noFileNames] at fileNames
      cases fileNames
  | none =>
      rw [filePath_none] at path
      rw [path, (parts_madeUp _ file.hash).1]

/-- The folder in which an entry is listed after a rebuild. -/
def relistedFolder (archive : Archive) (files : List FileRecord) (file : FileRecord) : String :=
  if archive.header.archiveFlags.hasFolderNames then
    archive.header.version.encoding.decode (archive.header.version.encoding.encode
      (spelledFolder (files.map fun other => Path.toArchive other.path)
        (Path.toArchive file.path)))
  else ""

theorem relisted_path_madeUp [Codecs]
    (noFileNames : archive.header.archiveFlags.hasFileNames = false)
    (listed : archive.files = .ok files) (member : file ∈ files) :
    (archive.relisted files file).path =
      Path.inFolder (archive.relistedFolder files file)
        (madeUpName (fileHash (madeUpName file.hash))) := by
  have leaf : Path.leaf (Path.toArchive file.path) = madeUpName file.hash := by
    rw [path_madeUp noFileNames listed member]
    exact Path.leaf_toArchive_inFolder _ (madeUpName_plain file.hash)
  have noName : ¬ (archive.header.archiveFlags.hasFileNames = true ∧
      (files.map fun other => Path.toArchive other.path).map Path.leaf ≠ [""]) := by
    rw [noFileNames]
    exact fun both => Bool.false_ne_true both.1
  simp only [relisted, relistedPath, leaf]
  rw [if_neg noName, filePath_none, relistedFolder]
  split <;> rfl

theorem relisted_path_plain [Codecs]
    (noFolderNames : archive.header.archiveFlags.hasFolderNames = false)
    (fileNames : archive.header.archiveFlags.hasFileNames) (member : file ∈ files)
    (notEmpty : file.path ≠ "")
    (plain : ∀ character ∈ file.path.toList, Path.isSeparator character = false)
    (survives : archive.header.version.encoding.decode
      (archive.header.version.encoding.encode file.path) = file.path) :
    (archive.relisted files file).path = file.path := by
  have leaf : Path.leaf (Path.toArchive file.path) = file.path :=
    Path.leaf_toArchive_inFolder "" plain
  have named : (files.map fun other => Path.toArchive other.path).map Path.leaf ≠ [""] := by
    intro single
    have among := List.mem_map_of_mem (f := Path.leaf)
      (List.mem_map_of_mem (f := fun other : FileRecord => Path.toArchive other.path) member)
    rw [single, List.mem_singleton, leaf] at among
    exact notEmpty among
  simp only [relisted, relistedPath, leaf]
  rw [noFolderNames, if_neg Bool.false_ne_true, if_pos ⟨fileNames, named⟩, survives]
  rfl

theorem leaf_zeroFree (noFolderNames : archive.header.archiveFlags.hasFolderNames = false)
    (listed : archive.files = .ok files) (member : file ∈ files) :
    '\x00' ∉ (Path.leaf (Path.toArchive file.path)).toList := by
  obtain ⟨folder, name, path, folderEq, stored⟩ := path_of_files listed file member
  have zeroFree : '\x00' ∉ file.path.toList := by
    rw [path, folderEq noFolderNames]
    cases name with
    | some text => exact (stored text rfl).2
    | none =>
        intro zero
        obtain ⟨digit, small, equal⟩ := Hexadecimal.exists_of_mem_renderPadded zero
        have digits : ∀ digit < 16, '\x00' ≠ Nat.digitChar digit := by decide
        exact digits digit small equal
  intro zero
  apply zeroFree
  have archiveForm := Path.mem_of_mem_leaf zero
  exact Path.mem_of_mem_toArchive (by decide) archiveForm

/-- An entry as the world outside knows it: a path, a size and some bytes. -/
def shown [Codecs] (archive : Archive) (file : FileRecord) : String × Option Nat × Option Bytes :=
  (file.path, (archive.size file).toOption, (archive.contents file).toOption)

end Archive

/-- What the world outside knows of an entry that goes by a made-up name. -/
def shownMadeUp : String × UInt64 × Bytes → String × Option Nat × Option Bytes :=
  fun (folder, hash, contents) =>
    (Path.inFolder folder (madeUpName hash), some contents.length, some contents)

theorem shownMadeUp_injective : Function.Injective shownMadeUp := by
  rintro ⟨folder, hash, contents⟩ ⟨otherFolder, otherHash, otherContents⟩ same
  simp only [shownMadeUp, Prod.mk.injEq, Option.some.injEq] at same
  obtain ⟨paths, -, rfl⟩ := same
  obtain ⟨folderEq, leafEq⟩ := parts_madeUp folder hash
  obtain ⟨otherFolderEq, otherLeafEq⟩ := parts_madeUp otherFolder otherHash
  rw [paths] at folderEq leafEq
  rw [← folderEq, otherFolderEq, madeUpName_injective (leafEq.symm.trans otherLeafEq)]

/-- An archive without names for its folders or its files is rebuilt into one that lists the same
entries under the paths that are left.  Where the files have no names, it lists the same paths,
sizes and bytes exactly when the hashes of the names that are made up of the old hashes are those
hashes, entry by entry up to their order, and the folders survive.  Where the files have names, it
does so if these are plain. -/
theorem rebuild_keeps_nameless_iff [Codecs] {archive : Archive}
    {arrange : List Group → List Group} {count : Nat} {bytes : Bytes} (name : String)
    (nameless : ¬ (archive.header.archiveFlags.hasFolderNames ∧
      archive.header.archiveFlags.hasFileNames))
    (arranged : ∀ groups, (arrange groups).Perm groups)
    (rebuilt : (Bethesda.Archive.tes4 archive).rebuildArranged arrange = .ok (count, bytes))
    (inverts : archive.header.version.compression.Inverts) :
    ∃ files opened listing, archive.files = .ok files ∧ count = files.length ∧
      Archive.open ⟨name, bytes⟩ = .ok opened ∧ opened.state = archive.state ∧
      opened.files = .ok listing ∧
      (listing.map opened.view).Perm (files.map (archive.relisted files)) ∧
      (archive.header.archiveFlags.hasFileNames = false →
        ((listing.map opened.shown).Perm (files.map archive.shown) ↔
          (files.map fun file => (archive.relistedFolder files file,
            fileHash (madeUpName file.hash), archive.contentsOf file)).Perm
            (files.map fun file =>
              (Path.folder file.path, file.hash, archive.contentsOf file)))) ∧
      (archive.header.archiveFlags.hasFileNames →
        (∀ file ∈ files, file.path ≠ "" ∧
          (∀ character ∈ file.path.toList, Path.isSeparator character = false) ∧
          archive.header.version.encoding.decode
            (archive.header.version.encoding.encode file.path) = file.path) →
        (listing.map opened.shown).Perm (files.map archive.shown)) := by
  have zeroFree : archive.header.archiveFlags.hasFileNames → ∀ files,
      archive.files = .ok files → ∀ file ∈ files,
        '\x00' ∉ (Path.leaf (Path.toArchive file.path)).toList := by
    intro fileNames files listed file member
    have noFolderNames : archive.header.archiveFlags.hasFolderNames = false :=
      Bool.eq_false_iff.mpr fun folderNames => nameless ⟨folderNames, fileNames⟩
    exact Archive.leaf_zeroFree noFolderNames listed member
  obtain ⟨files, opened, listing, listed, countEq, openedOk, stateEq, relistedOk, allRead, seen⟩ :=
    rebuild_relists name zeroFree arranged rebuilt inverts
  have outside : (listing.map opened.shown).Perm (files.map fun file =>
      ((archive.relisted files file).path, some (archive.contentsOf file).length,
        some (archive.contentsOf file))) := by
    have views := seen.map fun view : EntryView => (view.path, view.size, view.contents)
    rw [List.map_map, List.map_map] at views
    refine views.trans (List.Perm.of_eq (List.map_congr_left fun file member => ?_))
    have read := allRead file member
    simp only [Function.comp_apply, Archive.relisted, Archive.view, size_of_contents read, read,
      Except.toOption]
  have before : files.map archive.shown = files.map fun file =>
      (file.path, some (archive.contentsOf file).length, some (archive.contentsOf file)) := by
    refine List.map_congr_left fun file member => ?_
    have read := allRead file member
    simp only [Archive.shown, size_of_contents read, read, Except.toOption]
  refine ⟨files, opened, listing, listed, countEq, openedOk, stateEq, relistedOk, seen, ?_, ?_⟩
  · intro noFileNames
    have after : (files.map fun file => ((archive.relisted files file).path,
          some (archive.contentsOf file).length, some (archive.contentsOf file))) =
        (files.map fun file => (archive.relistedFolder files file,
          fileHash (madeUpName file.hash), archive.contentsOf file)).map shownMadeUp := by
      rw [List.map_map]
      refine List.map_congr_left fun file member => ?_
      rw [Archive.relisted_path_madeUp noFileNames listed member]
      rfl
    have now : files.map archive.shown = (files.map fun file =>
        (Path.folder file.path, file.hash, archive.contentsOf file)).map shownMadeUp := by
      rw [before, List.map_map]
      refine List.map_congr_left fun file member => ?_
      rw [Function.comp_apply, shownMadeUp, ← Archive.path_madeUp noFileNames listed member]
    rw [after] at outside
    rw [now, ← List.map_perm_map_iff shownMadeUp_injective]
    exact ⟨outside.symm.trans, outside.trans⟩
  · intro fileNames plain
    have noFolderNames : archive.header.archiveFlags.hasFolderNames = false :=
      Bool.eq_false_iff.mpr fun folderNames => nameless ⟨folderNames, fileNames⟩
    refine outside.trans (List.Perm.of_eq ?_)
    rw [before]
    refine List.map_congr_left fun file member => ?_
    obtain ⟨notEmpty, noSeparator, survives⟩ := plain file member
    rw [Archive.relisted_path_plain noFolderNames fileNames member notEmpty noSeparator survives]

/-- Two files with names, in two folders without. -/
def namesOnlyBytes : Bytes :=
  magic ++ Bytes.ofWord32 0x69 ++ Bytes.ofWord32 0x24 ++ Bytes.ofWord32 0x2 ++ Bytes.ofWord32 2 ++
    Bytes.ofWord32 2 ++ Bytes.zeros 4 ++ Bytes.ofWord32 12 ++ Bytes.zeros 4 ++
    Bytes.ofWord64 9 ++ Bytes.ofWord64 1 ++ Bytes.zeros 8 ++
    Bytes.ofWord64 5 ++ Bytes.ofWord64 1 ++ Bytes.zeros 8 ++
    Bytes.ofWord64 4 ++ Bytes.ofWord32 2 ++ Bytes.ofWord32 128 ++
    Bytes.ofWord64 2 ++ Bytes.ofWord32 1 ++ Bytes.ofWord32 130 ++
    Utf8.encode "b.dds" ++ [0] ++ Utf8.encode "a.nif" ++ [0] ++ [1, 2, 3]

def namesOnly : Archive where
  source := ⟨"b.bsa", namesOnlyBytes⟩
  header := ⟨.sse, 0x24, ⟨0x2⟩, 2, 2, 0, 12, 0⟩

def namesOnlyFiles : List FileRecord :=
  [⟨4, 2, 128, 0, 0, "b.dds"⟩, ⟨2, 1, 130, 0, 1, "a.nif"⟩]

theorem rebuild_keeps_nameless_iff_namesOnly :
    ∃ bytes opened listing, Archive.open ⟨"b.bsa", namesOnlyBytes⟩ = .ok namesOnly ∧
      (Bethesda.Archive.tes4 namesOnly).rebuildArranged List.reverse = .ok (2, bytes) ∧
      Archive.open ⟨"rebuilt.bsa", bytes⟩ = .ok opened ∧ opened.files = .ok listing ∧
      (listing.map opened.shown).Perm
        [("b.dds", some 2, some [1, 2]), ("a.nif", some 1, some [3])] := by
  have openedOk : Archive.open ⟨"b.bsa", namesOnlyBytes⟩ = .ok namesOnly := by decide +kernel
  have listed : namesOnly.files = .ok namesOnlyFiles := by decide +kernel
  let builder : Builder := ⟨"b.bsa", .sse, ⟨0x2⟩, 0, []⟩
  let added : Builder :=
    builder.addAll [(⟨"b.dds", 0, false⟩, [1, 2]), (⟨"a.nif", 0, false⟩, [3])]
  have createdOk : Builder.create "b.bsa" namesOnly.state = .ok builder := by decide +kernel
  have filesOk : (Bethesda.Archive.tes4 namesOnly).files =
      .ok (namesOnlyFiles.map (.tes4 namesOnly)) := by
    decide +kernel
  have addedOk : (Bethesda.Builder.tes4 builder).addFiles
      (namesOnlyFiles.map (.tes4 namesOnly)) = .ok (.tes4 added) := by
    decide +kernel
  have inOrder : (added.groups.map fun groups => decide (InOrder groups.reverse)) = .ok true := by
    decide +kernel
  obtain ⟨bytes, built⟩ := Builder.exists_buildArranged_eq_ok inOrder (by decide +kernel)
  have rebuilt : (Bethesda.Archive.tes4 namesOnly).rebuildArranged List.reverse =
      .ok (2, bytes) :=
    rebuildArranged_of_steps createdOk filesOk addedOk built
  obtain ⟨files, opened, listing, alsoListed, -, reopened, -, listingOk, -, -, kept⟩ :=
    rebuild_keeps_nameless_iff "rebuilt.bsa" (by decide) List.reverse_perm rebuilt
      Compression.lz4Frame_inverts
  rw [listed] at alsoListed
  cases alsoListed
  have plain : ∀ file ∈ namesOnlyFiles, file.path ≠ "" ∧
      (file.path.toList.all fun character => !Path.isSeparator character) ∧
      Encoding.windows1252.decode (Encoding.windows1252.encode file.path) = file.path := by
    decide +kernel
  have same := kept (by decide) fun file member => by
    obtain ⟨notEmpty, noSeparator, survives⟩ := plain file member
    exact ⟨notEmpty, by simpa using noSeparator, survives⟩
  have shown : namesOnlyFiles.map namesOnly.shown =
      [("b.dds", some 2, some [1, 2]), ("a.nif", some 1, some [3])] := by
    decide +kernel
  rw [shown] at same
  exact ⟨bytes, opened, listing, openedOk, rebuilt, reopened, listingOk, same⟩

/-- One file with the hash of a name that is not stored. -/
def hashOnlyBytes : Bytes :=
  magic ++ Bytes.ofWord32 0x67 ++ Bytes.ofWord32 0x24 ++ Bytes.zeros 4 ++ Bytes.ofWord32 1 ++
    Bytes.ofWord32 1 ++ Bytes.zeros 12 ++
    Bytes.zeros 8 ++ Bytes.ofWord32 1 ++ Bytes.ofWord32 52 ++
    Bytes.ofWord64 0x92CD45FD61018061 ++ Bytes.ofWord32 1 ++ Bytes.ofWord32 68 ++ [7]

/-- A rebuild hashes the made-up name of a file, so that the file goes by another name. -/
theorem rebuild_renames_hashOnly :
    fileHash "a.nif" = 0x92CD45FD61018061 ∧
    ∃ archive bytes opened, Archive.open ⟨"b.bsa", hashOnlyBytes⟩ = .ok archive ∧
      archive.files.map (List.map archive.shown) =
        .ok [("92cd45fd61018061", some 1, some [7])] ∧
      (Bethesda.Archive.tes4 archive).rebuildArranged id = .ok (1, bytes) ∧
      Archive.open ⟨"b.bsa", bytes⟩ = .ok opened ∧
      opened.files.map (List.map opened.shown) =
        .ok [("f2f053e639103631", some 1, some [7])] := by
  let archive : Archive := ⟨⟨"b.bsa", hashOnlyBytes⟩, ⟨.tes4, 0x24, ⟨0⟩, 1, 1, 0, 0, 0⟩⟩
  let files : List Bethesda.File :=
    [.tes4 archive ⟨0x92CD45FD61018061, 1, 68, 0, 0, "92cd45fd61018061"⟩]
  let builder : Builder := ⟨"b.bsa", .tes4, ⟨0⟩, 0, []⟩
  let added : Builder := builder.addAll [(⟨"92cd45fd61018061", 0, false⟩, [7])]
  have filesOk : (Bethesda.Archive.tes4 archive).files = .ok files := by decide +kernel
  have addedOk : (Bethesda.Builder.tes4 builder).addFiles files = .ok (.tes4 added) := by
    decide +kernel
  have inOrder : (added.groups.map fun groups => decide (InOrder (id groups))) = .ok true := by
    decide +kernel
  have facts : (added.buildArranged id).toOption.any fun bytes =>
      (Archive.open ⟨"b.bsa", bytes⟩).toOption.any fun opened =>
        opened.files.map (List.map opened.shown) =
          .ok [("f2f053e639103631", some 1, some [7])] := by
    rw [Builder.buildArranged_of_inOrder inOrder]
    decide +kernel
  obtain ⟨bytes, built, facts⟩ := Outcome.exists_ok_of_any facts
  obtain ⟨opened, openedOk, facts⟩ := Outcome.exists_ok_of_any facts
  exact ⟨by decide +kernel, archive, bytes, opened, by decide +kernel, by decide +kernel,
    rebuildArranged_of_steps rfl filesOk addedOk built, openedOk, of_decide_eq_true facts⟩

end Tes4
end GameArchive
