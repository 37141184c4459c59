import GameArchive.Proofs.Btar.Packing
import GameArchive.Proofs.Extraction.Repeated
import GameArchive.Proofs.FileTree.Copying

/-!
# Directories packed and unpacked

The path of a file goes through several forms on its way: it is put together with slashes, stored
with backslashes, checked, and joined with slashes to a destination.  For a path that the check
accepts and that holds no backslash of its own they all mean the same names.  So what is unpacked
from a packed directory is a copy of its files, entry by entry and at last as a whole.
-/

namespace GameArchive

open FileTree (Copies DirectoriesStay)

/-- A file with the names that lead to it, which an archive can carry from one directory to
another. -/
structure PortableFile (file : List String × Bytes) : Prop where
  noBackslash : '\\' ∉ ("/".intercalate file.1).toList
  short : (Utf8.encode ("/".intercalate file.1)).length ≤ 65535
  safe : Path.isSafe ("/".intercalate file.1)
  sized : file.2.length < UInt64.size

/-- A directory of a well-formed tree with files that can be carried. -/
structure Portable (tree : FileTree) (source : Location) : Prop where
  wellFormed : tree.WellFormed
  directory : tree.isDirectory source
  files : ∀ file ∈ tree.filesBelow source, PortableFile file

/-- A path leads to a directory in which nothing stands. -/
structure LeadsToEmpty (tree : FileTree) (base : Location) (path : String) (place : Location) :
    Prop where
  located : tree.locate? base path = some place
  directory : tree.isDirectory place
  empty : ∀ names, names ≠ [] → tree.node? (place ++ names) = none

namespace Portable

variable {tree : FileTree} {source : Location} {file : List String × Bytes}

/-- A file below a directory has a name of its own behind the names of directories. -/
theorem exists_concat (portable : Portable tree source) (member : file ∈ tree.filesBelow source) :
    (∀ name ∈ file.1, IsName name) ∧ ∃ front leaf, file.1 = front ++ [leaf] := by
  have stands := portable.wellFormed.mem_filesBelow_iff.mp member
  have there := FileTree.contains_of_contents? stands
  constructor
  · exact fun name among => portable.wellFormed.isName there (List.mem_append_right _ among)
  · rcases List.eq_nil_or_concat' file.1 with none | ⟨front, leaf, row⟩
    · rw [none, List.append_nil, FileTree.contents?_eq_none_of_isDirectory portable.directory]
        at stands
      cases stands
    · exact ⟨front, leaf, row⟩

/-- The name of a record that shows a file is safe, and in its native form it is made of the names
of the file. -/
theorem forms_of_shows (portable : Portable tree source) (member : file ∈ tree.filesBelow source)
    {bytes : Bytes} {record : Btar.Record}
    (shows : Btar.Shows bytes record (Btar.packedFile file)) :
    Path.isSafe record.name ∧ (Path.toNative record.name).toList.head? ≠ some '/' ∧
      Path.names (Path.toNative record.name).toList = file.1 := by
  obtain ⟨each, front, leaf, row⟩ := portable.exists_concat member
  have notEmpty : file.1 ≠ [] := by simp [row]
  have plain : ∀ name ∈ file.1, '/' ∉ name.toList := fun name among => (each name among).noSlash
  have unrooted := Path.slashed_unrooted notEmpty plain fun among => (each "" among).notEmpty rfl
  have noBackslash := (portable.files file member).noBackslash
  have named : record.name = Path.toArchive ("/".intercalate file.1) :=
    shows.name.trans (Path.toArchive_toArchive _)
  rw [named, Path.isSafe_toArchive noBackslash unrooted,
    Path.toNative_toArchive noBackslash unrooted]
  exact ⟨(portable.files file member).safe, unrooted, Path.names_slashed notEmpty plain⟩

theorem storable (portable : Portable tree source) :
    ∀ record ∈ (tree.filesBelow source).map Btar.packedFile, record.Storable := by
  intro record among
  obtain ⟨file, member, rfl⟩ := List.mem_map.mp among
  have fits := (portable.files file member).short
  exact ⟨Nat.lt_succ_of_le (Nat.le_trans (Path.length_encode_toArchive_le _) fits),
    (portable.files file member).sized⟩

end Portable

theorem ExtractError.onBehalfOf_of_ok {σ α : Type} {action : EStateM IoError σ α}
    {before after : σ} {value : α} (archive : String)
    (succeeded : action before = .ok value after) :
    onBehalfOf archive action before = .ok value after := by
  rw [onBehalfOf, succeeded]

/-- A record that is whole is put where its file is prepared. -/
theorem Entry.moveTo_btar {archive : Source} {record : Btar.Record} {base location : Location}
    {target : String} {tree made next : FileTree} (modified : Nat)
    (prepared : FileTree.prepareFile base target tree = .ok location made)
    (written : FileTree.writeFile location (archive.bytes.window record.offset record.length) made =
      .ok () next)
    (whole : record.length ≤ (archive.bytes.window record.offset record.length).length) :
    (Entry.btar archive record modified).moveTo base target tree = .ok () next := by
  have put : (FileTree.prepareFile base target >>= fun location =>
      FileTree.writeFile location (archive.bytes.window record.offset record.length)) tree =
        .ok () next :=
    Outcome.state_bind_eq_ok_iff.mpr ⟨location, made, prepared, written⟩
  refine Outcome.state_bind_eq_ok_iff.mpr
    ⟨⟨⟩, next, ExtractError.onBehalfOf_of_ok archive.name put, ?_⟩
  rw [if_neg (Nat.not_lt_of_le whole)]
  rfl

namespace Extraction

section Run

variable {original tree : FileTree} {source place base : Location} {destination : String}
  {archive : Source}

/-- A record that shows a file is put where the file belongs. -/
theorem moveTo_of_copies (modified : Nat) (portable : Portable original source)
    {file : List String × Bytes} {remaining : List (List String)} {record : Btar.Record}
    (member : file ∈ original.filesBelow source)
    (short : (place ++ file.1).path.utf8ByteSize ≤ FileTree.maximumPathLength)
    (located : tree.locate? base destination = some place) (standing : tree.isDirectory place)
    (copies : Copies original source tree place (file.1 :: remaining))
    (notAgain : file.1 ∉ remaining)
    (shows : Btar.Shows archive.bytes record (Btar.packedFile file)) :
    ∃ next,
      (Entry.btar archive record modified).moveTo base (Path.join destination record.name) tree =
        .ok () next ∧
      Copies original source next place remaining ∧ DirectoriesStay tree next := by
  obtain ⟨each, front, leaf, row⟩ := portable.exists_concat member
  obtain ⟨-, unrooted, parts⟩ := portable.forms_of_shows member shows
  have stands := portable.wellFormed.mem_filesBelow_iff.mp member
  rw [row] at copies notAgain stands parts short
  obtain ⟨made, next, created, written, copied, stay⟩ :=
    copies.writeFile portable.wellFormed notAgain stands standing short
  have prepared := FileTree.prepareFile_join located standing unrooted parts
    (each leaf (by simp [row])) created
  rw [List.append_assoc] at prepared
  have window : archive.bytes.window record.offset record.length = file.2 := shows.data
  refine ⟨next, ?_, copied, stay⟩
  apply Entry.moveTo_btar modified prepared
  · rw [window]
    exact written
  · rw [window, shows.length]
    exact Nat.le_refl _

theorem project_placeBelow {filter : String → Bool} {only? : Option (List String)}
    {entry : Entry} {session : Session} {next : FileTree} (safe : Path.isSafe entry.path)
    (moved : entry.moveTo base (Path.join destination entry.path) session.tree = .ok () next) :
    project ⟨filter, placeBelow base destination, only?⟩ archive.name entry session =
      .ok () { session with tree := next } := by
  have placed : placeBelow base destination entry session.toSurroundings =
      .ok () { session.toSurroundings with tree := next } := by
    rw [placeBelow, if_pos safe, moved]
  simp only [project, placed]

/-- The loop puts all files that remain, and gives a result for each. -/
theorem gather_of_copies (modified : Nat) (portable : Portable original source)
    (short : ∀ file ∈ original.filesBelow source,
      (place ++ file.1).path.utf8ByteSize ≤ FileTree.maximumPathLength)
    {records : List Btar.Record} {files : List (List String × Bytes)}
    (member : ∀ file ∈ files, file ∈ original.filesBelow source)
    (distinct : (files.map Prod.fst).Nodup)
    (shows : List.Forall₂ (fun record file =>
      Btar.Shows archive.bytes record (Btar.packedFile file)) records files)
    (results : Results Unit) (session : Session) (stands : session.isCancelled = false)
    (located : session.tree.locate? base destination = some place)
    (standing : session.tree.isDirectory place)
    (copies : Copies original source session.tree place (files.map Prod.fst)) :
    ∃ after,
      gather ⟨isNamed none, placeBelow base destination, none⟩ archive.name results
          (records.map (offerOfRecord archive modified)) session =
        .ok (results.collect (records.map fun record => (record.name, ()))) after ∧
      Copies original source after.tree place [] := by
  induction shows generalizing results session with
  | nil => exact ⟨session, rfl, copies⟩
  | @cons record file records files first _ ih =>
      rw [List.forall_mem_cons] at member
      rw [List.map_cons, List.nodup_cons] at distinct
      obtain ⟨next, moved, copied, stay⟩ := moveTo_of_copies modified portable member.1
        (short file member.1) located standing copies distinct.1 first
      have projected : project ⟨isNamed none, placeBelow base destination, none⟩ archive.name
          (.btar archive record modified) (session.asking record.name) = .ok () _ :=
        project_placeBelow (portable.forms_of_shows member.1 first).1 moved
      obtain ⟨after, gathered, done⟩ := ih member.2 distinct.2 (results.insert record.name ())
        (Session.counting { session.asking record.name with tree := next }
          (UInt64.ofNat record.length))
        stands (stay.locate? located) (stay place standing) copied
      refine ⟨after, ?_, done⟩
      rw [List.map_cons, gather_cons_of_standing _ _ _ _ _ stands]
      simp only [offerOfRecord, Entry.path, projected]
      exact gathered

/-- Files of different names are shown by records of different names. -/
theorem nodup_names_of_shows (portable : Portable original source) {records : List Btar.Record}
    {files : List (List String × Bytes)}
    (member : ∀ file ∈ files, file ∈ original.filesBelow source)
    (distinct : (files.map Prod.fst).Nodup)
    (shows : List.Forall₂ (fun record file =>
      Btar.Shows archive.bytes record (Btar.packedFile file)) records files) :
    (records.map Btar.Record.name).Nodup := by
  have recovered : (records.map Btar.Record.name).map
      (fun name => Path.names (Path.toNative name).toList) = files.map Prod.fst := by
    clear distinct
    induction shows with
    | nil => rfl
    | cons first _ ih =>
        rw [List.forall_mem_cons] at member
        rw [List.map_cons, List.map_cons, List.map_cons, ih member.2,
          (portable.forms_of_shows member.1 first).2.2]
  rw [← recovered] at distinct
  exact distinct.of_map _

end Run

theorem sniff_written (rest : Bytes) :
    (ContainerKind.sniff (Stream.ofBytes (Btar.Writer.start.bytes ++ rest))).1 = some .btar :=
  rfl

/-- A stream that the writer has begun is extracted in process, from records that are all read when
it is spelled to its end. -/
theorem exists_inProcess_of_spells {extractor : Extractor} {origin : Origin} {session : Session}
    {archive : Source} {rest : Bytes} {minor : Nat} {stored : List Btar.StoredRecord}
    (loaded : origin.load session.tree extractor.workingDirectory = .ok archive)
    (begun : archive.bytes = Btar.Writer.start.bytes ++ rest)
    (spelled : Btar.Spells archive.bytes minor stored) :
    ∃ opening, InProcess extractor origin session archive opening ∧
      ∀ session, opening session = .ok
        ⟨(Btar.records archive).records.map (offerOfRecord archive origin.modified), none, none⟩
        session := by
  refine ⟨_, ⟨loaded, .btar, ?_, rfl⟩, fun session => ?_⟩
  · rw [begun, sniff_written]
    rfl
  · rw [spelled.openHeader_eq_ok, spelled.records_eq]
    rfl

/-- A file that holds a packed directory is extracted into an empty directory in full. -/
theorem extractTo_of_packed {original : FileTree} {source place : Location}
    {extractor : Extractor} {session : Session} {path destination : String}
    (portable : Portable original source)
    (holds : session.tree.readPath extractor.workingDirectory path =
      .ok (Btar.packedBytes (original.filesBelow source)))
    (leads : LeadsToEmpty session.tree extractor.workingDirectory destination place)
    (short : ∀ file ∈ original.filesBelow source,
      (place ++ file.1).path.utf8ByteSize ≤ FileTree.maximumPathLength)
    (stands : session.isCancelled = false) (free : session.limiter.isFull = false) :
    ∃ after,
      extractor.extractTo (.file path) destination none session =
        .ok (original.filesBelow source).length after ∧
      ∀ names, after.tree.contents? (place ++ names) = original.contents? (source ++ names) := by
  let archive : Source := ⟨Origin.fileName path, Btar.packedBytes (original.filesBelow source)⟩
  have spelled : Btar.Spells archive.bytes 4 _ := Btar.Writer.spells_start portable.storable
  have shown := spelled.shows
  rw [List.forall₂_map_right_iff] at shown
  have distinct := portable.wellFormed.nodup_filesBelow source
  have loaded : (Origin.file path).load session.tree extractor.workingDirectory = .ok archive := by
    rw [Origin.load, holds]
    rfl
  obtain ⟨opening, inProcess, opens⟩ := exists_inProcess_of_spells loaded rfl spelled
  obtain ⟨ended, gathered, copied⟩ := gather_of_copies 0 portable short (fun _ member => member)
    distinct shown [] session.holding stands leads.located leads.directory
    (FileTree.copies_of_empty portable.wellFormed portable.directory leads.directory leads.empty)
  have extracted := inProcess.extract_eq_ok_iff.mpr
    ⟨stands, free, _, session.holding, ended, opens session.holding, rfl, gathered, rfl⟩
  have named : Results.paths ((Btar.records archive).records.map fun record =>
      (record.name, ())) = (Btar.records archive).records.map Btar.Record.name := by
    rw [Results.paths, List.map_map]
    rfl
  have unrepeated := nodup_names_of_shows portable (fun _ member => member) distinct shown
  have counted := Results.length_collect ((Btar.records archive).records.map fun record =>
    (record.name, ()))
  rw [named, length_eraseDups_eq_iff.mpr unrepeated, List.length_map, shown.length_eq] at counted
  refine ⟨releaseSlot ended, ?_, copied.contents?_eq⟩
  rw [Extractor.extractTo, Outcome.state_bind, extracted]
  exact congrArg (EStateM.Result.ok · _) counted

/-- A directory of a well-formed tree is packed into a file outside it, which is all that changes,
and from any place where the bytes of this file are read they are extracted into any empty
directory.  Both tell the number of files.  In the end the destination has the files of the
directory, under the same names and with the same contents, and no others.

The system has a part in this: the output can be created, no slot is missing, and the paths of the
files have room behind that of the destination. -/
theorem extractTo_packDirectory {base source target : Location} {tree : FileTree}
    {directory output : String} (portable : Portable tree source)
    (sourceAt : tree.locate? base directory = some source)
    (targetAt : tree.locate? base output = some target) (admitted : tree.admitsFile target)
    (outside : ∀ names, target ≠ source ++ names) :
    ∃ packed bytes,
      Btar.packDirectory base directory output tree =
        .ok (tree.filesBelow source).length packed ∧
      packed.readPath base output = .ok bytes ∧
      (∀ other, other ≠ target → packed.node? other = tree.node? other) ∧
      ∀ (extractor : Extractor) (session : Session) (path destination : String)
        (place : Location),
        session.tree.readPath extractor.workingDirectory path = .ok bytes →
        LeadsToEmpty session.tree extractor.workingDirectory destination place →
        (∀ file ∈ tree.filesBelow source,
          (place ++ file.1).path.utf8ByteSize ≤ FileTree.maximumPathLength) →
        session.isCancelled = false → session.limiter.isFull = false →
        ∃ after,
          extractor.extractTo (.file path) destination none session =
            .ok (tree.filesBelow source).length after ∧
          ∀ names, after.tree.contents? (place ++ names) = tree.contents? (source ++ names) := by
  obtain ⟨packed, counted, holds, elsewhere⟩ := Btar.packDirectory_of_fits portable.wellFormed
    sourceAt targetAt admitted outside fun file member => (portable.files file member).short
  refine ⟨packed, _, counted, holds, elsewhere, ?_⟩
  intro extractor session path destination place reads leads short stands free
  exact extractTo_of_packed portable reads leads short stands free

/-- An empty file, and one in a directory of its own; an output whose path leads through the packed
directory. -/
theorem extractTo_packDirectory_twoFiles :
    let tree : FileTree := ⟨[(["in"], .directory), (["in", "a"], .file [] false),
      (["in", "sub"], .directory), (["in", "sub", "b c:d"], .file [7, 8] true),
      (["out"], .directory)]⟩
    let extractor : Extractor := ⟨[], "tmp", fun _ => .error .system⟩
    Portable tree ["in"] ∧ ∃ packed after,
      Btar.packDirectory [] "in/" "in/../p.btar" tree = .ok 2 packed ∧
      extractor.extractTo (.file "in/../p.btar") "out" none
        ⟨⟨packed, false⟩, .ofMaximum 1, ⟨0, 0⟩, []⟩ = .ok 2 after ∧
      after.tree.contents? ["out", "a"] = some [] ∧
      after.tree.contents? ["out", "sub", "b c:d"] = some [7, 8] := by
  intro tree extractor
  have listed : tree.filesBelow ["in"] = [(["a"], []), (["sub", "b c:d"], [7, 8])] := by
    rw [FileTree.filesBelow_eq]
    exact List.mergeSort_of_pairwise (by decide)
  have portable : Portable tree ["in"] := by
    refine ⟨by decide +kernel, by decide, ?_⟩
    rw [listed]
    simp only [List.forall_mem_cons]
    refine ⟨⟨by decide, by decide, by decide, by decide⟩,
      ⟨by decide +kernel, by decide +kernel, by decide +kernel, by decide⟩, by simp⟩
  have sourceAt : tree.locate? [] "in/" = some ["in"] := by decide
  have targetAt : tree.locate? [] "in/../p.btar" = some ["p.btar"] := by decide
  obtain ⟨packed, bytes, counted, holds, elsewhere, extracts⟩ := extractTo_packDirectory portable
    sourceAt targetAt (by decide +kernel) (by simp)
  have free : tree.isDirectory ["p.btar"] = false := by decide
  have stay := FileTree.directoriesStay_of_elsewhere free elsewhere
  have leads : LeadsToEmpty packed [] "out" ["out"] := by
    have located : tree.locate? [] "out" = some ["out"] := by decide
    refine ⟨stay.locate? located, stay ["out"] (by decide), fun names below => ?_⟩
    rw [elsewhere _ (by simp), FileTree.node?, if_neg (by simp), List.lookup_eq_none_iff]
    simp [tree, below]
  obtain ⟨after, again, copied⟩ := extracts extractor
    ⟨⟨packed, false⟩, .ofMaximum 1, ⟨0, 0⟩, []⟩ "in/../p.btar" "out" ["out"] holds leads
    (by rw [listed]; decide +kernel) rfl rfl
  rw [listed] at counted again
  exact ⟨portable, packed, after, counted, again, copied ["a"], copied ["sub", "b c:d"]⟩

end Extraction
end GameArchive
