import GameArchive.Btar.Pack
import GameArchive.Proofs.Btar.Writing
import GameArchive.Proofs.FileTree.Upkeep

/-!
# Packed directories

Packing writes the files below a directory as records, each with its path from the directory, and
changes nothing but the output.  The names of records have room for 65535 bytes, and a directory
all of whose files keep within them is packed in full.
-/

namespace GameArchive
namespace Btar

/-- The record in which a file is packed. -/
def packedFile (file : List String × Bytes) : StoredRecord where
  name := Path.toArchive ("/".intercalate file.1)
  data := file.2

/-- A stream with a record for each file. -/
def packedBytes (files : List (List String × Bytes)) : Bytes :=
  Writer.start.bytes ++ (files.map packedFile).flatMap StoredRecord.write

section Loop

variable {output directory : Location}

theorem packFiles_cons (names : List String) (others : List (List String)) (writer : Writer)
    (tree : FileTree) :
    packFiles output directory writer (names :: others) tree =
      let contents := (tree.contents? (directory ++ names)).getD []
      let (next, failure?) := writer.add ("/".intercalate names) contents.length contents
      let grown := tree.insert output (.file next.bytes false)
      match failure? with
      | some failure => .error (.notPacked ("/".intercalate names) failure) grown
      | none => packFiles output directory next others grown := by
  rw [packFiles, Outcome.get_bind]
  simp only
  generalize writer.add _ _ _ = added
  obtain ⟨next, failure?⟩ := added
  cases failure? <;> rfl

/-- Files whose names fit are packed one behind the other. -/
theorem packFiles_of_fits (outside : ∀ names, output ≠ directory ++ names) {tree : FileTree}
    {files : List (List String × Bytes)} (writer : Writer)
    (there : ∀ file ∈ files, tree.contents? (directory ++ file.1) = some file.2)
    (fits : ∀ file ∈ files, (Utf8.encode ("/".intercalate file.1)).length ≤ 65535) :
    ∃ packed,
      packFiles output directory writer (files.map Prod.fst) tree =
        .ok ⟨writer.bytes ++ (files.map packedFile).flatMap StoredRecord.write,
          writer.count + files.length⟩ packed ∧
      ∀ other, other ≠ output → packed.node? other = tree.node? other := by
  induction files generalizing tree writer with
  | nil =>
      refine ⟨tree, ?_, fun _ _ => rfl⟩
      rw [List.map_nil, packFiles, List.map_nil, List.flatMap_nil, List.append_nil]
      rfl
  | cons file files ih =>
      rw [List.forall_mem_cons] at there fits
      have short : (Utf8.encode (Path.toArchive ("/".intercalate file.1))).length < UInt16.size :=
        Nat.lt_succ_of_le (Nat.le_trans (Path.length_encode_toArchive_le _) fits.1)
      have added := writer.add_of_fits short (Nat.le_refl file.2.length)
      rw [List.take_length] at added
      rw [List.map_cons, packFiles_cons, there.1]
      simp only [Option.getD_some, added]
      have untouched (node : FileNode) : ∀ other ∈ files,
          (tree.insert output node).contents? (directory ++ other.1) = some other.2 := by
        intro other among
        rw [FileTree.contents?_insert_of_ne _ (outside other.1).symm]
        exact there.2 other among
      obtain ⟨packed, ended, kept⟩ :=
        ih ⟨writer.bytes ++ (packedFile file).write, writer.count + 1⟩ (untouched _) fits.2
      refine ⟨packed, ended.trans ?_, fun other elsewhere => ?_⟩
      · simp only [List.map_cons, List.flatMap_cons, List.append_assoc, List.length_cons,
          Nat.add_assoc, Nat.add_comm 1]
      · rw [kept other elsewhere, FileTree.node?_insert_of_ne _ elsewhere]

end Loop

/-- A directory whose files have names that fit is packed, and only the output changes: it holds
the header and a record for each file. -/
theorem packDirectory_of_fits {base source target : Location} {tree : FileTree}
    {directory output : String} (wellFormed : tree.WellFormed)
    (sourceAt : tree.locate? base directory = some source)
    (targetAt : tree.locate? base output = some target) (admitted : tree.admitsFile target)
    (outside : ∀ names, target ≠ source ++ names)
    (fits : ∀ file ∈ tree.filesBelow source,
      (Utf8.encode ("/".intercalate file.1)).length ≤ 65535) :
    ∃ packed,
      packDirectory base directory output tree =
        .ok (tree.filesBelow source).length packed ∧
      packed.readPath base output = .ok (packedBytes (tree.filesBelow source)) ∧
      ∀ other, other ≠ target → packed.node? other = tree.node? other := by
  have free := FileTree.not_isDirectory_of_admitsFile admitted
  have create := FileTree.writeFile_of_admitsFile [] admitted
  generalize made : tree.insert target (.file [] (tree.isExecutable target)) = created at create
  have same : ∀ other, other ≠ target → created.node? other = tree.node? other := by
    rw [← made]
    exact fun other => FileTree.node?_insert_of_ne _
  have stay : FileTree.DirectoriesStay tree created :=
    FileTree.directoriesStay_of_elsewhere free same
  have there : ∀ file ∈ tree.filesBelow source,
      created.contents? (source ++ file.1) = some file.2 := by
    intro file member
    rw [FileTree.contents?, same _ (outside file.1).symm, ← FileTree.contents?]
    exact wellFormed.mem_filesBelow_iff.mp member
  obtain ⟨written, ended, kept⟩ := packFiles_of_fits outside Writer.start there fits
  have listed : created.filesBelow source = tree.filesBelow source := by
    rw [← made, FileTree.filesBelow_insert_of_outside _ outside]
  let packed := written.insert target (.file (packedBytes (tree.filesBelow source)) false)
  have elsewhere : ∀ other, other ≠ target → packed.node? other = tree.node? other := by
    intro other different
    rw [FileTree.node?_insert_of_ne _ different, kept other different, same other different]
  refine ⟨packed, ?_, ?_, elsewhere⟩
  · rw [packDirectory, targetAt]
    simp only
    rw [create]
    simp only
    rw [stay.locate? sourceAt]
    simp only
    rw [listed, Outcome.state_bind, ended]
    exact congrArg (EStateM.Result.ok · packed) (Nat.zero_add _)
  · have located := (FileTree.directoriesStay_of_elsewhere free elsewhere).locate? targetAt
    rw [FileTree.readPath, located]
    simp only
    rw [FileTree.readFile, FileTree.contents?_insert_self (FileTree.ne_nil_of_not_isDirectory free)]

/-! ## The output of a packing that may fail -/

theorem packFiles_upkept {output : Location} (directory : Location) {tree : FileTree}
    (writer : Writer) (files : List (List String)) (ends : FileTree.EndsInName output)
    (wellFormed : tree.WellFormed) (admitted : tree.admitsFile output) :
    FileTree.Upkept tree (Outcome.state (packFiles output directory writer files tree)) ∧
      (Outcome.state (packFiles output directory writer files tree)).admitsFile output := by
  induction files generalizing tree writer with
  | nil => exact ⟨wellFormed.upkept, admitted⟩
  | cons names files ih =>
      rw [packFiles_cons]
      simp only
      generalize writer.add _ _ _ = added
      obtain ⟨next, failure?⟩ := added
      have grown := wellFormed.insert_of_admitsFile ends admitted (.file next.bytes false)
      have again := FileTree.admitsFile_insert_file next.bytes false admitted
      cases failure? with
      | some failure => exact ⟨grown, again⟩
      | none =>
          obtain ⟨packed, still⟩ := ih next grown.wellFormed again
          exact ⟨grown.trans packed, still⟩

/-- Packing leaves the tree well-formed, whether it succeeds or stops half-way. -/
theorem packDirectory_upkept {base : Location} {tree : FileTree} (directory output : String)
    (wellFormed : tree.WellFormed) (standing : tree.isDirectory base) :
    FileTree.Upkept tree (Outcome.state (packDirectory base directory output tree)) := by
  rw [packDirectory]
  cases targetAt : tree.locate? base output with
  | none => exact wellFormed.upkept
  | some target =>
      have ends := FileTree.endsInName_of_locate? wellFormed standing targetAt
      simp only
      by_cases admitted : tree.admitsFile target
      · rw [FileTree.writeFile_of_admitsFile [] admitted]
        simp only
        have made := wellFormed.insert_of_admitsFile ends admitted
          (.file [] (tree.isExecutable target))
        have again := FileTree.admitsFile_insert_file [] (tree.isExecutable target) admitted
        generalize tree.insert target (.file [] (tree.isExecutable target)) = created at made again
        refine made.trans ?_
        cases created.locate? base directory with
        | none => exact made.wellFormed.insert_of_admitsFile ends again _
        | some source =>
            obtain ⟨packed, still⟩ := packFiles_upkept source Writer.start
              ((created.filesBelow source).map fun file => file.1) ends made.wellFormed again
            refine Outcome.holds_state_bind packed fun writer after outcome kept => ?_
            rw [outcome] at still
            exact kept.trans (kept.wellFormed.insert_of_admitsFile ends still _)
      · have refused : FileTree.writeFile target [] tree = .error .system tree := by
          rw [FileTree.writeFile, Outcome.get_bind, if_neg admitted]
          rfl
        rw [refused]
        exact wellFormed.upkept

end Btar
end GameArchive
