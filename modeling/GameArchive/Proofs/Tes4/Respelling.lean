import GameArchive.Proofs.Repetition
import GameArchive.Tes4.Builder
import Mathlib.Data.List.Forall2

/-!
# Writing files under other paths

Once the files of an archive are grouped and framed, their paths and the name of the archive are
needed for messages only.  Two builders with the same header write the same bytes for groups that
agree in everything else.
-/

namespace GameArchive
namespace Tes4

open Outcome (Yields)

/-- Framed files that agree in all but their paths. -/
structure FramedFile.Alike (framed other : FramedFile) : Prop where
  name : framed.file.name = other.file.name
  hash : framed.file.hash = other.file.hash
  payload : framed.file.payload = other.file.payload
  unpackedLength : framed.file.unpackedLength = other.file.unpackedLength
  compressed : framed.file.compressed = other.file.compressed
  flipCompression : framed.file.flipCompression = other.file.flipCompression
  blob : framed.blob = other.blob

theorem FramedFile.Alike.storedLength {framed other : FramedFile} (alike : framed.Alike other) :
    framed.storedLength = other.storedLength := by
  rw [FramedFile.storedLength, FramedFile.storedLength, alike.payload, alike.blob,
    alike.compressed]

structure FramedGroup.Alike (group other : FramedGroup) : Prop where
  hash : group.hash = other.hash
  nameBytes : group.nameBytes = other.nameBytes
  files : List.Forall₂ FramedFile.Alike group.files other.files

theorem word32_yields (archive other : String) (value : Nat) :
    Yields (word32 archive value) (word32 other value) :=
  Yields.ite id

namespace Builder

/-- Builders whose archives have the same header. -/
structure Alike (builder other : Builder) : Prop where
  version : builder.version = other.version
  flags : builder.flags = other.flags
  fileFlags : builder.fileFlags = other.fileFlags
  count : builder.files.length = other.files.length

namespace Alike

variable {builder other : Builder} (alike : builder.Alike other)

include alike

theorem blockLength {group counterpart : FramedGroup} (same : group.Alike counterpart) :
    builder.blockLength group = other.blockLength counterpart := by
  rw [Builder.blockLength, Builder.blockLength, folderName, folderName, alike.flags,
    same.nameBytes, same.files.length_eq]

theorem fileNames {groups others : List FramedGroup}
    (same : List.Forall₂ FramedGroup.Alike groups others) :
    builder.fileNames groups = other.fileNames others := by
  refine flatMap_eq_of_forall₂ same fun group counterpart groupSame =>
    flatMap_eq_of_forall₂ groupSame.files fun framed copy framedSame => ?_
  rw [fileName, fileName, alike.version, framedSame.name]

theorem folderRecords {groups others : List FramedGroup}
    (same : List.Forall₂ FramedGroup.Alike groups others) (offset : Nat) :
    Yields (builder.folderRecords offset groups) (other.folderRecords offset others) := by
  induction same generalizing offset with
  | nil => exact Yields.refl _
  | cons first _ ih =>
      rw [Builder.folderRecords, Builder.folderRecords, alike.version, first.hash,
        first.files.length_eq, alike.blockLength first]
      dsimp only
      cases other.version with
      | sse => exact (Yields.refl _).bind fun _ => (ih _).bind fun _ => Yields.refl _
      | tes4 | fo3 =>
          exact (word32_yields _ _ _).bind fun _ => (Yields.refl _).bind fun _ =>
            (ih _).bind fun _ => Yields.refl _

omit alike in
theorem fileRecord (builder other : Builder) {framed copy : FramedFile}
    (same : framed.Alike copy) (offset : Nat) :
    Yields (builder.fileRecord offset framed) (other.fileRecord offset copy) := by
  unfold Builder.fileRecord
  rw [same.storedLength, same.hash, same.flipCompression]
  dsimp only
  split
  · exact Yields.of_error _ _
  · exact (word32_yields _ _ _).bind fun _ => Yields.refl _

omit alike in
theorem fileRecords (builder other : Builder) {files copies : List FramedFile}
    (same : List.Forall₂ FramedFile.Alike files copies) (offset : Nat) :
    Yields (builder.fileRecords offset files) (other.fileRecords offset copies) := by
  induction same generalizing offset with
  | nil => exact Yields.refl _
  | cons first _ ih =>
      rw [Builder.fileRecords, Builder.fileRecords, first.storedLength]
      exact (fileRecord builder other first offset).bind fun _ =>
        (ih _).bind fun _ => Yields.refl _

theorem folderBlocks {groups others : List FramedGroup}
    (same : List.Forall₂ FramedGroup.Alike groups others) (offset : Nat) :
    Yields (builder.folderBlocks offset groups) (other.folderBlocks offset others) := by
  induction same generalizing offset with
  | nil => exact Yields.refl _
  | cons first _ ih =>
      rw [Builder.folderBlocks, Builder.folderBlocks, folderName, folderName, alike.flags,
        first.nameBytes]
      exact (fileRecords builder other first.files offset).bind fun _ =>
        (ih _).bind fun _ => Yields.refl _

omit alike in
theorem fileData (builder other : Builder) {framed copy : FramedFile}
    (same : framed.Alike copy) : Yields (builder.fileData framed) (other.fileData copy) := by
  unfold Builder.fileData
  rw [same.compressed, same.unpackedLength, same.blob, same.payload]
  split
  · exact (word32_yields _ _ _).bind fun _ => Yields.refl _
  · exact Yields.refl _

theorem header {groups others : List FramedGroup}
    (same : List.Forall₂ FramedGroup.Alike groups others) :
    Yields (builder.header groups) (other.header others) := by
  have names : (groups.foldr (fun group total => group.nameBytes.length - 1 + total) 0) =
      others.foldr (fun group total => group.nameBytes.length - 1 + total) 0 := by
    induction same with
    | nil => rfl
    | cons first _ ih => rw [List.foldr_cons, List.foldr_cons, first.nameBytes, ih]
  unfold Builder.header
  rw [same.length_eq, alike.count, names, alike.fileNames same, alike.version, alike.flags,
    alike.fileFlags]
  exact (word32_yields _ _ _).bind fun _ => (word32_yields _ _ _).bind fun _ =>
    (word32_yields _ _ _).bind fun _ => (word32_yields _ _ _).bind fun _ => Yields.refl _

theorem write {groups others : List FramedGroup}
    (same : List.Forall₂ FramedGroup.Alike groups others) :
    Yields (builder.write groups) (other.write others) := by
  have blocks : (groups.foldr (fun group total => builder.blockLength group + total) 0) =
      others.foldr (fun group total => other.blockLength group + total) 0 := by
    induction same with
    | nil => rfl
    | cons first _ ih => rw [List.foldr_cons, List.foldr_cons, alike.blockLength first, ih]
  have files : List.Forall₂ FramedFile.Alike (groups.flatMap FramedGroup.files)
      (others.flatMap FramedGroup.files) :=
    List.rel_flatMap same fun _ _ first => first.files
  unfold Builder.write
  dsimp only
  rw [same.length_eq, blocks, alike.fileNames same, alike.version, alike.flags]
  exact (alike.header same).bind fun _ => (alike.folderRecords same _).bind fun _ =>
    (alike.folderBlocks same _).bind fun _ =>
      (Yields.mapM files fun _ _ => fileData builder other).bind fun _ => Yields.refl _

end Alike
end Builder
end Tes4
end GameArchive
