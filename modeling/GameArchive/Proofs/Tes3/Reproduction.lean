import GameArchive.Proofs.Bethesda.Rebuild
import GameArchive.Proofs.Repetition
import GameArchive.Proofs.Tes3.RoundTrip

/-!
# Rebuilding a Morrowind archive that was built

What is written of a file are its name, its hashes and its contents.  An archive that was built
shows all three of each file if names are read as they were written, and it shows the files in the
order in which they are written, so that rebuilding it writes the same bytes.
-/

namespace GameArchive
namespace Tes3

open Outcome (Yields)

theorem word32_yields (archive other : String) (value : Nat) :
    Yields (word32 archive value) (word32 other value) :=
  Yields.ite id

namespace PendingFile

/-- Files of which the same is written. -/
structure Alike (file other : PendingFile) : Prop where
  name : file.name = other.name
  hashes : file.hashes = other.hashes
  contents : file.contents = other.contents

theorem Alike.entry {file other : PendingFile} (alike : file.Alike other)
    (archive otherArchive : String) (dataOffset nameOffset : Nat) :
    Yields (file.entry archive dataOffset nameOffset)
      (other.entry otherArchive dataOffset nameOffset) := by
  unfold PendingFile.entry
  rw [alike.contents]
  exact (word32_yields _ _ _).bind fun _ => (word32_yields _ _ _).bind fun _ =>
    (word32_yields _ _ _).bind fun _ => Yields.refl _

end PendingFile

theorem entries_yields {files others : List PendingFile}
    (alike : List.Forall₂ PendingFile.Alike files others) (archive otherArchive : String)
    (dataOffset nameOffset : Nat) :
    Yields (entries archive dataOffset nameOffset files)
      (entries otherArchive dataOffset nameOffset others) := by
  induction alike generalizing dataOffset nameOffset with
  | nil => exact Yields.refl _
  | cons first _ ih =>
      rw [entries, entries, first.contents, first.name]
      exact (first.entry archive otherArchive dataOffset nameOffset).bind fun _ =>
        (ih _ _).bind fun _ => Yields.refl _

namespace Builder

variable {builder other : Builder}

/-- Builders whose files are alike finish the same archive. -/
theorem build_yields (version : builder.versionNumber = other.versionNumber)
    (alike : List.Forall₂ PendingFile.Alike builder.sortedFiles other.sortedFiles) :
    Yields builder.build other.build := by
  unfold build
  dsimp only
  rw [version, alike.length_eq,
    flatMap_eq_of_forall₂ alike fun _ _ same => same.name,
    flatMap_eq_of_forall₂ alike fun _ _ same => same.hashes,
    flatMap_eq_of_forall₂ alike fun _ _ same => same.contents]
  exact (entries_yields alike _ _ 0 0).bind fun _ => (word32_yields _ _ _).bind fun _ =>
    (word32_yields _ _ _).bind fun _ => Yields.refl _

/-- A builder whose paths are read as they were added. -/
structure Legible (builder : Builder) : Prop where
  noZero : ∀ file ∈ builder.files, '\x00' ∉ file.state.path.toList
  survives : ∀ file ∈ builder.files,
    encoding.decode (encoding.encode file.state.path) = file.state.path

/-- An archive that was built is opened only as the listing of its builder. -/
theorem open_built {name : String} {bytes : Bytes} {opened : Archive}
    (built : builder.build = .ok bytes) (openedOk : Archive.open ⟨name, bytes⟩ = .ok opened) :
    bytes = builder.image ∧ builder.Writable ∧
      opened = ⟨⟨name, builder.image⟩, builder.shownState, builder.listing⟩ := by
  obtain ⟨rfl, writable⟩ := build_eq_ok built
  refine ⟨rfl, writable, ?_⟩
  by_cases known : builder.versionNumber = Tes3.versionNumber
  · rw [open_image name known writable] at openedOk
    exact (Except.ok.inj openedOk).symm
  · rw [open_image_unknown name known writable.few] at openedOk
    cases openedOk

theorem index_of_listing {position : Nat} {file : FileState}
    (there : builder.listing[position]? = some file) : file.index = position := by
  rw [getElem?_listing] at there
  obtain ⟨pending, -, rfl⟩ := Option.map_eq_some_iff.mp there
  rfl

variable [Codecs]

/-- The builder to which the entries of an opened archive were added. -/
def restored (archive : Archive) : Builder where
  archive := archive.source.name
  versionNumber := archive.state.versionNumber
  files := archive.files.map fun file => ⟨file, (Bethesda.File.tes3 archive file).contentsOf⟩

theorem foldl_add (archive : Archive) :
    archive.files.foldl (fun builder file =>
        builder.add file (Bethesda.File.tes3 archive file).contentsOf)
      (create archive.source.name archive.state) = restored archive := by
  have added := addAll_eq (create archive.source.name archive.state)
    (archive.files.map fun file => (file, (Bethesda.File.tes3 archive file).contentsOf))
  rw [addAll, List.foldl_map, List.map_map] at added
  exact added

theorem alike_of_shows {archive : Archive} {position : Nat} {file : PendingFile}
    {entry : FileState} (shows_ : Shows archive position file.state file.contents entry) :
    file.Alike ⟨entry, (Bethesda.File.tes3 archive entry).contentsOf⟩ where
  name := by rw [PendingFile.name, PendingFile.name, shows_.path]
  hashes := by rw [PendingFile.hashes, PendingFile.hashes, shows_.hash1, shows_.hash2]
  contents := by
    have read : (Bethesda.File.tes3 archive entry).contents = .ok file.contents := shows_.readable
    exact (Bethesda.File.contentsOf_eq read).symm

/-- Rebuilding an archive that was built reproduces it. -/
theorem rebuild_built {name : String} {arrange : List Tes4.Group → List Tes4.Group}
    {bytes : Bytes} {opened : Archive} (built : builder.build = .ok bytes)
    (openedOk : Archive.open ⟨name, bytes⟩ = .ok opened) (legible : builder.Legible) :
    (Bethesda.Archive.tes3 opened).rebuildArranged arrange =
      .ok (builder.files.length, bytes) := by
  obtain ⟨bytesEq, writable, openedEq⟩ := open_built built openedOk
  have listed : opened.files = builder.listing := by rw [openedEq]
  have seen : List.Forall₂ (fun file entry => ∃ position,
      Shows opened position file.state file.contents entry)
      builder.sortedFiles opened.files := by
    rw [listed]
    refine forall₂_of_getElem? length_listing.symm fun position file there => ?_
    have among := List.mem_mergeSort.mp (List.mem_of_getElem? there)
    obtain ⟨entry, entryThere, shows_⟩ := builder.shows_listing name writable there
      (legible.noZero file among) (legible.survives file among)
    rw [openedEq]
    exact ⟨entry, entryThere, position, shows_⟩
  have readable : ∀ entry ∈ opened.files, ∃ contents,
      (Bethesda.File.tes3 opened entry).contents = .ok contents := by
    intro entry member
    obtain ⟨file, -, position, shows_⟩ := exists_of_forall₂ seen member
    exact ⟨file.contents, shows_.readable⟩
  have sorted : (restored opened).sortedFiles = (restored opened).files := by
    have positions : (restored opened).files.Pairwise fun first second =>
        first.state.index ≤ second.state.index := by
      rw [restored, listed, List.pairwise_map]
      exact pairwise_of_getElem? fun _ _ => index_of_listing
    exact List.mergeSort_of_pairwise (positions.imp decide_eq_true)
  have alike : List.Forall₂ PendingFile.Alike builder.sortedFiles
      (restored opened).sortedFiles := by
    rw [sorted, restored, List.forall₂_map_right_iff]
    exact seen.imp fun file entry ⟨position, shows_⟩ => alike_of_shows shows_
  have version : builder.versionNumber = (restored opened).versionNumber := by
    rw [openedEq]
    rfl
  have rebuilt : (restored opened).build = .ok bytes := build_yields version alike bytes built
  have count : opened.files.length = builder.files.length := by
    rw [listed, length_listing, sortedFiles, List.length_mergeSort]
  rw [← count]
  rw [← foldl_add opened] at rebuilt
  exact Bethesda.Archive.rebuildArranged_of_readable rfl rfl readable (fun _ _ => rfl) rebuilt

end Builder
end Tes3
end GameArchive
