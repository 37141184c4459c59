import GameArchive.Bethesda.Builder
import GameArchive.Proofs.Outcome

/-!
# Rebuilding an archive whose entries can be read

A rebuild adds the entries of an archive to a builder of its layout, one after the other.  The
layouts differ in how an entry is added only.
-/

namespace GameArchive
namespace Bethesda

/-- The contents of an entry that can be read. -/
def File.contentsOf [Codecs] (file : File) : Bytes :=
  file.contents.toOption.getD []

theorem File.contentsOf_eq [Codecs] {file : File} {contents : Bytes}
    (read : file.contents = .ok contents) : file.contentsOf = contents := by
  rw [contentsOf, read]
  rfl

section Layout

variable [Codecs] {α β : Type} {wrap : β → Builder} {entry : α → File} {push : β → α → β}

/-- Entries that can be read are added in their order. -/
theorem Builder.addFiles_map (files : List α)
    (readable : ∀ file ∈ files, ∃ contents, (entry file).contents = .ok contents)
    (added : ∀ builder file, (wrap builder).add (entry file).state (entry file).contentsOf =
      .ok (wrap (push builder file)))
    (builder : β) :
    (wrap builder).addFiles (files.map entry) = .ok (wrap (files.foldl push builder)) := by
  induction files generalizing builder with
  | nil => rfl
  | cons file files ih =>
      obtain ⟨contents, read⟩ := readable file (List.mem_cons_self ..)
      have addedFirst := added builder file
      rw [File.contentsOf_eq read] at addedFirst
      rw [List.map_cons, addFiles, read, Outcome.ok_bind, addedFirst, Outcome.ok_bind,
        ih (fun other member => readable other (List.mem_cons_of_mem _ member)), List.foldl_cons]

/-- An archive whose entries can be read is rebuilt into what a builder with them is finished to. -/
theorem Archive.rebuildArranged_of_readable {arrange : List Tes4.Group → List Tes4.Group}
    {archive : Archive} {files : List α} {builder : β} {bytes : Bytes}
    (created : Builder.create archive.name archive.state = .ok (wrap builder))
    (listed : archive.files = .ok (files.map entry))
    (readable : ∀ file ∈ files, ∃ contents, (entry file).contents = .ok contents)
    (added : ∀ builder file, (wrap builder).add (entry file).state (entry file).contentsOf =
      .ok (wrap (push builder file)))
    (built : (wrap (files.foldl push builder)).buildArranged arrange = .ok bytes) :
    archive.rebuildArranged arrange = .ok (files.length, bytes) := by
  rw [rebuildArranged, created, Outcome.ok_bind, listed, Outcome.ok_bind,
    Builder.addFiles_map files readable added, Outcome.ok_bind, built, Outcome.ok_bind,
    List.length_map]
  rfl

end Layout

end Bethesda
end GameArchive
