import GameArchive.Proofs.Ba2.RoundTrip
import GameArchive.Proofs.Bethesda.Rebuild
import GameArchive.Proofs.Repetition
import GameArchive.Proofs.Text.CanonicalUtf8
import Mathlib.Data.List.TakeWhile

/-!
# Rebuilding a BA2 archive that was built

The four bytes of an extension are shown as text without the zero characters at its end.  They
come back from that text if they are UTF-8; malformed bytes are shown as replacement characters,
which are written otherwise.  Everything else that is written of a file is shown as it is, and a
path is written only where there is a table of names.
-/

namespace GameArchive
namespace Ba2

open Outcome (Yields)

theorem word32_yields (archive other : String) (value : Nat) :
    Yields (word32 archive value) (word32 other value) :=
  Yields.ite id

theorem flatMap_replicate_zero (count : Nat) :
    (List.replicate count '\x00').flatMap String.utf8EncodeChar = Bytes.zeros count := by
  induction count with
  | zero => rfl
  | succ count ih =>
      rw [Bytes.zeros, List.replicate_succ, List.replicate_succ, List.flatMap_cons, ih]
      rfl

/-- Only zeros at the end of a text are lost when it is shown as an extension. -/
theorem exists_zeros_extensionText (text : String) :
    ∃ count, Utf8.encode text =
      Utf8.encode (extensionText (Utf8.encode text)) ++ Bytes.zeros count := by
  let backwards := text.toList.reverse
  let count := (backwards.takeWhile (· == '\x00')).length
  have zeros : backwards.takeWhile (· == '\x00') = List.replicate count '\x00' :=
    List.eq_replicate_of_mem fun character member => by simpa using List.mem_takeWhile_imp member
  have shown : (extensionText (Utf8.encode text)).toList =
      (backwards.dropWhile (· == '\x00')).reverse := by
    rw [extensionText, Utf8.decodeReplacing_encode, String.toList_ofList]
  have split : text.toList =
      (extensionText (Utf8.encode text)).toList ++ List.replicate count '\x00' := by
    calc text.toList
      _ = (backwards.takeWhile (· == '\x00') ++ backwards.dropWhile (· == '\x00')).reverse := by
          rw [List.takeWhile_append_dropWhile, List.reverse_reverse]
      _ = (extensionText (Utf8.encode text)).toList ++ List.replicate count '\x00' := by
          rw [List.reverse_append, shown, zeros, List.reverse_replicate]
  refine ⟨count, ?_⟩
  calc Utf8.encode text
    _ = Utf8.encode (extensionText (Utf8.encode text)) ++
        (List.replicate count '\x00').flatMap String.utf8EncodeChar := by
      conv_lhs => rw [Utf8.encode, split, List.flatMap_append]
      rfl
    _ = Utf8.encode (extensionText (Utf8.encode text)) ++ Bytes.zeros count := by
      rw [flatMap_replicate_zero]

/-- The bytes of an extension that are UTF-8 come back from its text. -/
theorem extensionBytes_extensionText {bytes : Bytes} {text : String} (four : bytes.length = 4)
    (valid : Utf8.decode bytes = .ok text) : extensionBytes (extensionText bytes) = bytes := by
  rw [Utf8.decode_eq_ok_iff] at valid
  subst valid
  obtain ⟨count, split⟩ := exists_zeros_extensionText text
  have lengths := congrArg List.length split
  rw [four, List.length_append, Bytes.length_zeros] at lengths
  have short : (Utf8.encode (extensionText (Utf8.encode text))).length ≤ 4 := by omega
  have missing : 4 - (Utf8.encode (extensionText (Utf8.encode text))).length = count := by omega
  unfold extensionBytes
  dsimp only
  rw [List.take_of_length_le short, missing, ← split]

namespace PendingFile

/-- Files of which the same is written, their names only if names are written. -/
structure Alike (named : Bool) (file other : PendingFile) : Prop where
  name : named → encoding.encode file.state.path = encoding.encode other.state.path
  nameHash : file.state.nameHash = other.state.nameHash
  extension : extensionBytes file.state.extension = extensionBytes other.state.extension
  dirHash : file.state.dirHash = other.state.dirHash
  flags : file.state.flags = other.state.flags
  align : file.state.align = other.state.align
  compressed : file.state.compressed = other.state.compressed
  contents : file.contents = other.contents

end PendingFile

namespace Builder

variable {builder other : Builder} {file counterpart : PendingFile} {named : Bool}

theorem name_yields (alike : file.Alike true counterpart) :
    Yields (builder.name file) (other.name counterpart) := by
  unfold name
  rw [alike.name rfl]
  exact Yields.ite id

theorem extras_stored (same : other.state = builder.state.stored) :
    builder.extras = other.extras := by
  unfold extras
  rw [same, State.stored]
  by_cases two : builder.state.version = 2
  · simp [two]
  · by_cases three : builder.state.version = 3
    · simp [three]
    · simp [two, three]

theorem create_eq (name : String) {state : State} (magicEq : state.magic = magicText)
    (kind : Utf8.encode state.kind = generalKind) (known : isKnownVersion state.version) :
    create name state = .ok ⟨name, state, []⟩ := by
  simp [create, magicEq, kind, known]

variable [Codecs]

theorem payload_eq_of_alike (packing : builder.state.packing = other.state.packing)
    (alike : file.Alike named counterpart) :
    builder.payload file = other.payload counterpart := by
  rw [payload, payload, packing, alike.compressed, alike.contents]

theorem record_yields (packing : builder.state.packing = other.state.packing)
    (alike : file.Alike named counterpart) (offset : Nat) :
    Yields (builder.record offset file) (other.record offset counterpart) := by
  unfold record
  rw [payload_eq_of_alike packing alike, alike.contents, alike.compressed, alike.nameHash,
    alike.extension, alike.dirHash, alike.flags, alike.align]
  refine (word32_yields _ _ _).bind fun unpackedSize => ?_
  split
  · exact (word32_yields _ _ _).bind fun _ => Yields.refl _
  · exact Yields.refl _

theorem records_yields (packing : builder.state.packing = other.state.packing)
    {files others : List PendingFile}
    (alike : List.Forall₂ (PendingFile.Alike named) files others) (offset : Nat) :
    Yields (builder.records offset files) (other.records offset others) := by
  induction alike generalizing offset with
  | nil => exact Yields.refl _
  | cons first _ ih =>
      rw [records, records, payload_eq_of_alike packing first]
      exact (record_yields packing first offset).bind fun _ => (ih _).bind fun _ => Yields.refl _

/-- Builders whose files are alike finish the same archive, if the state of the other is what an
archive stores of a state. -/
theorem build_yields (same : other.state = builder.state.stored)
    (alike : List.Forall₂ (PendingFile.Alike builder.state.hasNameTable) builder.sortedFiles
      other.sortedFiles) :
    Yields builder.build other.build := by
  have packing : builder.state.packing = other.state.packing := by
    rw [same, State.packing_stored]
  have version : builder.state.version = other.state.version := by rw [same]; rfl
  have table : builder.state.hasNameTable = other.state.hasNameTable := by rw [same]; rfl
  unfold build
  dsimp only
  rw [version, alike.length_eq, extras_stored same,
    flatMap_eq_of_forall₂ alike fun _ _ first => payload_eq_of_alike packing first]
  refine (records_yields packing alike _).bind fun _ => (word32_yields _ _ _).bind fun _ => ?_
  cases named : builder.state.hasNameTable with
  | true =>
      rw [named] at alike table
      rw [← table]
      exact (Yields.mapM alike fun _ _ => name_yields).bind fun _ => Yields.refl _
  | false =>
      rw [named] at table
      rw [← table]
      exact Yields.refl _

/-- A builder whose names and extensions are read as they were added. -/
structure Legible (builder : Builder) : Prop where
  survives : builder.state.hasNameTable → ∀ file ∈ builder.files,
    encoding.decode (encoding.encode file.state.path) = file.state.path
  valid : ∀ file ∈ builder.files, ∃ text,
    Utf8.decode (extensionBytes file.state.extension) = .ok text

/-- The builder to which the entries of an opened archive were added. -/
def restored (archive : Archive) : Builder where
  archive := archive.source.name
  state := archive.state
  files := archive.files.map fun file =>
    ⟨file.state, (Bethesda.File.ba2 archive file).contentsOf⟩

theorem foldl_add (archive : Archive) :
    archive.files.foldl (fun builder file =>
        builder.add file.state (Bethesda.File.ba2 archive file).contentsOf)
      ⟨archive.source.name, archive.state, []⟩ = restored archive := by
  have added := addAll_eq ⟨archive.source.name, archive.state, []⟩
    (archive.files.map fun file => (file.state, (Bethesda.File.ba2 archive file).contentsOf))
  rw [addAll, List.foldl_map, List.map_map] at added
  exact added

/-- What is read of the entry for a file is alike to the file. -/
theorem alike_shownFile (legible : builder.Legible) {archive : Archive} {file : PendingFile}
    (member : file ∈ builder.files) (position offset : Nat)
    (read : archive.contents (builder.shownFile position offset file) = .ok file.contents) :
    file.Alike builder.state.hasNameTable ⟨(builder.shownFile position offset file).state,
      (Bethesda.File.ba2 archive (builder.shownFile position offset file)).contentsOf⟩ where
  name := by
    intro table
    rw [shownFile, shownPath, if_pos table, legible.survives table file member]
  nameHash := rfl
  extension := by
    obtain ⟨text, valid⟩ := legible.valid file member
    exact (extensionBytes_extensionText (length_extensionBytes _) valid).symm
  dirHash := rfl
  flags := rfl
  align := rfl
  compressed := rfl
  contents := by
    have found : (Bethesda.File.ba2 archive (builder.shownFile position offset file)).contents =
        .ok file.contents := read
    exact (Bethesda.File.contentsOf_eq found).symm

/-- Rebuilding an archive that was built reproduces it. -/
theorem rebuild_built {name : String} {arrange : List Tes4.Group → List Tes4.Group}
    {bytes : Bytes} {opened : Archive} (magicEq : builder.state.magic = magicText)
    (kind : Utf8.encode builder.state.kind = generalKind)
    (known : isKnownVersion builder.state.version) (built : builder.build = .ok bytes)
    (openedOk : Archive.open ⟨name, bytes⟩ = .ok opened)
    (addressable : bytes.length ≤ Stream.memoryLimit.toNat)
    (inverts : builder.state.packing.Inverts)
    (nonempty : ∀ contents, builder.state.packing.pack contents ≠ [])
    (legible : builder.Legible) :
    (Bethesda.Archive.ba2 opened).rebuildArranged arrange =
      .ok (builder.files.length, bytes) := by
  obtain ⟨bytesEq, writable⟩ := build_eq_ok built
  rw [bytesEq, open_image name kind magicEq known writable nonempty
    (bytesEq ▸ Nat.lt_succ_of_le addressable), Except.ok.injEq] at openedOk
  have listed : opened.files =
      builder.shownFiles 0 builder.dataStart builder.sortedFiles := by rw [← openedOk]
  have stored : opened.state = builder.state.stored := by rw [← openedOk]
  have seen : List.Forall₂ (fun file entry => file ∈ builder.files ∧ ∃ position offset,
      entry = builder.shownFile position offset file ∧ opened.contents entry = .ok file.contents)
      builder.sortedFiles opened.files := by
    rw [listed]
    refine forall₂_of_getElem? (length_shownFiles _ _ _).symm fun position file there => ?_
    obtain ⟨rest, data⟩ := builder.drop_image there
    have shown := builder.getElem?_shownFiles 0 builder.dataStart builder.sortedFiles position
    rw [there, Nat.zero_add, Option.map_some] at shown
    refine ⟨_, shown, List.mem_mergeSort.mp (List.mem_of_getElem? there), _, _, rfl, ?_⟩
    rw [← openedOk]
    exact contents_shownFile position builder.state.packing_stored data inverts nonempty
  have readable : ∀ entry ∈ opened.files, ∃ contents,
      (Bethesda.File.ba2 opened entry).contents = .ok contents := by
    intro entry member
    obtain ⟨file, -, -, position, offset, -, read⟩ := exists_of_forall₂ seen member
    exact ⟨file.contents, read⟩
  have sorted : (restored opened).sortedFiles = (restored opened).files := by
    have positions : (restored opened).files.Pairwise fun first second =>
        first.state.index ≤ second.state.index := by
      rw [restored, listed, List.pairwise_map]
      apply pairwise_of_getElem?
      intro position entry there
      rw [getElem?_shownFiles] at there
      obtain ⟨file, -, rfl⟩ := Option.map_eq_some_iff.mp there
      exact Nat.zero_add position
    exact List.mergeSort_of_pairwise (positions.imp decide_eq_true)
  have alike : List.Forall₂ (PendingFile.Alike builder.state.hasNameTable) builder.sortedFiles
      (restored opened).sortedFiles := by
    rw [sorted, restored, List.forall₂_map_right_iff]
    refine seen.imp ?_
    rintro file _ ⟨member, position, offset, rfl, read⟩
    exact alike_shownFile legible member position offset read
  have rebuilt : (restored opened).build = .ok bytes := build_yields stored alike bytes built
  have count : opened.files.length = builder.files.length := by
    rw [listed, length_shownFiles, sortedFiles, List.length_mergeSort]
  have created : Bethesda.Builder.create opened.source.name (.ba2 opened.state) =
      .ok (.ba2 ⟨opened.source.name, opened.state, []⟩) := by
    have started : create opened.source.name builder.state.stored =
        .ok ⟨opened.source.name, builder.state.stored, []⟩ := create_eq _ magicEq kind known
    rw [Bethesda.Builder.create, stored, started]
    rfl
  rw [← foldl_add opened] at rebuilt
  rw [← count]
  exact Bethesda.Archive.rebuildArranged_of_readable created rfl readable (fun _ _ => rfl) rebuilt

end Builder
end Ba2
end GameArchive
