import GameArchive.Bethesda.Builder
import GameArchive.Proofs.Ba2.RoundTrip
import GameArchive.Proofs.Ba2.Truncation
import GameArchive.Proofs.Tes3.Truncation
import GameArchive.Proofs.Tes4.Truncation

/-!
# Cut archives

Whatever layout an archive was built in, its beginning is not taken for an archive: either it is
refused on opening, or its entries cannot be listed.
-/

namespace GameArchive
namespace Bethesda

/-- The layout that a builder writes. -/
def Builder.kind : Builder → ContainerKind
  | tes4 _ => .bsa
  | tes3 _ => .tes3
  | ba2 _ => .ba2

/-- A beginning of an archive that can be opened and listed is all of it. -/
theorem Builder.tail_of_files [Codecs] {builder : Builder}
    {arrange : List Tes4.Group → List Tes4.Group} {front tail : Bytes} {name : String}
    {archive : Archive} {files : List File}
    (arranged : ∀ groups, (arrange groups).Perm groups)
    (built : builder.buildArranged arrange = .ok (front ++ tail))
    (addressable : builder.kind = .ba2 → (front ++ tail).length ≤ Stream.memoryLimit.toNat)
    (opened : Archive.openAs builder.kind ⟨name, front⟩ = .ok archive)
    (listed : archive.files = .ok files) : tail = [] := by
  cases builder with
  | tes4 builder =>
      obtain ⟨archive, openedOk, rfl⟩ := Outcome.map_eq_ok_iff.mp opened
      obtain ⟨files, listedOk, -⟩ := Outcome.map_eq_ok_iff.mp listed
      exact Tes4.Builder.tail_of_files arranged built openedOk listedOk
  | tes3 builder =>
      obtain ⟨archive, openedOk, -⟩ := Outcome.map_eq_ok_iff.mp opened
      obtain ⟨whole, writable⟩ := Tes3.Builder.build_eq_ok built
      exact Tes3.Builder.tail_of_open writable whole openedOk
  | ba2 builder =>
      obtain ⟨archive, openedOk, -⟩ := Outcome.map_eq_ok_iff.mp opened
      obtain ⟨whole, writable⟩ := Ba2.Builder.build_eq_ok built
      have fitsWord : builder.image.length < UInt64.size := by
        rw [← whole]
        exact Nat.lt_succ_of_le (addressable rfl)
      exact Ba2.Builder.tail_of_open writable fitsWord whole openedOk

/-- No beginning of an archive that was built is opened and listed.  The offsets of a BA2 are
positions in a stream, and no stream is longer than its greatest position. -/
theorem not_listed_of_prefix [Codecs] {builder : Builder}
    {arrange : List Tes4.Group → List Tes4.Group} {bytes front : Bytes} (name : String)
    (arranged : ∀ groups, (arrange groups).Perm groups)
    (built : builder.buildArranged arrange = .ok bytes)
    (addressable : builder.kind = .ba2 → bytes.length ≤ Stream.memoryLimit.toNat)
    (begins : front <+: bytes) (cut : front ≠ bytes) :
    ∃ failure, (Archive.openAs builder.kind ⟨name, front⟩ >>= Archive.files) =
      .error failure := by
  obtain ⟨tail, rfl⟩ := begins
  cases outcome : Archive.openAs builder.kind ⟨name, front⟩ >>= Archive.files with
  | error failure => exact ⟨failure, rfl⟩
  | ok files =>
      obtain ⟨archive, opened, listed⟩ := Outcome.bind_eq_ok_iff.mp outcome
      have nothing := Builder.tail_of_files arranged built addressable opened listed
      exact absurd (by rw [nothing, List.append_nil]) cut

/-- The last byte of an archive belongs to its table of names. -/
theorem not_listed_withoutLastByte :
    ∃ bytes failure,
      (Builder.ba2 ((⟨"sample.ba2", Ba2.sampleState, []⟩ : Ba2.Builder).addAll
        Ba2.sampleFiles)).buildArranged id = .ok bytes ∧
      (Archive.openAs .ba2 ⟨"cut.ba2", bytes.dropLast⟩ >>= Archive.files) = .error failure := by
  let builder : Ba2.Builder := ⟨"sample.ba2", Ba2.sampleState, []⟩
  let finished : Ba2.Builder := builder.addAll Ba2.sampleFiles
  have sorted : finished.sortedFiles = finished.files := List.mergeSort_of_pairwise (by decide)
  have facts : finished.build.toOption.any fun bytes =>
      bytes.length ≤ Stream.memoryLimit.toNat ∧ bytes.dropLast ≠ bytes := by
    rw [Ba2.Builder.build, sorted]
    decide +kernel
  cases built : finished.build with
  | error failure =>
      rw [built] at facts
      cases facts
  | ok bytes =>
      rw [built] at facts
      obtain ⟨short, cut⟩ := of_decide_eq_true facts
      have whole : (Builder.ba2 finished).buildArranged id = .ok bytes := built
      obtain ⟨failure, failed⟩ := not_listed_of_prefix "cut.ba2" List.Perm.refl whole
        (fun _ => short) (List.dropLast_prefix bytes) cut
      exact ⟨bytes, failure, built, failed⟩

end Bethesda
end GameArchive
