import GameArchive.Bethesda.Archive
import GameArchive.Proofs.Btar.Grammar
import GameArchive.Proofs.Extension
import GameArchive.Proofs.Stream

/-!
# Signatures and readers

The table of signatures and the readers of the layouts that are read in process look at the first
bytes of a container independently of each other.  They agree: what a reader accepts begins with
the signature of its kind, and the first signature of the table that fits is that one, so that no
other reader accepts it, and the reader that detection chooses is the one that does.

Detection looks at the bytes behind the position of a stream.  It sees the same ones however few of
them each read is granted.
-/

namespace GameArchive

namespace ContainerKind

/-- No signature is longer than the bytes that are looked at. -/
theorem length_signature_le : ∀ entry ∈ signatures, entry.2.length ≤ longestSignature := by
  decide

theorem ofBytes?_take (bytes : Bytes) :
    ofBytes? (bytes.take longestSignature) = ofBytes? bytes := by
  have alike : ∀ entry ∈ signatures,
      entry.2.isPrefixOf (bytes.take longestSignature) = entry.2.isPrefixOf bytes := by
    intro entry member
    rw [Bool.eq_iff_iff, List.isPrefixOf_iff_prefix, List.isPrefixOf_iff_prefix]
    exact List.prefix_take_iff.trans (and_iff_left (length_signature_le entry member))
  rw [ofBytes?, ofBytes?, ← List.head?_filter, ← List.head?_filter, List.filter_congr alike]

/-- Detection sees the bytes at the position of a stream, and leaves the stream as it was. -/
theorem sniff_eq {stream : Stream}
    (straight : stream.position.toNat + longestSignature < UInt64.size) :
    (sniff stream).1 = ofBytes? stream.rest ∧ (sniff stream).2.position = stream.position ∧
      (sniff stream).2.bytes = stream.bytes := by
  obtain ⟨head, kept⟩ := Stream.readFully_eq (Nat.le_refl longestSignature) straight
  refine ⟨?_, rfl, kept⟩
  rw [← ofBytes?_take, ← head]
  rfl

/-- The reader of a kind opens a source.  General containers have no reader of their own. -/
def Accepts (kind : ContainerKind) (source : Source) : Prop :=
  match kind with
  | .btar => ∃ minor, Btar.openHeader source = .ok minor
  | kind => ∃ archive, Bethesda.Archive.openAs kind source = .ok archive

section Readers

variable {source : Source}

theorem tes4_magic {archive : Tes4.Archive} (opened : Tes4.Archive.open source = .ok archive) :
    ∃ rest, source.bytes = Tes4.magic ++ rest := by
  obtain ⟨rest, magicRead, -⟩ := Outcome.bind_eq_ok_iff.mp opened
  exact ⟨rest, readMagic_eq_ok magicRead⟩

theorem ba2_magic {archive : Ba2.Archive} (opened : Ba2.Archive.open source = .ok archive) :
    ∃ rest, source.bytes = Ba2.magic ++ rest := by
  obtain ⟨rest, magicRead, -⟩ := Outcome.bind_eq_ok_iff.mp opened
  exact ⟨rest, readMagic_eq_ok magicRead⟩

/-- The version number of a Morrowind archive is its magic number. -/
theorem tes3_magic {archive : Tes3.Archive} (opened : Tes3.Archive.open source = .ok archive) :
    ∃ rest, source.bytes = Tes3.magic ++ rest := by
  unfold Tes3.Archive.open at opened
  split at opened
  · cases opened
  · next tables read =>
      split at opened
      · cases opened
      · next version =>
          obtain ⟨⟨number, rest⟩, numberRead, further⟩ := Option.bind_eq_some_iff.mp read
          simp only [Option.bind_eq_bind, Option.bind_eq_some_iff] at further
          obtain ⟨_, -, _, -, _, -, _, -, made⟩ := further
          cases made
          have versionEq : number = Tes3.versionNumber := Decidable.not_not.mp version
          rw [Bytes.eq_of_word32? numberRead, versionEq]
          exact ⟨rest, rfl⟩

theorem btar_magic {minor : Nat} (opened : Btar.openHeader source = .ok minor) :
    ∃ rest, source.bytes = Btar.magic ++ rest := by
  obtain ⟨-, rest, row⟩ := Btar.openHeader_eq_ok_iff.mp opened
  exact ⟨_, row⟩

/-- What a reader accepts has the signature of its kind. -/
theorem Accepts.ofBytes?_eq {kind : ContainerKind} (accepted : kind.Accepts source) :
    ofBytes? source.bytes = some kind := by
  cases kind with
  | tes3 =>
      obtain ⟨found, accepted⟩ := accepted
      obtain ⟨archive, opened, -⟩ := Outcome.map_eq_ok_iff.mp accepted
      obtain ⟨rest, row⟩ := tes3_magic opened
      rw [row]
      rfl
  | bsa =>
      obtain ⟨found, accepted⟩ := accepted
      obtain ⟨archive, opened, -⟩ := Outcome.map_eq_ok_iff.mp accepted
      obtain ⟨rest, row⟩ := tes4_magic opened
      rw [row]
      rfl
  | ba2 =>
      obtain ⟨found, accepted⟩ := accepted
      obtain ⟨archive, opened, -⟩ := Outcome.map_eq_ok_iff.mp accepted
      obtain ⟨rest, row⟩ := ba2_magic opened
      rw [row]
      rfl
  | btar =>
      obtain ⟨minor, opened⟩ := accepted
      obtain ⟨rest, row⟩ := btar_magic opened
      rw [row]
      rfl
  | _ =>
      obtain ⟨archive, opened⟩ := accepted
      cases opened

/-- A container that a reader accepts is detected as what it is, wherever it stands in a stream and
however the stream is read, and detection opens it as that reader does. -/
theorem detected_of_accepts {kind : ContainerKind} (accepted : kind.Accepts source) :
    (∀ stream : Stream, stream.rest = source.bytes →
        stream.position.toNat + longestSignature < UInt64.size →
        (sniff stream).1 = some kind ∧ (sniff stream).2.position = stream.position ∧
          (sniff stream).2.bytes = stream.bytes) ∧
      (∀ other : ContainerKind, other.Accepts source → other = kind) ∧
      (kind ≠ .btar → ∃ archive, Bethesda.Archive.openAs kind source = .ok archive ∧
        Bethesda.Archive.openDetected source = .ok archive) := by
  have signature := accepted.ofBytes?_eq
  refine ⟨fun stream shows straight => ?_, fun other alsoAccepted => ?_, fun notBtar => ?_⟩
  · have detected := sniff_eq straight
    rwa [shows, signature] at detected
  · have alsoSigned := alsoAccepted.ofBytes?_eq
    rw [signature] at alsoSigned
    exact (Option.some.inj alsoSigned).symm
  · have straight : (Stream.ofBytes source.bytes).position.toNat + longestSignature <
        UInt64.size := by
      change 0 + longestSignature < UInt64.size
      decide
    have detected : (sniff (Stream.ofBytes source.bytes)).1 = some kind := by
      rw [(sniff_eq straight).1, ← signature]
      rfl
    have opened : ∃ archive, Bethesda.Archive.openAs kind source = .ok archive := by
      cases kind with
      | btar => exact absurd rfl notBtar
      | _ => exact accepted
    obtain ⟨archive, opened⟩ := opened
    refine ⟨archive, opened, ?_⟩
    rw [Bethesda.Archive.openDetected, detected]
    exact opened

/-- A Morrowind archive of one file. -/
def sampleSource : Source where
  name := "b.bsa"
  bytes := [0x00, 0x01, 0x00, 0x00, 0x12, 0x00, 0x00, 0x00, 0x01, 0x00, 0x00, 0x00,
    0x02, 0x00, 0x00, 0x00, 0x00, 0x00, 0x00, 0x00, 0x00, 0x00, 0x00, 0x00,
    0x61, 0x2E, 0x6E, 0x69, 0x66, 0x00, 0x11, 0x00, 0x00, 0x00, 0x22, 0x00, 0x00, 0x00, 0x01, 0x02]

/-- The archive behind bytes that begin with another signature, in a stream that grants few bytes
at first. -/
def sampleStream : Stream where
  bytes := Ba2.magic ++ sampleSource.bytes
  position := 4
  grants := [1, 2, 1]
  limit := Stream.fileLimit

theorem detected_of_accepts_behindOthers :
    tes3.Accepts sampleSource ∧ sampleStream.rest = sampleSource.bytes ∧
      ((sniff sampleStream).1 = some tes3 ∧ (sniff sampleStream).2.position = 4 ∧
        (sniff sampleStream).2.bytes = sampleStream.bytes) ∧
      ¬ ba2.Accepts sampleSource ∧
      ∃ archive, Bethesda.Archive.openAs tes3 sampleSource = .ok archive ∧
        Bethesda.Archive.openDetected sampleSource = .ok archive := by
  have accepted : tes3.Accepts sampleSource := Outcome.exists_ok_of_isOk (by decide +kernel)
  obtain ⟨detected, alone, opened⟩ := detected_of_accepts accepted
  exact ⟨accepted, rfl, detected sampleStream rfl (by decide),
    fun others => absurd (alone ba2 others) (by decide), opened (by decide)⟩

end Readers
end ContainerKind
end GameArchive
