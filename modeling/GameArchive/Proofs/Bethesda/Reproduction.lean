import GameArchive.Proofs.Ba2.Reproduction
import GameArchive.Proofs.Bethesda.Acceptance
import GameArchive.Proofs.Tes3.Reproduction
import GameArchive.Proofs.Tes4.Reproduction

/-!
# Archives that are built again

An archive that was built is rebuilt byte for byte, in each of the three layouts, if everything
that it stores is shown as it is stored.  The path before the data of an entry is the exception:
no reader shows it, and it may spell its folder otherwise than the directory does.
-/

namespace GameArchive
namespace Bethesda

/-- How the compressed entries of an archive are packed. -/
def State.compression : State → Compression
  | tes4 state => state.version.compression
  | tes3 _ => .stored
  | ba2 state => state.packing

namespace Builder

/-- A builder whose archive shows the names that it stores. -/
def Legible : Builder → Prop
  | tes4 builder => builder.Legible
  | tes3 builder => builder.Legible
  | ba2 builder => builder.Legible

def SpelledAlike : Builder → Prop
  | tes4 builder => builder.SpelledAlike
  | tes3 _ | ba2 _ => True

variable [Codecs]

def Filled : Builder → Prop
  | tes4 builder => builder.Filled
  | tes3 _ | ba2 _ => True

theorem filled_add {builder after : Builder} {state : FileState} {contents : Bytes}
    (filled : builder.Filled) (added : builder.add state contents = .ok after) :
    after.Filled := by
  cases builder <;> cases state <;> cases added
  case tes4.tes4 builder state =>
    intro file member
    rcases List.mem_append.mp member with old | new
    · exact filled file old
    · exact ⟨state, contents, List.mem_singleton.mp new⟩
  all_goals trivial

theorem filled_offerAll {builder : Builder} (filled : builder.Filled) (offers : List Offer) :
    (builder.offerAll offers).1.Filled := by
  induction offers generalizing builder with
  | nil => exact filled
  | cons offered offers ih =>
      rw [offerAll]
      split
      case h_1 => exact ih filled
      case h_2 next taken =>
        unfold offer at taken
        split at taken
        · exact ih (filled_add filled taken)
        · split at taken <;> cases taken

theorem filled_of_create {archive : String} {state : State} {builder : Builder}
    (created : create archive state = .ok builder) : builder.Filled := by
  have empty := count_of_create created
  cases builder with
  | tes4 builder =>
      intro file member
      rw [List.eq_nil_of_length_eq_zero empty] at member
      cases member
  | tes3 builder => trivial
  | ba2 builder => trivial

end Builder

section Rebuilt

variable [Codecs] {archive name : String} {state : State} {builder finished : Builder}
  {arrange rearrange : List Tes4.Group → List Tes4.Group} {bytes : Bytes} {opened : Archive}

theorem rebuilt_of_filled (created : Builder.create archive state = .ok builder)
    (same : finished.cleared = builder.cleared) (filled : finished.Filled)
    (arranged : ∀ groups, (arrange groups).Perm groups)
    (rearranged : ∀ groups, (rearrange groups).Perm groups)
    (built : finished.buildArranged arrange = .ok bytes)
    (reopened : Archive.openAs state.kind ⟨name, bytes⟩ = .ok opened)
    (inverts : state.compression.Inverts)
    (addressable : state.kind = .ba2 → bytes.length ≤ Stream.memoryLimit.toNat)
    (nonempty : state.kind = .ba2 → ∀ contents, state.compression.pack contents ≠ [])
    (legible : finished.Legible) (spelledAlike : finished.SpelledAlike) :
    opened.rebuildArranged rearrange = .ok (finished.count, bytes) := by
  cases state with
  | tes4 state =>
      obtain ⟨started, startedOk, rfl⟩ := Outcome.map_eq_ok_iff.mp created
      obtain ⟨archive, openedOk, rfl⟩ := Outcome.map_eq_ok_iff.mp reopened
      obtain ⟨-, rfl⟩ := Tes4.Builder.create_eq_ok startedOk
      cases finished with
      | tes4 finished =>
          have version : finished.version = state.version :=
            congrArg Tes4.Builder.version (Builder.tes4.inj same)
          change state.version.compression.Inverts at inverts
          rw [← version] at inverts
          exact Tes4.Builder.rebuild_built filled legible spelledAlike arranged rearranged inverts
            built openedOk
      | tes3 finished => cases same
      | ba2 finished => cases same
  | tes3 state =>
      cases created
      obtain ⟨archive, openedOk, rfl⟩ := Outcome.map_eq_ok_iff.mp reopened
      cases finished with
      | tes4 finished => cases same
      | tes3 finished => exact Tes3.Builder.rebuild_built built openedOk legible
      | ba2 finished => cases same
  | ba2 state =>
      obtain ⟨started, startedOk, rfl⟩ := Outcome.map_eq_ok_iff.mp created
      obtain ⟨archive, openedOk, rfl⟩ := Outcome.map_eq_ok_iff.mp reopened
      obtain ⟨magicEq, kind, known, rfl⟩ := Ba2.Builder.create_eq_ok startedOk
      cases finished with
      | tes4 finished => cases same
      | tes3 finished => cases same
      | ba2 finished =>
          obtain rfl : finished.state = state :=
            congrArg Ba2.Builder.state (Builder.ba2.inj same)
          exact Ba2.Builder.rebuild_built magicEq kind known built openedOk (addressable rfl)
            inverts (nonempty rfl) legible

end Rebuilt

/-- An archive that a builder finishes and a reader opens is rebuilt byte for byte. -/
theorem rebuild_reproduces [Codecs] {archive : String} {state : State} {builder : Builder}
    {arrange rearrange : List Tes4.Group → List Tes4.Group} {bytes : Bytes} {opened : Archive}
    (name : String) (offers : List Offer)
    (created : Builder.create archive state = .ok builder)
    (arranged : ∀ groups, (arrange groups).Perm groups)
    (rearranged : ∀ groups, (rearrange groups).Perm groups)
    (built : (builder.offerAll offers).1.buildArranged arrange = .ok bytes)
    (reopened : Archive.openAs state.kind ⟨name, bytes⟩ = .ok opened)
    (inverts : state.compression.Inverts)
    (addressable : state.kind = .ba2 → bytes.length ≤ Stream.memoryLimit.toNat)
    (nonempty : state.kind = .ba2 → ∀ contents, state.compression.pack contents ≠ [])
    (legible : (builder.offerAll offers).1.Legible)
    (spelledAlike : (builder.offerAll offers).1.SpelledAlike) :
    opened.rebuildArranged rearrange = .ok ((builder.offerAll offers).2, bytes) := by
  obtain ⟨same, countEq⟩ := builder.offerAll_spec offers
  rw [Builder.count_of_create created, Nat.zero_add] at countEq
  have filled := Builder.filled_offerAll (Builder.filled_of_create created) offers
  rw [← countEq]
  exact rebuilt_of_filled created same filled arranged rearranged built reopened inverts
    addressable nonempty legible spelledAlike

/-- Three files in two folders, of which the first is not compressed, and one of another layout. -/
def legibleOffers : List Offer :=
  [⟨.tes4 ⟨"readme.txt", 0, true⟩, .ok [0x68, 0x69]⟩,
    ⟨.tes4 ⟨"Meshes/axe.nif", 0, false⟩, .ok [1, 2, 3, 1, 2, 3]⟩,
    ⟨.tes3 ⟨"b.nif", 0, 0, 0, 0, 0, 0⟩, .ok [1]⟩,
    ⟨.tes4 ⟨"Meshes\\bow.nif", 0, false⟩, .ok []⟩]

theorem rebuild_reproduces_twoFolders :
    ∃ builder bytes opened,
      Builder.create "sample.bsa" (.tes4 Tes4.sampleState) = .ok builder ∧
        (builder.offerAll legibleOffers).1.buildArranged id = .ok bytes ∧
        Archive.openAs .bsa ⟨"again.bsa", bytes⟩ = .ok opened ∧
        opened.rebuildArranged List.reverse = .ok (3, bytes) := by
  let builder : Builder := .tes4 ⟨"sample.bsa", .sse, ⟨0x107⟩, 0x5, []⟩
  have created : Builder.create "sample.bsa" (.tes4 Tes4.sampleState) = .ok builder := by
    decide +kernel
  let finished : Tes4.Builder := (⟨"sample.bsa", .sse, ⟨0x107⟩, 0x5, []⟩ : Tes4.Builder).addAll
    [(⟨"readme.txt", 0, true⟩, [0x68, 0x69]),
      (⟨"Meshes/axe.nif", 0, false⟩, [1, 2, 3, 1, 2, 3]), (⟨"Meshes\\bow.nif", 0, false⟩, [])]
  have offered : builder.offerAll legibleOffers = (.tes4 finished, 3) := by decide +kernel
  have inOrder : (finished.groups.map fun groups =>
      decide (Tes4.InOrder (id groups))) = .ok true := by decide +kernel
  obtain ⟨bytes, built⟩ := Tes4.Builder.exists_buildArranged_eq_ok inOrder (by decide +kernel)
  obtain ⟨archive, files, openedOk, -⟩ :=
    finished.lists_built "again.bsa" List.Perm.refl built
  have builtOk : (builder.offerAll legibleOffers).1.buildArranged id = .ok bytes := by
    rw [offered]
    exact built
  have legible : finished.Legible := by
    refine ⟨by decide, by decide, ?_, ?_, ⟨?_, ?_⟩, ?_⟩
    all_goals decide +kernel
  have reopened : Archive.openAs .bsa ⟨"again.bsa", bytes⟩ = .ok (.tes4 archive) := by
    rw [Archive.openAs, openedOk]
    rfl
  have rebuilt := rebuild_reproduces "again.bsa" legibleOffers created List.Perm.refl
    List.reverse_perm builtOk reopened Compression.lz4Frame_inverts
    (fun ba2 => absurd ba2 (by decide)) (fun ba2 => absurd ba2 (by decide))
    (by rw [offered]; exact legible)
    (by rw [offered]; exact fun _ => by decide +kernel)
  rw [offered] at rebuilt
  exact ⟨builder, bytes, .tes4 archive, created, builtOk, reopened, rebuilt⟩

/-- Two files of one folder, which the path before the data of the second spells otherwise. -/
def respelledOffers : List Offer :=
  [⟨.tes4 ⟨"Meshes\\a.nif", 0, false⟩, .ok [1]⟩, ⟨.tes4 ⟨"meshes\\b.nif", 1, false⟩, .ok [2]⟩]

theorem rebuilt_otherwise :
    ∃ state builder bytes opened rebuilt,
      Builder.create "b.bsa" state = .ok builder ∧
        (builder.offerAll respelledOffers).1.Legible ∧ state.compression.Inverts ∧
        (builder.offerAll respelledOffers).1.buildArranged id = .ok bytes ∧
        Archive.openAs state.kind ⟨"b.bsa", bytes⟩ = .ok opened ∧
        opened.rebuildArranged id = .ok (2, rebuilt) ∧ rebuilt ≠ bytes := by
  let state : State := .tes4 ⟨Tes4.magicText, .sse, 0x103, 0⟩
  let empty : Tes4.Builder := ⟨"b.bsa", .sse, ⟨0x103⟩, 0, []⟩
  let finished : Tes4.Builder :=
    empty.addAll [(⟨"Meshes\\a.nif", 0, false⟩, [1]), (⟨"meshes\\b.nif", 1, false⟩, [2])]
  let again : Tes4.Builder :=
    empty.addAll [(⟨"Meshes\\a.nif", 0, false⟩, [1]), (⟨"Meshes\\b.nif", 1, false⟩, [2])]
  have offered : (Builder.tes4 empty).offerAll respelledOffers = (.tes4 finished, 2) := by
    decide +kernel
  have inOrder : (finished.groups.map fun groups =>
      decide (Tes4.InOrder (id groups))) = .ok true := by decide +kernel
  have inOrderAgain : (again.groups.map fun groups =>
      decide (Tes4.InOrder (id groups))) = .ok true := by decide +kernel
  have legible : finished.Legible := by
    refine ⟨by decide, by decide, ?_, ?_, ⟨?_, ?_⟩, ?_⟩
    all_goals decide +kernel
  -- The builders are in order, so that what they finish can be evaluated.
  let finish (builder : Tes4.Builder) : Except ExtractError Bytes :=
    builder.groups >>= fun groups => do
      Tes4.requireDistinct builder.archive groups
      let framed ← groups.mapM builder.frameGroup
      builder.write framed
  let readd (opened : Archive) : Except ExtractError (Nat × Builder) := do
    let builder ← Builder.create opened.name opened.state
    let files ← opened.files
    let builder ← builder.addFiles files
    pure (files.length, builder)
  have facts : (finish finished).toOption.any fun bytes =>
      (finish again).toOption.any fun rebuilt =>
        rebuilt ≠ bytes ∧
          (Archive.openAs .bsa ⟨"b.bsa", bytes⟩ >>= readd) = .ok (2, .tes4 again) := by
    decide +kernel
  have built : finished.buildArranged id = finish finished :=
    Tes4.Builder.buildArranged_of_inOrder inOrder
  have rebuilt : again.buildArranged id = finish again :=
    Tes4.Builder.buildArranged_of_inOrder inOrderAgain
  cases first : finish finished with
  | error failure =>
      rw [first] at facts
      cases facts
  | ok bytes =>
      cases second : finish again with
      | error failure =>
          rw [first, second] at facts
          cases facts
      | ok otherBytes =>
          rw [first, second] at facts
          obtain ⟨different, readded⟩ := of_decide_eq_true facts
          obtain ⟨opened, openedOk, steps⟩ := Outcome.bind_eq_ok_iff.mp readded
          obtain ⟨started, startedOk, steps⟩ := Outcome.bind_eq_ok_iff.mp steps
          obtain ⟨files, filesOk, steps⟩ := Outcome.bind_eq_ok_iff.mp steps
          obtain ⟨added, addedOk, steps⟩ := Outcome.bind_eq_ok_iff.mp steps
          obtain ⟨count, rfl⟩ := Prod.mk.inj (Except.ok.inj steps)
          have rebuildOk : opened.rebuildArranged id = .ok (2, otherBytes) := by
            rw [Archive.rebuildArranged, startedOk, Outcome.ok_bind, filesOk, Outcome.ok_bind,
              addedOk, Outcome.ok_bind, count]
            change (again.buildArranged id >>= _) = _
            rw [rebuilt, second]
            rfl
          refine ⟨state, .tes4 empty, bytes, opened, otherBytes, rfl, ?_,
            Compression.lz4Frame_inverts, ?_, openedOk, rebuildOk, different⟩
          · rw [offered]
            exact legible
          · rw [offered]
            exact built.trans first

end Bethesda
end GameArchive
