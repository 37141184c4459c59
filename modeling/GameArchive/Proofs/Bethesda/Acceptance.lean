import GameArchive.Proofs.Bethesda.Truncation

/-!
# Archives that are read again

A builder takes some of the files that are offered to it and refuses others.  What it builds is
opened in its layout, and lists as many files as were taken.  A Morrowind builder does not look at
the version number of its state, and its reader takes one version only, so that archives of other
versions are built and cannot be opened.
-/

namespace GameArchive
namespace Bethesda

def State.kind : State → ContainerKind
  | tes4 _ => .bsa
  | tes3 _ => .tes3
  | ba2 _ => .ba2

def FileState.kind : FileState → ContainerKind
  | tes4 _ => .bsa
  | tes3 _ => .tes3
  | ba2 _ => .ba2

/-- A file that is offered to a builder, with what reading its contents gives. -/
structure Offer where
  state : FileState
  contents : Except IoError Bytes

namespace Builder

def archiveName : Builder → String
  | tes4 builder => builder.archive
  | tes3 builder => builder.archive
  | ba2 builder => builder.archive

/-- Adds a file whose contents can be read.  The contents of a file of another layout are not
read. -/
def offer [Codecs] (builder : Builder) (offered : Offer) : Except ExtractError Builder :=
  match offered.contents with
  | .ok contents => builder.add offered.state contents
  | .error cause =>
      if offered.state.kind = builder.kind then .error (.io builder.archiveName cause)
      else .error (.invalidFormat offered.state.path .mismatchedState)

/-- The builder after some offers, and the number of those that it took.  A refused file leaves
the builder as it is. -/
def offerAll [Codecs] (builder : Builder) : List Offer → Builder × Nat
  | [] => (builder, 0)
  | offered :: offers =>
      match builder.offer offered with
      | .error _ => builder.offerAll offers
      | .ok builder =>
          let (finished, taken) := builder.offerAll offers
          (finished, taken + 1)

/-- A builder without its files. -/
def cleared : Builder → Builder
  | tes4 builder => .tes4 { builder with files := [] }
  | tes3 builder => .tes3 { builder with files := [] }
  | ba2 builder => .ba2 { builder with files := [] }

variable {builder after : Builder}

theorem add_eq_ok [Codecs] {state : FileState} {contents : Bytes}
    (added : builder.add state contents = .ok after) :
    after.cleared = builder.cleared ∧ after.count = builder.count + 1 := by
  cases builder <;> cases state <;> cases added
  all_goals exact ⟨rfl, List.length_append ..⟩

theorem offer_eq_ok [Codecs] {offered : Offer} (taken : builder.offer offered = .ok after) :
    after.cleared = builder.cleared ∧ after.count = builder.count + 1 := by
  unfold offer at taken
  split at taken
  · exact add_eq_ok taken
  · split at taken <;> cases taken

/-- Offers change the files of a builder only, and those that it takes are counted. -/
theorem offerAll_spec [Codecs] (builder : Builder) (offers : List Offer) :
    (builder.offerAll offers).1.cleared = builder.cleared ∧
      (builder.offerAll offers).1.count = builder.count + (builder.offerAll offers).2 := by
  induction offers generalizing builder with
  | nil => exact ⟨rfl, rfl⟩
  | cons offered offers ih =>
      rw [offerAll]
      split
      case h_1 => exact ih builder
      case h_2 next taken =>
        obtain ⟨clearedEq, countEq⟩ := ih next
        obtain ⟨nextCleared, nextCount⟩ := offer_eq_ok taken
        refine ⟨clearedEq.trans nextCleared, ?_⟩
        simp only [countEq, nextCount]
        omega

theorem count_of_create {archive : String} {state : State}
    (created : create archive state = .ok builder) : builder.count = 0 := by
  cases state with
  | tes4 state =>
      obtain ⟨started, startedOk, rfl⟩ := Outcome.map_eq_ok_iff.mp created
      obtain ⟨-, rfl⟩ := Tes4.Builder.create_eq_ok startedOk
      rfl
  | tes3 state =>
      cases created
      rfl
  | ba2 state =>
      obtain ⟨started, startedOk, rfl⟩ := Outcome.map_eq_ok_iff.mp created
      obtain ⟨-, -, -, rfl⟩ := Ba2.Builder.create_eq_ok startedOk
      rfl

end Builder

/-- A state whose archives the reader of its layout takes. -/
def State.Readable : State → Prop
  | .tes3 state => state.versionNumber = Tes3.versionNumber
  | .tes4 _ | .ba2 _ => True

section Finished

variable [Codecs] {archive : String} {state : State} {builder finished : Builder}
  {arrange : List Tes4.Group → List Tes4.Group} {bytes : Bytes}

omit [Codecs] in
/-- What a Morrowind builder finishes on a state of the known version is opened with its listing. -/
theorem Builder.open_tes3 (name : String) {state : Tes3.State} {finished : Tes3.Builder}
    (same : (Builder.tes3 finished).cleared =
      (Builder.tes3 (Tes3.Builder.create archive state)).cleared)
    (built : finished.build = .ok bytes) (readable : state.versionNumber = Tes3.versionNumber) :
    ∃ opened, Archive.openAs .tes3 ⟨name, bytes⟩ = .ok (.tes3 opened) ∧
      opened.files = finished.listing := by
  have known : finished.versionNumber = Tes3.versionNumber :=
    (congrArg Tes3.Builder.versionNumber (Builder.tes3.inj same)).trans readable
  obtain ⟨rfl, writable⟩ := Tes3.Builder.build_eq_ok built
  exact ⟨_, Outcome.map_eq_ok_iff.mpr ⟨_, finished.open_image name known writable, rfl⟩, rfl⟩

/-- What a BA2 builder finishes is opened with an entry for each file. -/
theorem Builder.open_ba2 (name : String) {state : Ba2.State} {started finished : Ba2.Builder}
    (created : Ba2.Builder.create archive state = .ok started)
    (same : (Builder.ba2 finished).cleared = (Builder.ba2 started).cleared)
    (built : finished.build = .ok bytes) (addressable : bytes.length ≤ Stream.memoryLimit.toNat)
    (nonempty : ∀ contents, state.packing.pack contents ≠ []) :
    ∃ opened, Archive.openAs .ba2 ⟨name, bytes⟩ = .ok (.ba2 opened) ∧
      opened.files = finished.shownFiles 0 finished.dataStart finished.sortedFiles := by
  obtain ⟨magicEq, kind, known, rfl⟩ := Ba2.Builder.create_eq_ok created
  obtain ⟨finishedArchive, finishedState, files⟩ := finished
  obtain ⟨rfl, rfl⟩ : finishedArchive = archive ∧ finishedState = state := by
    simpa [Builder.cleared] using same
  obtain ⟨rfl, writable⟩ := Ba2.Builder.build_eq_ok built
  exact ⟨_, Outcome.map_eq_ok_iff.mpr ⟨_, Ba2.Builder.open_image name kind magicEq known writable
    nonempty (Nat.lt_succ_of_le addressable), rfl⟩, rfl⟩

/-- What was built on a state that its reader takes is opened, and lists the files of the
builder. -/
theorem listed_of_readable (name : String)
    (created : Builder.create archive state = .ok builder)
    (same : finished.cleared = builder.cleared)
    (arranged : ∀ groups, (arrange groups).Perm groups)
    (built : finished.buildArranged arrange = .ok bytes)
    (addressable : state.kind = .ba2 → bytes.length ≤ Stream.memoryLimit.toNat)
    (nonempty : ∀ words, state = .ba2 words → ∀ contents, words.packing.pack contents ≠ [])
    (readable : state.Readable) :
    ∃ opened files, Archive.openAs state.kind ⟨name, bytes⟩ = .ok opened ∧
      opened.files = .ok files ∧ files.length = finished.count := by
  cases state with
  | tes4 state =>
      obtain ⟨started, -, rfl⟩ := Outcome.map_eq_ok_iff.mp created
      cases finished with
      | tes4 finished =>
          obtain ⟨opened, files, openedOk, filesOk, lengthEq⟩ :=
            Tes4.Builder.lists_built name arranged built
          exact ⟨.tes4 opened, _, Outcome.map_eq_ok_iff.mpr ⟨opened, openedOk, rfl⟩,
            Outcome.map_eq_ok_iff.mpr ⟨files, filesOk, rfl⟩,
            (List.length_map _).trans lengthEq⟩
      | tes3 finished => cases same
      | ba2 finished => cases same
  | tes3 state =>
      cases created
      cases finished with
      | tes4 finished => cases same
      | tes3 finished =>
          obtain ⟨opened, openedOk, filesEq⟩ := Builder.open_tes3 name same built readable
          refine ⟨_, _, openedOk, rfl, ?_⟩
          rw [List.length_map, filesEq, Tes3.Builder.length_listing]
          exact List.length_mergeSort _
      | ba2 finished => cases same
  | ba2 state =>
      obtain ⟨started, startedOk, rfl⟩ := Outcome.map_eq_ok_iff.mp created
      cases finished with
      | tes4 finished => cases same
      | tes3 finished => cases same
      | ba2 finished =>
          obtain ⟨opened, openedOk, filesEq⟩ :=
            Builder.open_ba2 name startedOk same built (addressable rfl) (nonempty _ rfl)
          refine ⟨_, _, openedOk, rfl, ?_⟩
          rw [List.length_map, filesEq, Ba2.Builder.length_shownFiles]
          exact List.length_mergeSort _

/-- What was built on any other state is refused on opening. -/
theorem refused_of_unreadable (name : String)
    (created : Builder.create archive state = .ok builder)
    (same : finished.cleared = builder.cleared)
    (built : finished.buildArranged arrange = .ok bytes) (unreadable : ¬ state.Readable) :
    ∃ number, Archive.openAs state.kind ⟨name, bytes⟩ =
      .error (.invalidFormat name (.unknownTes3Version number)) := by
  cases state with
  | tes4 state => exact absurd trivial unreadable
  | ba2 state => exact absurd trivial unreadable
  | tes3 state =>
      cases created
      cases finished with
      | tes4 finished => cases same
      | tes3 finished =>
          have version : finished.versionNumber = state.versionNumber :=
            congrArg Tes3.Builder.versionNumber (Builder.tes3.inj same)
          have unknown : finished.versionNumber ≠ Tes3.versionNumber :=
            fun known => unreadable (version.symm.trans known)
          obtain ⟨rfl, writable⟩ := Tes3.Builder.build_eq_ok built
          refine ⟨finished.versionNumber.toNat, ?_⟩
          rw [State.kind, Archive.openAs, finished.open_image_unknown name unknown writable.few]
          rfl
      | ba2 finished => cases same

end Finished

/-- An archive that a builder finishes is opened in its layout and lists as many files as were
taken, exactly if the state is one that the reader of its layout takes: any but a Morrowind state
of another version.  No packer gives an empty stream, and no stream is longer than its greatest
position. -/
theorem lists_taken [Codecs] {archive : String} {state : State} {builder : Builder}
    {arrange : List Tes4.Group → List Tes4.Group} {bytes : Bytes} (name : String)
    (offers : List Offer)
    (created : Builder.create archive state = .ok builder)
    (arranged : ∀ groups, (arrange groups).Perm groups)
    (built : (builder.offerAll offers).1.buildArranged arrange = .ok bytes)
    (addressable : state.kind = .ba2 → bytes.length ≤ Stream.memoryLimit.toNat)
    (nonempty : ∀ words, state = .ba2 words → ∀ contents, words.packing.pack contents ≠ []) :
    ((∃ opened files, Archive.openAs state.kind ⟨name, bytes⟩ = .ok opened ∧
        opened.files = .ok files ∧ files.length = (builder.offerAll offers).2) ↔
      state.Readable) ∧
    (¬ state.Readable → ∃ number, Archive.openAs state.kind ⟨name, bytes⟩ =
      .error (.invalidFormat name (.unknownTes3Version number))) := by
  obtain ⟨same, countEq⟩ := builder.offerAll_spec offers
  rw [Builder.count_of_create created, Nat.zero_add] at countEq
  have refused := refused_of_unreadable name created same built
  refine ⟨⟨?_, ?_⟩, refused⟩
  · rintro ⟨opened, files, openedOk, -⟩
    by_contra unreadable
    obtain ⟨number, failed⟩ := refused unreadable
    rw [openedOk] at failed
    cases failed
  · intro readable
    rw [← countEq]
    exact listed_of_readable name created same arranged built addressable nonempty readable

/-- Two files, and between them one of another layout and one that cannot be read. -/
def sampleOffers : List Offer :=
  [⟨.ba2 ⟨"a.txt", 3, 0x33, "txt", 0x44, 1, 0xBAADF00D, false⟩, .ok [4, 5]⟩,
    ⟨.tes3 ⟨"b.nif", 0, 0, 0, 0, 0, 0⟩, .ok [1]⟩,
    ⟨.ba2 ⟨"c.txt", 4, 0x33, "txt", 0x44, 1, 0xBAADF00D, false⟩, .error .system⟩,
    ⟨.ba2 ⟨"Textures\\b.dds", 7, 0x11, "dds", 0x22, 0, 0xBAADF00D, true⟩,
      .ok [1, 2, 3, 1, 2, 3]⟩]

theorem lists_taken_sample :
    ∃ builder bytes opened files,
      Builder.create "sample.ba2" (.ba2 Ba2.sampleState) = .ok builder ∧
        (builder.offerAll sampleOffers).1.buildArranged id = .ok bytes ∧
        Archive.openAs .ba2 ⟨"sample.ba2", bytes⟩ = .ok opened ∧
        opened.files = .ok files ∧ files.length = 2 := by
  let builder : Builder := .ba2 ⟨"sample.ba2", Ba2.sampleState, []⟩
  have created : Builder.create "sample.ba2" (.ba2 Ba2.sampleState) = .ok builder := by decide
  let finished : Ba2.Builder :=
    (⟨"sample.ba2", Ba2.sampleState, []⟩ : Ba2.Builder).addAll Ba2.sampleFiles
  have offered : builder.offerAll sampleOffers = (.ba2 finished, 2) := by decide
  have sorted : finished.sortedFiles = finished.files := List.mergeSort_of_pairwise (by decide)
  have facts : finished.build.toOption.any fun bytes =>
      bytes.length ≤ Stream.memoryLimit.toNat := by
    rw [Ba2.Builder.build, sorted]
    decide +kernel
  cases built : finished.build with
  | error failure =>
      rw [built] at facts
      cases facts
  | ok bytes =>
      rw [built] at facts
      have builtOk : (builder.offerAll sampleOffers).1.buildArranged id = .ok bytes := by
        rw [offered]
        exact built
      obtain ⟨listed, -⟩ := lists_taken "sample.ba2" sampleOffers created List.Perm.refl builtOk
        (fun _ => of_decide_eq_true facts) (by rintro words ⟨⟩; exact Lz4.packBlock_ne_nil)
      obtain ⟨opened, files, openedOk, filesOk, lengthEq⟩ := listed.mpr trivial
      rw [offered] at lengthEq
      exact ⟨builder, bytes, opened, files, created, builtOk, openedOk, filesOk, lengthEq⟩

/-- A Morrowind archive of another version is built with its file and cannot be opened. -/
theorem refused_after_build :
    ∃ state builder offers bytes failure,
      Builder.create "b.bsa" (.tes3 state) = .ok builder ∧ state.versionNumber = 0x101 ∧
        (builder.offerAll offers).1.buildArranged id = .ok bytes ∧
        (builder.offerAll offers).2 = 1 ∧
        Archive.openAs .tes3 ⟨"b.bsa", bytes⟩ = .error failure := by
  let state : Tes3.State := ⟨0x101, 0, 0, 0⟩
  let offers : List Offer := [⟨.tes3 ⟨"a.nif", 0, 0, 0, 0, 0x11, 0x22⟩, .ok [1, 2]⟩]
  let finished : Tes3.Builder :=
    (Tes3.Builder.create "b.bsa" state).addAll [(⟨"a.nif", 0, 0, 0, 0, 0x11, 0x22⟩, [1, 2])]
  have sorted : finished.sortedFiles = finished.files := List.mergeSort_of_pairwise (by decide)
  have facts : finished.build.toOption.any fun bytes =>
      (Archive.openAs .tes3 ⟨"b.bsa", bytes⟩).toOption.isNone := by
    rw [Tes3.Builder.build, sorted]
    decide +kernel
  cases built : finished.build with
  | error failure =>
      rw [built] at facts
      cases facts
  | ok bytes =>
      rw [built] at facts
      cases refused : Archive.openAs .tes3 ⟨"b.bsa", bytes⟩ with
      | ok opened =>
          change (Archive.openAs .tes3 ⟨"b.bsa", bytes⟩).toOption.isNone = true at facts
          rw [refused] at facts
          cases facts
      | error failure => exact ⟨state, _, offers, bytes, failure, rfl, rfl, built, rfl, refused⟩

end Bethesda
end GameArchive
