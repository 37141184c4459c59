import GameArchive.Proofs.Extraction.Placement
import GameArchive.Proofs.FileTree.Upkeep

/-!
# Extractions that keep file trees well-formed

Every entry that is put below a destination leaves a well-formed tree well-formed, with all its
directories, and so does the loop over the entries of an archive, wherever it stops.  An archive
whose entries are read in place is extracted by this loop alone.
-/

namespace GameArchive

theorem ExtractError.state_onBehalfOf {σ α : Type} (archive : String)
    (action : EStateM IoError σ α) (before : σ) :
    Outcome.state (onBehalfOf archive action before) = Outcome.state (action before) := by
  rw [onBehalfOf]
  cases action before <;> rfl

/-- The tree is well-formed wherever an entry is put, and when it cannot be put there. -/
theorem Entry.moveTo_upkept (entry : Entry) {base : Location} {tree : FileTree} (target : String)
    (wellFormed : tree.WellFormed) (directory : tree.isDirectory base) :
    FileTree.Upkept tree (Outcome.state (entry.moveTo base target tree)) := by
  cases entry with
  | native path location =>
      rw [moveTo, ExtractError.state_onBehalfOf]
      exact wellFormed.prepareFile_bind directory target fun place next ends kept =>
        kept.moveFile ends
  | bethesda file modified =>
      refine Outcome.holds_state_bind ?_ fun place next prepared kept => ?_
      · rw [ExtractError.state_onBehalfOf]
        exact wellFormed.prepareFile directory target
      · have ends := FileTree.endsInName_of_prepareFile (ExtractError.onBehalfOf_ok prepared)
        cases unpack file with
        | error failure => exact kept
        | ok bytes =>
            simp only
            rw [ExtractError.state_onBehalfOf]
            exact kept.trans (kept.wellFormed.writeFile ends bytes)
  | btar source record modified =>
      refine Outcome.holds_state_bind ?_ fun _ next _ kept => ?_
      · rw [ExtractError.state_onBehalfOf]
        exact wellFormed.prepareFile_bind directory target fun place next ends kept =>
          kept.writeFile ends _
      · split <;> exact kept

/-- A projection that leaves well-formed trees well-formed, as long as its working directory is
there. -/
def Projection.Upkeeps {α : Type} (project : Projection α) (workingDirectory : Location) : Prop :=
  ∀ (entry : Entry) (surroundings : Surroundings), surroundings.tree.WellFormed →
    surroundings.tree.isDirectory workingDirectory →
    FileTree.Upkept surroundings.tree (Outcome.state (project entry surroundings)).tree

namespace Extraction

theorem placeBelow_upkeeps (workingDirectory : Location) (destination : String) :
    (placeBelow workingDirectory destination).Upkeeps workingDirectory := by
  intro entry surroundings wellFormed directory
  have moved := entry.moveTo_upkept (Path.join destination entry.path) wellFormed directory
  rw [placeBelow]
  split
  · split
    · next outcome =>
        rw [outcome] at moved
        exact moved
    · next outcome =>
        rw [outcome] at moved
        exact moved
  · exact wellFormed.upkept

theorem state_project {α : Type} (request : Request α) (archive : String) (entry : Entry)
    (session : Session) :
    (Outcome.state (project request archive entry session)).toSurroundings =
      Outcome.state (request.project entry session.toSurroundings) := by
  rw [project]
  cases request.project entry session.toSurroundings <;> rfl

/-- A loop over offers leaves the tree well-formed when each of its projections does, whether it
goes through or stops half-way. -/
theorem gather_upkept {α : Type} {request : Request α} {base : Location}
    (each : request.project.Upkeeps base)
    (archive : String) (results : Results α) (offers : List Offer) {session : Session}
    (wellFormed : session.tree.WellFormed) (directory : session.tree.isDirectory base) :
    FileTree.Upkept session.tree
      (Outcome.state (gather request archive results offers session)).tree := by
  induction offers generalizing results session with
  | nil => exact wellFormed.upkept
  | cons offer offers ih =>
      have projected : FileTree.Upkept session.tree (Outcome.state
          (project request archive offer.entry (session.asking offer.entry.path))).tree := by
        rw [state_project]
        exact each offer.entry session.toSurroundings wellFormed directory
      rw [gather_cons]
      split
      · exact wellFormed.upkept
      · split
        · cases offer.size with
          | error failure => exact wellFormed.upkept
          | ok size =>
              generalize project request archive offer.entry
                (session.asking offer.entry.path) = outcome at projected
              cases outcome with
              | error failure after => exact projected
              | ok value after =>
                  have counted : (after.counting (UInt64.ofNat size)).tree.WellFormed :=
                    projected.wellFormed
                  exact projected.trans (ih _ counted (projected.directories base directory))
        · have asked : (session.asking offer.entry.path).tree.WellFormed := wellFormed
          exact ih results asked directory

/-! ## Whole extractions -/

section InPlace

variable {α : Type} {base : Location} {session : Session}

theorem state_ofExcept {β : Type} (outcome : Except ExtractError β) (session : Session) :
    Outcome.state (ofExcept outcome session) = session := by
  cases outcome <;> rfl

theorem withSlot_upkept (archive : String) (action : Extraction α)
    (wellFormed : session.tree.WellFormed)
    (upkept : ∀ held : Session, held.tree = session.tree →
      FileTree.Upkept held.tree (Outcome.state (action held)).tree) :
    FileTree.Upkept session.tree (Outcome.state (withSlot archive action session)).tree := by
  rw [withSlot]
  split
  · exact wellFormed.upkept
  · exact wellFormed.upkept
  · next wait limiter _ =>
      have ended := upkept { session with limiter } rfl
      split
      · next outcome =>
          rw [outcome] at ended
          exact ended
      · next outcome =>
          rw [outcome] at ended
          exact ended

/-- What is known about an archive before its entries are gone through does not touch the tree. -/
theorem ofExcept_bind_upkept {β : Type} (outcome : Except ExtractError β)
    {next : β → Extraction α} (wellFormed : session.tree.WellFormed)
    (upkept : ∀ value, FileTree.Upkept session.tree (Outcome.state (next value session)).tree) :
    FileTree.Upkept session.tree (Outcome.state ((ofExcept outcome >>= next) session)).tree := by
  cases outcome with
  | error failure => exact wellFormed.upkept
  | ok value => exact upkept value

/-- Archives that are read in place, without a scratch directory. -/
theorem carryOut_upkept (request : Request α) (each : request.project.Upkeeps base)
    (extractor : Extractor) (origin : Origin) (source : Source) {strategy : Strategy}
    (inPlace : strategy ≠ .omod ∧ strategy ≠ .archiver) (wellFormed : session.tree.WellFormed)
    (directory : session.tree.isDirectory base) :
    FileTree.Upkept session.tree
      (Outcome.state (carryOut extractor request origin source strategy session)).tree := by
  cases strategy with
  | bethesda kind =>
      refine withSlot_upkept source.name _ wellFormed fun held here => ?_
      rw [← here] at wellFormed directory
      refine ofExcept_bind_upkept _ wellFormed fun archive => ?_
      refine ofExcept_bind_upkept _ wellFormed fun files => ?_
      exact gather_upkept each source.name [] _ wellFormed directory
  | btar =>
      refine withSlot_upkept source.name _ wellFormed fun held here => ?_
      rw [← here] at wellFormed directory
      refine ofExcept_bind_upkept _ wellFormed fun header => ?_
      have gathered := gather_upkept each source.name []
        ((Btar.records source).records.map (offerOfRecord source origin.modified)) wellFormed
        directory
      refine Outcome.holds_state_bind (P := fun after : Session => FileTree.Upkept held.tree after.tree)
        gathered fun results after _ kept => ?_
      cases (Btar.records source).failure <;> exact kept
  | omod => exact absurd rfl inPlace.1
  | archiver => exact absurd rfl inPlace.2

/-- An extraction into a directory from an archive that is read in place leaves the tree
well-formed, whether it succeeds or not. -/
theorem extractTo_upkept (extractor : Extractor) (origin : Origin) (destination : String)
    (only? : Option (List String))
    (inPlace : ∀ source strategy,
      origin.load session.tree extractor.workingDirectory = .ok source →
      Strategy.select (ContainerKind.sniff (Stream.ofBytes source.bytes)).1 origin.name =
        .ok strategy → strategy ≠ .omod ∧ strategy ≠ .archiver)
    (wellFormed : session.tree.WellFormed)
    (directory : session.tree.isDirectory extractor.workingDirectory) :
    FileTree.Upkept session.tree
      (Outcome.state (extractor.extractTo origin destination only? session)).tree := by
  refine Outcome.holds_state_bind (P := fun after : Session => FileTree.Upkept session.tree after.tree) ?_
    fun results after _ kept => kept
  rw [extract_eq]
  cases loaded : origin.load session.tree extractor.workingDirectory with
  | error failure => exact wellFormed.upkept
  | ok source =>
      simp only
      cases chosen : Strategy.select (ContainerKind.sniff (Stream.ofBytes source.bytes)).1
          origin.name with
      | error failure => exact wellFormed.upkept
      | ok strategy =>
          have carriedOut := carryOut_upkept
            ⟨isNamed only?, placeBelow extractor.workingDirectory destination, only?⟩
            (placeBelow_upkeeps extractor.workingDirectory destination) extractor origin source
            (inPlace source strategy loaded chosen) wellFormed directory
          refine Outcome.holds_state_bind
            (P := fun after : Session => FileTree.Upkept session.tree after.tree) carriedOut ?_
          intro results after _ kept
          rw [state_ofExcept]
          exact kept

end InPlace

end Extraction
end GameArchive
